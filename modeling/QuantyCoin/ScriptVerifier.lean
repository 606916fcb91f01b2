import QuantyCoin.ScriptInterpreter

/-!
# The script verifier

`ExecuteWitnessScript` and `VerifyScript` of `script/interpreter.cpp`, around
`VerifyWitnessProgram`.
-/

namespace QuantyCoin

open ByteDecoder StateTriples

/-- `IsOpSuccess`. -/
def isOpSuccess (opcode : UInt8) : Bool :=
  opcode = 80 || opcode = 98 || (126 ≤ opcode && opcode ≤ 129) || (131 ≤ opcode && opcode ≤ 134) ||
    (137 ≤ opcode && opcode ≤ 138) || (141 ≤ opcode && opcode ≤ 142) ||
    (149 ≤ opcode && opcode ≤ 153) || (192 ≤ opcode && opcode ≤ 254)

/-- The loop of `ExecuteWitnessScript`: the script holds an `OP_SUCCESSx`. -/
def findOpSuccess (script : Bytes) : Except EvalError Bool :=
  match _found : getScriptOp script with
  | none => if script = [] then .ok false else .error .badOpcode
  | some (opcode, _, rest) => if isOpSuccess opcode then .ok true else findOpSuccess rest
termination_by script.length
decreasing_by exact getScriptOp_shorter ‹_›

/-- The execution data of a leaf script. -/
def LeafExecution.execdata (leaf : LeafExecution) : ScriptExecutionData :=
  { ScriptExecutionData.new with
    tapleafHash := some leaf.tapleafHash
    annexHash := some leaf.annexHash
    validationWeightLeft := some leaf.validationWeightLeft }

/-- The arguments of `ExecuteWitnessScript`: the stack, the signature version and the
execution data. -/
def WitnessExecution.arguments :
    WitnessExecution → List Bytes × SigVersion × ScriptExecutionData
  | .witnessV0 stack _ => (stack, .witnessV0, .new)
  | .tapscript leaf => (leaf.stack, .tapscript, leaf.execdata)
  | .p2mrTapscript leaf => (leaf.stack, .p2mrTapscript, leaf.execdata)

/-- `BaseSignatureChecker`, which accepts no signature. -/
def SignatureChecker.base : SignatureChecker Unit where
  taproot := ⟨fun _ _ _ _ => false, fun _ _ _ => some .sig⟩
  checkECDSASignature _ _ _ _ := return false
  checkSchnorrSignature _ _ _ _ := throw .unknownError
  checkDilithiumSignature _ _ _ _ execdata := return (false, execdata)
  checkLockTime _ := false
  checkSequence _ := false

/-- Hashes for runs that use none of them. -/
def ScriptCrypto.idle : ScriptCrypto where
  sha256 _ := .null
  hasherTapleaf _ := .null
  hasherTapbranch _ := .null
  ripemd160 _ := ⟨List.replicate 20 0, rfl⟩
  sha1 _ := ⟨List.replicate 20 0, rfl⟩
  checkLowS _ := false

section Verifier

variable {σ : Type} (crypto : ScriptCrypto) (checker : SignatureChecker σ) (flags : UInt32)

/-- `ExecuteWitnessScript` behind the search for an `OP_SUCCESSx`, with a stack whose last
item is on top. -/
def runWitnessScript (stack : List Bytes) (execScript : Bytes) (sigversion : SigVersion)
    (execdata : ScriptExecutionData) : EStateM EvalError σ Unit := do
  require (sigversion.isTapscript → stack.length ≤ maxStackSize) .stackSize
  require (∀ elem ∈ stack, elem.length ≤ maxScriptElementSize) .pushSize
  let stack ← evalScript crypto checker flags sigversion stack.reverse execScript execdata
  require (stack.length = 1) .cleanstack
  require (castToBool (stack.headD [])) .evalFalse

/-- `ExecuteWitnessScript`. -/
def executeWitnessScript (stack : List Bytes) (execScript : Bytes) (sigversion : SigVersion)
    (execdata : ScriptExecutionData) : EStateM EvalError σ Unit :=
  if sigversion.isTapscript then do
    let success ← ofExcept (findOpSuccess execScript)
    if success then require (!hasFlag flags scriptVerifyDiscourageOpSuccess) .discourageOpSuccess
    else runWitnessScript crypto checker flags stack execScript sigversion execdata
  else runWitnessScript crypto checker flags stack execScript sigversion execdata

/-- `VerifyWitnessProgram`. -/
def evalWitnessProgram (witness : List Bytes) (witversion : Int) (program : Bytes)
    (isP2sh : Bool) : EStateM EvalError σ Unit :=
  match verifyWitnessProgram crypto.toScriptHashes checker.taproot witness witversion program flags
      isP2sh with
  | .failed error => throw (.witness error)
  | .succeeded => return ()
  | .execute execution =>
      let (stack, sigversion, execdata) := execution.arguments
      executeWitnessScript crypto checker flags stack execution.execScript sigversion execdata

/-- `stack.resize(1)` of a stack that is not empty. -/
def resizeToOne (stack : List Bytes) : List Bytes := stack.drop (stack.length - 1)

/-- The witness program of a script, if it is one; `malleated` is the error for a
`scriptSig` other than `expected`.  The result is `hadWitness` and the stack. -/
def verifyWitness (scriptSig script expected : Bytes) (malleated : EvalError)
    (witness : List Bytes) (isP2sh : Bool) (hadWitness : Bool) (stack : List Bytes) :
    EStateM EvalError σ (Bool × List Bytes) :=
  match isWitnessProgram script with
  | none => return (hadWitness, stack)
  | some (version, program) => do
      require (scriptSig = expected) malleated
      evalWitnessProgram crypto checker flags witness version program isP2sh
      return (true, resizeToOne stack)

/-- A script whose result is true. -/
def evalTrue (stack : List Bytes) (script : Bytes) : EStateM EvalError σ (List Bytes) := do
  let stack ← evalScript crypto checker flags .base stack script .new
  require (stack ≠ [] ∧ castToBool (stack.headD [])) .evalFalse
  return stack

/-- The validation of a script behind its hash, on the stack that `scriptSig` left. -/
def verifyScriptHash (scriptSig : Bytes) (witness : List Bytes) (hadWitness : Bool)
    (stackCopy : List Bytes) : EStateM EvalError σ (Bool × List Bytes) := do
  require (isPushOnly scriptSig) .sigPushonly
  match stackCopy with
  | [] => throw .aborted
  | pubKey2 :: stack => do
      let stack ← evalTrue crypto checker flags stack pubKey2
      if hasFlag flags scriptVerifyWitness then
        verifyWitness crypto checker flags scriptSig pubKey2 (Signing.pushData pubKey2)
          .witnessMalleatedP2sh witness true hadWitness stack
      else return (hadWitness, stack)

/-- The checks at the end of `VerifyScript`, with its assertions. -/
def verifyRemains (witness : List Bytes) (hadWitness : Bool) (stack : List Bytes) :
    EStateM EvalError σ Unit := do
  require (hasFlag flags scriptVerifyCleanstack →
    hasFlag flags scriptVerifyP2sh ∧ hasFlag flags scriptVerifyWitness) .aborted
  require (hasFlag flags scriptVerifyCleanstack → stack.length = 1) .cleanstack
  require (hasFlag flags scriptVerifyWitness → hasFlag flags scriptVerifyP2sh) .aborted
  require (hasFlag flags scriptVerifyWitness → hadWitness ∨ witness = []) .witnessUnexpected

/-- `VerifyScript`. -/
def verifyScript (scriptSig scriptPubKey : Bytes) (witness : List Bytes) :
    EStateM EvalError σ Unit := do
  require (hasFlag flags scriptVerifySigpushonly → isPushOnly scriptSig) .sigPushonly
  let stackCopy ← evalScript crypto checker flags .base [] scriptSig .new
  let stack ← evalTrue crypto checker flags stackCopy scriptPubKey
  let (hadWitness, stack) ←
    (if hasFlag flags scriptVerifyWitness then
        verifyWitness crypto checker flags scriptSig scriptPubKey [] .witnessMalleated witness
          false false stack
      else pure (false, stack))
  let (hadWitness, stack) ←
    (if hasFlag flags scriptVerifyP2sh ∧ isPayToScriptHash scriptPubKey then
        verifyScriptHash crypto checker flags scriptSig witness hadWitness stackCopy
      else pure (hadWitness, stack))
  verifyRemains flags witness hadWitness stack

end Verifier

end QuantyCoin
