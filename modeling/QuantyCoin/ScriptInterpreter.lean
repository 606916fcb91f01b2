import QuantyCoin.ConditionStack
import QuantyCoin.ScriptOperations
import QuantyCoin.SighashCache

/-!
# The script interpreter

`EvalScript` of `script/interpreter.cpp`.  The signature checker comes with a state of its
own, since the checker of the source keeps a cache behind its `const` methods.  The
interpreter is generic over the stack of conditions.
-/

namespace QuantyCoin

open ByteDecoder StateTriples

def maxScriptElementSize : Nat := 15000
def maxOpsPerScript : Nat := 201
def maxScriptSize : Nat := 100000
def maxStackSize : Nat := 1000
def validationWeightPerSigopPassed : Int := 50
def validationWeightPerDilithiumSigopPassed : Int := 500

/-! ## The state of the interpreter -/

structure Uint160 where
  bytes : Bytes
  bytes_length : bytes.length = 20

/-- `ScriptExecutionData`; what is not initialized is missing. -/
structure ScriptExecutionData where
  tapleafHash : Option Uint256
  codeseparatorPos : Option UInt32
  annexHash : Option (Option Uint256)
  validationWeightLeft : Option Int
  outputHash : Option Uint256

/-- `ScriptExecutionData()`. -/
def ScriptExecutionData.new : ScriptExecutionData := ⟨none, none, none, none, none⟩

/-- The hashes of the interpreter and `CPubKey::CheckLowS`. -/
structure ScriptCrypto extends ScriptHashes where
  ripemd160 : Bytes → Uint160
  sha1 : Bytes → Uint160
  checkLowS : Bytes → Bool

/-- `BaseSignatureChecker`, with the state behind its methods, and apart from them the
checks for the key path of Taproot, which leave no state behind. -/
structure SignatureChecker (σ : Type) where
  taproot : TaprootChecker
  checkECDSASignature : (scriptSig vchPubKey scriptCode : Bytes) → SigVersion →
    EStateM EvalError σ Bool
  checkSchnorrSignature : (sig pubkey : Bytes) → SigVersion → ScriptExecutionData →
    EStateM EvalError σ ScriptExecutionData
  checkDilithiumSignature : (scriptSig vchPubKey scriptCode : Bytes) → SigVersion →
    ScriptExecutionData → EStateM EvalError σ (Bool × ScriptExecutionData)
  checkLockTime : Int → Bool
  checkSequence : Int → Bool

/-- The local variables of `EvalScript`. -/
structure Machine (C : Type) where
  stack : List Bytes
  altstack : List Bytes
  vfExec : C
  nOpCount : Nat
  opcodePos : UInt32
  pbegincodehash : Bytes
  execdata : ScriptExecutionData

def HashOp.eval (crypto : ScriptCrypto) (op : HashOp) (vch : Bytes) : Bytes :=
  match op with
  | .ripemd160 => (crypto.ripemd160 vch).bytes
  | .sha1 => (crypto.sha1 vch).bytes
  | .sha256 => (crypto.sha256 vch).bytes
  | .hash160 => (crypto.ripemd160 (crypto.sha256 vch).bytes).bytes
  | .hash256 => (crypto.sha256 (crypto.sha256 vch).bytes).bytes

/-- The versions with the rules of tapscript. -/
def SigVersion.isTapscript (sigversion : SigVersion) : Bool :=
  sigversion = .tapscript || sigversion = .p2mrTapscript

section Interpreter

variable {σ C : Type} (crypto : ScriptCrypto) (checker : SignatureChecker σ) (flags : UInt32)
  (sigversion : SigVersion)

/-! ## Checks of signatures -/

/-- Take the weight of a check off what is left. -/
def spendWeight (weight : Int) (execdata : ScriptExecutionData) :
    EStateM EvalError σ ScriptExecutionData :=
  match execdata.validationWeightLeft with
  | none => throw .aborted
  | some left => do
      require (0 ≤ left - weight) .tapscriptValidationWeight
      return { execdata with validationWeightLeft := some (left - weight) }

/-- The script code of a signature, without the signature itself before segwit. -/
def dropSignature (scriptCode vchSig : Bytes) : EStateM EvalError σ Bytes :=
  if sigversion = .base then do
    let (scriptCode, found) := findAndDelete scriptCode (Signing.pushData vchSig)
    require (0 < found → !hasFlag flags scriptVerifyConstScriptcode) .sigFindanddelete
    return scriptCode
  else return scriptCode

/-- `CheckSignatureEncoding`, `CheckPubKeyEncoding` and the check of the signature. -/
def checkEncodedSignature (vchSig vchPubKey scriptCode : Bytes) : EStateM EvalError σ Bool := do
  ofExcept (checkSignatureEncoding crypto.checkLowS vchSig flags)
  ofExcept (checkPubKeyEncoding vchPubKey flags sigversion)
  checker.checkECDSASignature vchSig vchPubKey scriptCode sigversion

/-- `EvalChecksigPreTapscript`. -/
def evalChecksigPreTapscript (vchSig vchPubKey scriptCode : Bytes) :
    EStateM EvalError σ Bool := do
  let scriptCode ← dropSignature flags sigversion scriptCode vchSig
  let fSuccess ← checkEncodedSignature crypto checker flags sigversion vchSig vchPubKey scriptCode
  require (hasFlag flags scriptVerifyNullfail → fSuccess ∨ vchSig = []) .sigNullfail
  return fSuccess

/-- `EvalChecksigTapscript`, where every signature but the empty one is a success. -/
def evalChecksigTapscript (sig pubkey : Bytes) (execdata : ScriptExecutionData) :
    EStateM EvalError σ (Bool × ScriptExecutionData) := do
  let execdata ←
    (if sig ≠ [] then spendWeight validationWeightPerSigopPassed execdata else pure execdata)
  if pubkey.length = 0 then throw .pubkeytype
  else if pubkey.length = 32 then
    let execdata ←
      (if sig ≠ [] then checker.checkSchnorrSignature sig pubkey sigversion execdata
        else pure execdata)
    return (sig ≠ [], execdata)
  else
    require (!hasFlag flags scriptVerifyDiscourageUpgradablePubkeytype)
      (.witness .discourageUpgradablePubkeytype)
    return (sig ≠ [], execdata)

/-- `EvalChecksig`. -/
def evalChecksig (sig pubkey scriptCode : Bytes) (execdata : ScriptExecutionData) :
    EStateM EvalError σ (Bool × ScriptExecutionData) :=
  if sigversion.isTapscript then
    evalChecksigTapscript checker flags sigversion sig pubkey execdata
  else do
    let success ←
      evalChecksigPreTapscript crypto checker flags sigversion sig pubkey scriptCode
    return (success, execdata)

/-- `EvalChecksigDilithium`. -/
def evalChecksigDilithium (sig pubkey scriptCode : Bytes) (execdata : ScriptExecutionData) :
    EStateM EvalError σ (Bool × ScriptExecutionData) := do
  require (sig = [] ∨ sig.length = dilithiumSignatureSize + 1) .sigDer
  require (isValidDilithiumPubKey pubkey) .pubkeytype
  let execdata ←
    (if sigversion = .p2mrTapscript ∧ sig ≠ [] then
        spendWeight validationWeightPerDilithiumSigopPassed execdata
      else pure execdata)
  checker.checkDilithiumSignature sig pubkey scriptCode sigversion execdata

/-- Where the operations for Dilithium are allowed. -/
def requireDilithium : EStateM EvalError σ Unit := do
  require (if hasFlag flags scriptVerifyDilithiumP2mrOnly then sigversion = .p2mrTapscript
    else sigversion ≠ .tapscript) .tapscriptDilithium
  require (hasFlag flags scriptVerifyDilithium) (.witness .discourageUpgradablePubkeytype)

/-! ## Multisignatures -/

/-- The arguments of a multisignature, the ones on top first. -/
structure MultisigArguments where
  keys : List Bytes
  sigs : List Bytes
  /-- What is left of the stack: the extra argument and everything below it. -/
  below : List Bytes

/-- Read the arguments; the counted operations are `nOpCount` and one for each key. -/
def readMultisig (fRequireMinimal : Bool) (nOpCount : Nat) (stack : List Bytes) :
    Except EvalError MultisigArguments := do
  let (top, below) ← pop stack
  let nKeysCount := getint (← readNumber fRequireMinimal 4 top)
  demand (0 ≤ nKeysCount ∧ nKeysCount ≤ maxPubkeysPerMultisig) .pubkeyCount
  let keys := nKeysCount.toNat
  demand (nOpCount + keys ≤ maxOpsPerScript) .opCount
  let (top, rest) ← pop (below.drop keys)
  let nSigsCount := getint (← readNumber fRequireMinimal 4 top)
  demand (0 ≤ nSigsCount ∧ nSigsCount ≤ nKeysCount) .sigCount
  let sigs := nSigsCount.toNat
  demand (sigs + 1 ≤ rest.length) .invalidStackOperation
  return ⟨below.take keys, rest.take sigs, rest.drop sigs⟩

/-- The loop over the keys: a signature that a key does not match is tried with the next
one, as long as there are enough keys for the signatures. -/
def matchSignatures {α : Type} (check : α → Bytes → Bytes → EStateM EvalError σ (Bool × α)) :
    α → (sigs keys : List Bytes) → EStateM EvalError σ (Bool × α)
  | execdata, [], _ => return (true, execdata)
  | execdata, _ :: _, [] => return (false, execdata)
  | execdata, vchSig :: sigs, vchPubKey :: keys => do
      let (fOk, execdata) ← check execdata vchSig vchPubKey
      let sigs := if fOk then sigs else vchSig :: sigs
      if keys.length < sigs.length then return (false, execdata)
      else matchSignatures check execdata sigs keys

/-- Push the result of a check, or fail where the operation verifies it. -/
def pushResult (verifies fSuccess : Bool) (error : EvalError) (stack : List Bytes) :
    Except EvalError (List Bytes) :=
  if verifies then do
    demand fSuccess error
    .ok stack
  else .ok (boolBytes fSuccess :: stack)

/-- Clean up the arguments of a multisignature and push its result. -/
def finishMultisig (verifies fSuccess : Bool) (arguments : MultisigArguments) :
    Except EvalError (List Bytes) := do
  demand (hasFlag flags scriptVerifyNullfail → fSuccess ∨ ∀ sig ∈ arguments.sigs, sig = [])
    .sigNullfail
  let (dummy, stack) ← pop arguments.below
  demand (hasFlag flags scriptVerifyNulldummy → dummy = []) .sigNulldummy
  pushResult verifies fSuccess .checkmultisigverify stack

/-- Drop the signatures of a multisignature from the script code. -/
def dropSignatures (scriptCode : Bytes) : List Bytes → EStateM EvalError σ Bytes
  | [] => return scriptCode
  | vchSig :: sigs => do
      let scriptCode ← dropSignature flags sigversion scriptCode vchSig
      dropSignatures scriptCode sigs

/-- `OP_CHECKMULTISIG`. -/
def evalCheckmultisig (verifies : Bool) (m : Machine C) : EStateM EvalError σ (Machine C) := do
  require (!sigversion.isTapscript) .tapscriptCheckmultisig
  let arguments ←
    ofExcept (readMultisig (hasFlag flags scriptVerifyMinimaldata) m.nOpCount m.stack)
  let scriptCode ← dropSignatures flags sigversion m.pbegincodehash arguments.sigs
  let (fSuccess, _) ← matchSignatures
    (fun execdata vchSig vchPubKey => do
      let fOk ←
        checkEncodedSignature crypto checker flags sigversion vchSig vchPubKey scriptCode
      return (fOk, execdata)) () arguments.sigs arguments.keys
  let stack ← ofExcept (finishMultisig flags verifies fSuccess arguments)
  return { m with stack := stack, nOpCount := m.nOpCount + arguments.keys.length }

/-- `OP_CHECKMULTISIGDILITHIUM`. -/
def evalCheckmultisigDilithium (verifies : Bool) (m : Machine C) :
    EStateM EvalError σ (Machine C) := do
  requireDilithium flags sigversion
  let arguments ←
    ofExcept (readMultisig (hasFlag flags scriptVerifyMinimaldata) m.nOpCount m.stack)
  let (fSuccess, execdata) ← matchSignatures
    (fun execdata vchSig vchPubKey =>
      evalChecksigDilithium checker sigversion vchSig vchPubKey m.pbegincodehash execdata)
    m.execdata arguments.sigs arguments.keys
  let stack ← ofExcept (finishMultisig flags verifies fSuccess arguments)
  return { m with
    stack := stack, nOpCount := m.nOpCount + arguments.keys.length, execdata := execdata }

/-! ## Operations -/

/-- `OP_CHECKLOCKTIMEVERIFY`. -/
def evalChecklocktimeverify (m : Machine C) : EStateM EvalError σ (Machine C) :=
  if !hasFlag flags scriptVerifyChecklocktimeverify then return m
  else do
    let (top, _) ← ofExcept (pop m.stack)
    let nLockTime ← ofExcept (readNumber (hasFlag flags scriptVerifyMinimaldata) 5 top)
    require (0 ≤ nLockTime) .negativeLocktime
    require (checker.checkLockTime nLockTime) .unsatisfiedLocktime
    return m

/-- `OP_CHECKSEQUENCEVERIFY`, for which the disable flag is bit 31. -/
def evalChecksequenceverify (m : Machine C) : EStateM EvalError σ (Machine C) :=
  if !hasFlag flags scriptVerifyChecksequenceverify then return m
  else do
    let (top, _) ← ofExcept (pop m.stack)
    let nSequence ← ofExcept (readNumber (hasFlag flags scriptVerifyMinimaldata) 5 top)
    require (0 ≤ nSequence) .negativeLocktime
    if nSequence.toNat.testBit 31 then return m
    else
      require (checker.checkSequence nSequence) .unsatisfiedLocktime
      return m

/-- The argument of a conditional is exactly a truth value. -/
def IsMinimalIf (vch : Bytes) : Prop := vch = [] ∨ vch = [1]

instance (vch : Bytes) : Decidable (IsMinimalIf vch) := inferInstanceAs (Decidable (_ ∨ _))

/-- `OP_CHECKSIG`. -/
def evalChecksigOp (verifies : Bool) (m : Machine C) : EStateM EvalError σ (Machine C) := do
  let (vchPubKey, below) ← ofExcept (pop m.stack)
  let (vchSig, below) ← ofExcept (pop below)
  let (fSuccess, execdata) ←
    evalChecksig crypto checker flags sigversion vchSig vchPubKey m.pbegincodehash m.execdata
  let stack ← ofExcept (pushResult verifies fSuccess .checksigverify below)
  return { m with stack := stack, execdata := execdata }

/-- `OP_CHECKSIGADD`. -/
def evalChecksigadd (m : Machine C) : EStateM EvalError σ (Machine C) := do
  require sigversion.isTapscript .badOpcode
  let (pubkey, below) ← ofExcept (pop m.stack)
  let (top, below) ← ofExcept (pop below)
  let (sig, below) ← ofExcept (pop below)
  let num ← ofExcept (readNumber (hasFlag flags scriptVerifyMinimaldata) 4 top)
  let (success, execdata) ←
    evalChecksig crypto checker flags sigversion sig pubkey m.pbegincodehash m.execdata
  return { m with
    stack := CScriptNum.serialize (num + boolNumber success) :: below, execdata := execdata }

/-- `OP_CHECKSIGDILITHIUM`. -/
def evalChecksigDilithiumOp (verifies : Bool) (m : Machine C) :
    EStateM EvalError σ (Machine C) := do
  requireDilithium flags sigversion
  let (vchPubKey, below) ← ofExcept (pop m.stack)
  let (vchSig, below) ← ofExcept (pop below)
  let (fSuccess, execdata) ←
    evalChecksigDilithium checker sigversion vchSig vchPubKey m.pbegincodehash m.execdata
  require (hasFlag flags scriptVerifyNullfail → fSuccess ∨ vchSig = []) .sigNullfail
  let stack ← ofExcept (pushResult verifies fSuccess .checksigverify below)
  return { m with stack := stack, execdata := execdata }

/-- `OP_DILITHIUM_PUBKEY`. -/
def evalDilithiumPubkey (m : Machine C) : EStateM EvalError σ (Machine C) := do
  requireDilithium flags sigversion
  let (vchPubKey, below) ← ofExcept (pop m.stack)
  return { m with stack := boolBytes (isValidDilithiumPubKey vchPubKey) :: below }

variable [Conditions C]

/-- `OP_IF` and `OP_NOTIF`. -/
def evalIf (notif : Bool) (m : Machine C) : EStateM EvalError σ (Machine C) :=
  if Conditions.allTrue m.vfExec then
    match m.stack with
    | [] => throw .unbalancedConditional
    | vch :: below => do
        require (sigversion.isTapscript → IsMinimalIf vch) .tapscriptMinimalif
        require (sigversion = .witnessV0 → hasFlag flags scriptVerifyMinimalif → IsMinimalIf vch)
          .minimalif
        let fValue := castToBool vch
        return { m with
          stack := below
          vfExec := Conditions.pushBack m.vfExec (if notif then !fValue else fValue) }
  else return { m with vfExec := Conditions.pushBack m.vfExec false }

/-- The `switch`, with what follows the opcode in the script. -/
def evalOpcode (opcode : Opcode) (pc : Bytes) (m : Machine C) : EStateM EvalError σ (Machine C) :=
  match opcode with
  | .pushNumber n => return { m with stack := CScriptNum.serialize n :: m.stack }
  | .nop => return m
  | .checklocktimeverify => evalChecklocktimeverify checker flags m
  | .checksequenceverify => evalChecksequenceverify checker flags m
  | .upgradableNop => do
      require (!hasFlag flags scriptVerifyDiscourageUpgradableNops) .discourageUpgradableNops
      return m
  | .opIf notif => evalIf flags sigversion notif m
  | .opElse => do
      require (!Conditions.empty m.vfExec) .unbalancedConditional
      return { m with vfExec := Conditions.toggleTop m.vfExec }
  | .endif => do
      require (!Conditions.empty m.vfExec) .unbalancedConditional
      return { m with vfExec := Conditions.popBack m.vfExec }
  | .stack op => do
      let (stack, altstack) ← ofExcept (op.eval m.stack m.altstack)
      return { m with stack := stack, altstack := altstack }
  | .numeric op => do
      let stack ← ofExcept (op.eval (hasFlag flags scriptVerifyMinimaldata) m.stack)
      return { m with stack := stack }
  | .hash op => do
      let (vch, below) ← ofExcept (pop m.stack)
      return { m with stack := op.eval crypto vch :: below }
  | .codeseparator => return { m with
      pbegincodehash := pc
      execdata := { m.execdata with codeseparatorPos := some m.opcodePos } }
  | .checksig verifies => evalChecksigOp crypto checker flags sigversion verifies m
  | .checksigadd => evalChecksigadd crypto checker flags sigversion m
  | .checkmultisig verifies => evalCheckmultisig crypto checker flags sigversion verifies m
  | .checksigdilithium verifies => evalChecksigDilithiumOp checker flags sigversion verifies m
  | .checkmultisigdilithium verifies =>
      evalCheckmultisigDilithium checker flags sigversion verifies m
  | .dilithiumPubkey => evalDilithiumPubkey flags sigversion m
  | .bad => throw .badOpcode

/-- The operation that is counted against the limit of scripts before tapscript. -/
def countOperation (opcode : UInt8) (m : Machine C) : EStateM EvalError σ (Machine C) :=
  if !sigversion.isTapscript ∧ op16 < opcode then do
    require (m.nOpCount + 1 ≤ maxOpsPerScript) .opCount
    return { m with nOpCount := m.nOpCount + 1 }
  else return m

/-- What an instruction does to the stacks and the conditions. -/
def evalOperation (opcode : UInt8) (vchPushValue pc : Bytes) (m : Machine C) :
    EStateM EvalError σ (Machine C) :=
  let fExec := Conditions.allTrue m.vfExec
  if fExec ∧ opcode ≤ opPushdata4 then do
    require (hasFlag flags scriptVerifyMinimaldata → checkMinimalPush vchPushValue opcode)
      .minimaldata
    return { m with stack := vchPushValue :: m.stack }
  else if fExec ∨ (opIf ≤ opcode ∧ opcode ≤ opEndif) then
    evalOpcode crypto checker flags sigversion (.ofByte opcode) pc m
  else return m

/-- The body of the loop of `EvalScript`, behind `GetOp`. -/
def evalInstruction (opcode : UInt8) (vchPushValue pc : Bytes) (m : Machine C) :
    EStateM EvalError σ (Machine C) := do
  require (vchPushValue.length ≤ maxScriptElementSize) .pushSize
  let m ← countOperation sigversion opcode m
  require (!isDisabled opcode) .disabledOpcode
  require (opcode = opCodeseparator → sigversion = .base →
    !hasFlag flags scriptVerifyConstScriptcode) .opCodeseparator
  let m ← evalOperation crypto checker flags sigversion opcode vchPushValue pc m
  require (m.stack.length + m.altstack.length ≤ maxStackSize) .stackSize
  return { m with opcodePos := m.opcodePos + 1 }

/-- The loop of `EvalScript`, from `pc` on. -/
def evalLoop (pc : Bytes) (m : Machine C) : EStateM EvalError σ (Machine C) :=
  match _found : getScriptOp pc with
  | none => do
      require (pc = []) .badOpcode
      return m
  | some (opcode, vchPushValue, pc) => do
      let m ← evalInstruction crypto checker flags sigversion opcode vchPushValue pc m
      evalLoop pc m
termination_by pc.length
decreasing_by exact getScriptOp_shorter ‹_›

theorem evalLoop_of_none {pc : Bytes} (ended : getScriptOp pc = none) (m : Machine C) :
    evalLoop crypto checker flags sigversion pc m =
      require (pc = []) .badOpcode >>= fun _ => pure m := by
  rw [evalLoop]
  split
  · rfl
  · rename_i found
    rw [ended] at found
    cases found

theorem evalLoop_of_some {pc vchPushValue rest : Bytes} {opcode : UInt8}
    (found : getScriptOp pc = some (opcode, vchPushValue, rest)) (m : Machine C) :
    evalLoop crypto checker flags sigversion pc m =
      evalInstruction crypto checker flags sigversion opcode vchPushValue rest m >>=
        evalLoop crypto checker flags sigversion rest := by
  rw [evalLoop]
  split
  · rename_i ended
    rw [ended] at found
    cases found
  · rename_i found'
    rw [found'] at found
    cases found
    rfl

/-- Induction on the operations of a script, up to the first that does not parse. -/
theorem script_induction {motive : Bytes → Prop}
    (ends : ∀ pc, getScriptOp pc = none → motive pc)
    (operation : ∀ pc opcode vchPushValue rest,
      getScriptOp pc = some (opcode, vchPushValue, rest) → motive rest → motive pc)
    (script : Bytes) : motive script := by
  induction script using (measure List.length).wf.induction with
  | _ pc ih =>
      cases found : getScriptOp pc with
      | none => exact ends pc found
      | some read =>
          obtain ⟨opcode, vchPushValue, rest⟩ := read
          exact operation pc opcode vchPushValue rest found (ih rest (getScriptOp_shorter found))

/-- The local variables at the start of `EvalScript`. -/
def Machine.start (stack : List Bytes) (script : Bytes) (execdata : ScriptExecutionData) :
    Machine C where
  stack := stack
  altstack := []
  vfExec := Conditions.new
  nOpCount := 0
  opcodePos := 0
  pbegincodehash := script
  execdata := { execdata with codeseparatorPos := some 0xffffffff }

/-- `EvalScript`: the stack it leaves. -/
def evalScriptWith (C : Type) [Conditions C] (stack : List Bytes) (script : Bytes)
    (execdata : ScriptExecutionData) : EStateM EvalError σ (List Bytes) := do
  require (sigversion ≠ .taproot) .aborted
  require (!sigversion.isTapscript → script.length ≤ maxScriptSize) .scriptSize
  let m ← evalLoop crypto checker flags sigversion script
    (Machine.start stack script execdata : Machine C)
  require (Conditions.empty m.vfExec) .unbalancedConditional
  return m.stack

/-- `EvalScript`. -/
def evalScript : (stack : List Bytes) → (script : Bytes) → ScriptExecutionData →
    EStateM EvalError σ (List Bytes) :=
  evalScriptWith crypto checker flags sigversion ConditionStack

/-! ## What an instruction has done -/

/-- The machine behind `countOperation`. -/
def Machine.counted (m : Machine C) (opcode : UInt8) : Machine C :=
  if !sigversion.isTapscript ∧ op16 < opcode then { m with nOpCount := m.nOpCount + 1 } else m

variable {crypto checker flags sigversion}

omit [Conditions C] in
theorem countOperation_eq_ok {opcode : UInt8} {m m' : Machine C} {state after : σ} :
    countOperation sigversion opcode m state = .ok m' after ↔
      (!sigversion.isTapscript ∧ op16 < opcode → m.nOpCount + 1 ≤ maxOpsPerScript) ∧
        m.counted sigversion opcode = m' ∧ state = after := by
  rw [countOperation, Machine.counted]
  split_ifs with counts
  · rw [require_bind_eq_ok, pure_eq_ok, forall_prop_of_true counts]
  · rw [pure_eq_ok]
    exact ⟨fun same => ⟨fun counted => absurd counted counts, same⟩, And.right⟩

/-- The inversion lemma of the loop's body. -/
theorem evalInstruction_eq_ok {opcode : UInt8} {vchPushValue pc : Bytes} {m m' : Machine C}
    {state after : σ} :
    evalInstruction crypto checker flags sigversion opcode vchPushValue pc m state =
        .ok m' after ↔
      vchPushValue.length ≤ maxScriptElementSize ∧
      (!sigversion.isTapscript ∧ op16 < opcode → m.nOpCount + 1 ≤ maxOpsPerScript) ∧
      isDisabled opcode = false ∧
      (opcode = opCodeseparator → sigversion = .base →
        hasFlag flags scriptVerifyConstScriptcode = false) ∧
      ∃ final, evalOperation crypto checker flags sigversion opcode vchPushValue pc
          (m.counted sigversion opcode) state = .ok final after ∧
        final.stack.length + final.altstack.length ≤ maxStackSize ∧
        m' = { final with opcodePos := final.opcodePos + 1 } := by
  simp only [evalInstruction, bind_eq_ok, require_eq_ok, countOperation_eq_ok, pure_eq_ok,
    Bool.not_eq_true']
  constructor
  · rintro ⟨_, _, ⟨sized, rfl⟩, _, _, ⟨count, rfl, rfl⟩, _, _, ⟨enabled, rfl⟩, _, _,
      ⟨separator, rfl⟩, final, _, ran, _, _, ⟨bounded, rfl⟩, rfl, rfl⟩
    exact ⟨sized, count, enabled, separator, final, ran, bounded, rfl⟩
  · rintro ⟨sized, count, enabled, separator, final, ran, bounded, rfl⟩
    exact ⟨(), _, ⟨sized, rfl⟩, _, _, ⟨count, rfl, rfl⟩, (), _, ⟨enabled, rfl⟩, (), _,
      ⟨separator, rfl⟩, final, _, ran, (), _, ⟨bounded, rfl⟩, rfl, rfl⟩

end Interpreter

end QuantyCoin
