import QuantyCoin.SuccessOrder
import QuantyCoin.WitnessSigOps

/-!
# Encodings of signatures and keys

The checks that `script/interpreter.cpp` makes of the signatures and keys on the stack
before it hands them to the signature checker, and `FindAndDelete`.
-/

namespace QuantyCoin

open ByteDecoder StateTriples

/-! ## Flags and errors -/

def scriptVerifyP2sh : UInt32 := (1 : UInt32) <<< 0
def scriptVerifyStrictenc : UInt32 := (1 : UInt32) <<< 1
def scriptVerifyDersig : UInt32 := (1 : UInt32) <<< 2
def scriptVerifyLowS : UInt32 := (1 : UInt32) <<< 3
def scriptVerifyNulldummy : UInt32 := (1 : UInt32) <<< 4
def scriptVerifySigpushonly : UInt32 := (1 : UInt32) <<< 5
def scriptVerifyMinimaldata : UInt32 := (1 : UInt32) <<< 6
def scriptVerifyDiscourageUpgradableNops : UInt32 := (1 : UInt32) <<< 7
def scriptVerifyCleanstack : UInt32 := (1 : UInt32) <<< 8
def scriptVerifyChecklocktimeverify : UInt32 := (1 : UInt32) <<< 9
def scriptVerifyChecksequenceverify : UInt32 := (1 : UInt32) <<< 10
def scriptVerifyWitness : UInt32 := (1 : UInt32) <<< 11
def scriptVerifyMinimalif : UInt32 := (1 : UInt32) <<< 13
def scriptVerifyNullfail : UInt32 := (1 : UInt32) <<< 14
def scriptVerifyConstScriptcode : UInt32 := (1 : UInt32) <<< 16
def scriptVerifyDiscourageOpSuccess : UInt32 := (1 : UInt32) <<< 19
def scriptVerifyDiscourageUpgradablePubkeytype : UInt32 := (1 : UInt32) <<< 20

/-- The script errors of the interpreter. -/
inductive EvalError
  | unknownError
  | evalFalse
  | opReturn
  | scriptSize
  | pushSize
  | opCount
  | stackSize
  | sigCount
  | pubkeyCount
  | verify
  | equalverify
  | checkmultisigverify
  | checksigverify
  | numequalverify
  | badOpcode
  | disabledOpcode
  | invalidStackOperation
  | invalidAltstackOperation
  | unbalancedConditional
  | negativeLocktime
  | unsatisfiedLocktime
  | sigHashtype
  | sigDer
  | minimaldata
  | sigPushonly
  | sigHighS
  | sigNulldummy
  | pubkeytype
  | cleanstack
  | minimalif
  | sigNullfail
  | discourageUpgradableNops
  | discourageOpSuccess
  | witnessMalleated
  | witnessMalleatedP2sh
  | witnessUnexpected
  | tapscriptValidationWeight
  | tapscriptCheckmultisig
  | tapscriptMinimalif
  | tapscriptDilithium
  | opCodeseparator
  | sigFindanddelete
  | witness (error : WitnessError)
  /-- An assertion fails, so that the process ends. -/
  | aborted

/-! ## Keys -/

/-- `IsCompressedOrUncompressedPubKey`. -/
def isCompressedOrUncompressedPubKey (vchPubKey : Bytes) : Bool :=
  match vchPubKey with
  | [] => false
  | header :: _ =>
      if vchPubKey.length < compressedSize then false
      else if header = 4 then vchPubKey.length = 65
      else if header = 2 ∨ header = 3 then vchPubKey.length = compressedSize
      else false

/-- `IsCompressedPubKey`. -/
def isCompressedPubKey (vchPubKey : Bytes) : Bool :=
  vchPubKey.length = compressedSize && (vchPubKey.head? = some 2 || vchPubKey.head? = some 3)

/-- `CDilithiumPubKey::IsFullyValid` of a key with the right size: neither of its parts
is zero. -/
def isFullyValid (vch : Bytes) : Bool :=
  (vch.take 32).any (· ≠ 0) && (vch.drop 32).any (· ≠ 0)

/-- `IsValidDilithiumPubKey`. -/
def isValidDilithiumPubKey (vchPubKey : Bytes) : Bool :=
  vchPubKey.length = dilithiumPubKeySize && isFullyValid vchPubKey

/-- `CheckPubKeyEncoding`. -/
def checkPubKeyEncoding (vchPubKey : Bytes) (flags : UInt32) (sigversion : SigVersion) :
    Except EvalError Unit := do
  demand (hasFlag flags scriptVerifyStrictenc → isCompressedOrUncompressedPubKey vchPubKey)
    .pubkeytype
  demand (hasFlag flags scriptVerifyWitnessPubkeytype → sigversion = .witnessV0 →
    isCompressedPubKey vchPubKey) (.witness .witnessPubkeytype)

/-! ## Signatures -/

/-- The number in a signature, by its position and length, is not empty, not negative and
not padded. -/
def isPositiveInteger (sig : Bytes) (position length : Nat) : Bool :=
  length ≠ 0 && sig.getD position 0 &&& 0x80 = 0 &&
    !(1 < length && sig.getD position 0 = 0 && sig.getD (position + 1) 0 &&& 0x80 = 0)

/-- `IsValidSignatureEncoding`. -/
def isValidSignatureEncoding (sig : Bytes) : Bool :=
  let lenR := (sig.getD 3 0).toNat
  let lenS := (sig.getD (5 + lenR) 0).toNat
  9 ≤ sig.length && sig.length ≤ 73 && sig.getD 0 0 = 0x30 &&
    (sig.getD 1 0).toNat = sig.length - 3 && 5 + lenR < sig.length &&
    lenR + lenS + 7 = sig.length && sig.getD 2 0 = 0x02 && isPositiveInteger sig 4 lenR &&
    sig.getD (lenR + 4) 0 = 0x02 && isPositiveInteger sig (lenR + 6) lenS

/-- `IsLowDERSignature`, with `CPubKey::CheckLowS` of the signature without its last byte. -/
def isLowDERSignature (checkLowS : Bytes → Bool) (vchSig : Bytes) : Except EvalError Unit := do
  demand (isValidSignatureEncoding vchSig) .sigDer
  demand (checkLowS vchSig.dropLast) .sigHighS

/-- `IsDefinedHashtypeSignature`. -/
def isDefinedHashtypeSignature (vchSig : Bytes) : Bool :=
  match vchSig.getLast? with
  | none => false
  | some hashType => 1 ≤ hashType &&& 0x7f && hashType &&& 0x7f ≤ 3

/-- `CheckSignatureEncoding`.  The bounds that it checks for `STRICTENC` are bounds of
`IsValidSignatureEncoding`. -/
def checkSignatureEncoding (checkLowS : Bytes → Bool) (vchSig : Bytes) (flags : UInt32) :
    Except EvalError Unit :=
  if vchSig = [] then .ok ()
  else do
    demand (hasFlag flags scriptVerifyDersig || hasFlag flags scriptVerifyLowS ||
      hasFlag flags scriptVerifyStrictenc → isValidSignatureEncoding vchSig) .sigDer
    if hasFlag flags scriptVerifyLowS then isLowDERSignature checkLowS vchSig
    demand (hasFlag flags scriptVerifyStrictenc → isDefinedHashtypeSignature vchSig) .sigHashtype

/-- What the flags demand of a signature that is not empty. -/
theorem checkSignatureEncoding_eq_ok {checkLowS : Bytes → Bool} {vchSig : Bytes}
    {flags : UInt32} {value : Unit} :
    checkSignatureEncoding checkLowS vchSig flags = .ok value ↔
      vchSig ≠ [] →
        (hasFlag flags scriptVerifyDersig ∨ hasFlag flags scriptVerifyLowS ∨
          hasFlag flags scriptVerifyStrictenc → isValidSignatureEncoding vchSig = true) ∧
        (hasFlag flags scriptVerifyLowS → checkLowS vchSig.dropLast = true) ∧
        (hasFlag flags scriptVerifyStrictenc → isDefinedHashtypeSignature vchSig = true) := by
  rw [checkSignatureEncoding]
  by_cases empty : vchSig = []
  · simp [empty]
  · cases hasFlag flags scriptVerifyLowS <;>
      simp [empty, isLowDERSignature, except_bind_eq_ok, demand_eq_ok]

theorem checkPubKeyEncoding_eq_ok {vchPubKey : Bytes} {flags : UInt32} {sigversion : SigVersion}
    {value : Unit} :
    checkPubKeyEncoding vchPubKey flags sigversion = .ok value ↔
      (hasFlag flags scriptVerifyStrictenc →
        isCompressedOrUncompressedPubKey vchPubKey = true) ∧
      (hasFlag flags scriptVerifyWitnessPubkeytype → sigversion = .witnessV0 →
        isCompressedPubKey vchPubKey = true) := by
  simp [checkPubKeyEncoding, except_bind_eq_ok, demand_eq_ok]

/-! ## `FindAndDelete` -/

/-- The copies of `b` at the head of a script: their number and what follows them. -/
def skipCopies (b script : Bytes) : Nat × Bytes :=
  if b ≠ [] ∧ b.isPrefixOf script then
    let (nFound, rest) := skipCopies b (script.drop b.length)
    (nFound + 1, rest)
  else (0, script)
termination_by script.length
decreasing_by
  have sized : 0 < b.length := List.length_pos_iff.mpr ‹b ≠ [] ∧ _›.1
  have inside := (List.isPrefixOf_iff_prefix.mp ‹b ≠ [] ∧ _›.2).length_le
  rw [List.length_drop]
  omega

theorem skipCopies_length_le (b script : Bytes) :
    (skipCopies b script).2.length ≤ script.length := by
  fun_induction skipCopies b script with
  | case1 script copy nFound rest rec ih =>
      rw [rec] at ih
      exact le_trans ih (by rw [List.length_drop]; exact Nat.sub_le _ _)
  | case2 script noCopy => exact Nat.le_refl _

/-- `FindAndDelete`: the script without the copies of `b` between its operations, and
their number. -/
def findAndDelete (script b : Bytes) : Bytes × Nat :=
  let pc2 := skipCopies b script
  match _found : getScriptOp pc2.2 with
  | none => (pc2.2, pc2.1)
  | some (_, _, pc) =>
      let (result, nFound) := findAndDelete pc b
      (pc2.2.take (pc2.2.length - pc.length) ++ result, pc2.1 + nFound)
termination_by script.length
decreasing_by exact lt_of_lt_of_le (getScriptOp_shorter ‹_›) (skipCopies_length_le b script)

end QuantyCoin
