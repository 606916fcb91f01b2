import QuantyCoin.ScriptVerifier

/-!
# The checker of a transaction's input

`PrecomputedTransactionData`, `SignatureHashSchnorr` and
`GenericTransactionSignatureChecker` of `script/interpreter.cpp`.  The state behind the
methods of the checker is its cache of signature hashes; a checker without the cache is
one whose state is `none`.
-/

namespace QuantyCoin

open ByteDecoder StateTriples

/-! ## The data of a transaction -/

/-- `PrecomputedTransactionData`, with the fields for Taproot. -/
structure TaprootTransactionData extends PrecomputedTransactionData where
  prevoutsSingleHash : Uint256
  sequencesSingleHash : Uint256
  outputsSingleHash : Uint256
  spentAmountsSingleHash : Uint256
  spentScriptsSingleHash : Uint256
  bip341TaprootReady : Bool
  spentOutputs : List CTxOut

/-- `m_spent_outputs_ready`. -/
def TaprootTransactionData.spentOutputsReady (data : TaprootTransactionData) : Bool :=
  !data.spentOutputs.isEmpty

section Hashing

variable (sha256 : Bytes → Uint256)

def getSpentAmountsSHA256 (outputsSpent : List CTxOut) : Uint256 :=
  sha256 (outputsSpent.flatMap fun txout => serializeI64 txout.nValue)

def getSpentScriptsSHA256 (outputsSpent : List CTxOut) : Uint256 :=
  sha256 (outputsSpent.flatMap fun txout => encodeBytes txout.scriptPubKey)

/-- The loop of `Init`, for `uses_bip341_taproot` behind it. -/
def usesBip341Taproot (force : Bool) (vin : List CTxIn) (spentOutputs : List CTxOut) : Bool :=
  force || (List.range vin.length).any fun inpos =>
    vin[inpos]?.any (fun txin => !txin.scriptWitness.isEmpty) &&
      spentOutputs[inpos]?.any looksLikeTaproot

/-- `PrecomputedTransactionData::Init` on fresh data. -/
def TaprootTransactionData.init (txTo : CTransaction) (spentOutputs : List CTxOut)
    (force : Bool) : Option TaprootTransactionData := do
  let bip143 ← PrecomputedTransactionData.init sha256 txTo spentOutputs force
  let bip341 := usesBip341Taproot force txTo.vin spentOutputs
  let shared := usesBip143Segwit force txTo.vin spentOutputs || bip341
  let ready := bip341 && !spentOutputs.isEmpty
  some { bip143 with
    prevoutsSingleHash := if shared then getPrevoutsSHA256 sha256 txTo else .null
    sequencesSingleHash := if shared then getSequencesSHA256 sha256 txTo else .null
    outputsSingleHash := if shared then getOutputsSHA256 sha256 txTo else .null
    spentAmountsSingleHash := if ready then getSpentAmountsSHA256 sha256 spentOutputs else .null
    spentScriptsSingleHash := if ready then getSpentScriptsSHA256 sha256 spentOutputs else .null
    bip341TaprootReady := ready
    spentOutputs := spentOutputs }

end Hashing

/-! ## `SignatureHashSchnorr` -/

/-- What a checker does without the data of its transaction. -/
inductive MissingDataBehavior
  | assertFail
  | fail
  deriving DecidableEq

/-- `HandleMissingData`, where the result is false unless the assertion fails. -/
def handleMissingData {α : Type} (mdb : MissingDataBehavior) (result : α) : Except EvalError α :=
  match mdb with
  | .assertFail => .error .aborted
  | .fail => .ok result

theorem handleMissingData_eq_ok {α : Type} {mdb : MissingDataBehavior} {result value : α}
    (handled : handleMissingData mdb result = .ok value) : result = value := by
  cases mdb with
  | assertFail => cases handled
  | fail => exact Except.ok.inj handled

/-- The hash types of Schnorr signatures. -/
def isSchnorrHashType (hashType : UInt8) : Bool :=
  hashType ≤ 3 || (0x81 ≤ hashType && hashType ≤ 0x83)

/-- `output_type`. -/
def schnorrOutputType (hashType : UInt8) : UInt8 := if hashType = 0 then 1 else hashType &&& 3

/-- `input_type` is `SIGHASH_ANYONECANPAY`. -/
def schnorrAnyoneCanPay (hashType : UInt8) : Bool := hashType &&& 0x80 = 0x80

/-- What is written of the input. -/
def writeSchnorrInput (txTo : CTransaction) (inPos : UInt32) (hashType : UInt8)
    (cache : TaprootTransactionData) : Option Bytes :=
  if schnorrAnyoneCanPay hashType then do
    let txin ← txTo.vin[inPos.toNat]?
    let spent ← cache.spentOutputs[inPos.toNat]?
    some (txin.prevout.serialize ++ spent.serialize ++ packU32 txin.nSequence)
  else some (packU32 inPos)

/-- What is written of a leaf script: its hash, the version of the key and the position of
the last `OP_CODESEPARATOR`. -/
def writeLeaf (sigversion : SigVersion) (execdata : ScriptExecutionData) : Option Bytes :=
  if sigversion.isTapscript then do
    let tapleafHash ← execdata.tapleafHash
    let codeseparatorPos ← execdata.codeseparatorPos
    some (tapleafHash.bytes ++ [0] ++ packU32 codeseparatorPos)
  else some []

/-- The hashes and the checks of signatures; the parsers of keys and signatures behind the
checks are outside of the interpreter. -/
structure TransactionCrypto extends ScriptCrypto where
  hasherTapsighash : Bytes → Uint256
  checkTapTweak : (q p : Bytes) → (merkleRoot : Uint256) → (parity : UInt8) → Bool
  /-- `CPubKey::Verify` of a key with a valid size. -/
  verifyEcdsa : (pubkey : Bytes) → (sighash : Uint256) → (vchSig : Bytes) → Bool
  verifySchnorr : (pubkey : Bytes) → (sighash : Uint256) → (sig : Bytes) → Bool
  /-- `qty_dilithium_verify`. -/
  verifyDilithium : (pubkey : Bytes) → (sighash : Uint256) → (vchSig : Bytes) → Bool

section Schnorr

variable (crypto : TransactionCrypto) (txTo : CTransaction) (inPos : UInt32)

/-- The hash of the only output that is signed, if one is and it exists; the execution data
remembers it. -/
def hashSingleOutput (hashType : UInt8) (execdata : ScriptExecutionData) :
    Option Uint256 × ScriptExecutionData :=
  if schnorrOutputType hashType = 3 then
    match txTo.vout[inPos.toNat]? with
    | none => (none, execdata)
    | some out =>
        let hash := execdata.outputHash.getD (crypto.sha256 out.serialize)
        (some hash, { execdata with outputHash := some hash })
  else (none, execdata)

/-- `SignatureHashSchnorr` behind its checks, for a transaction with the output that is
signed alone, if one is. -/
def tapsighash (hashType : UInt8) (sigversion : SigVersion) (cache : TaprootTransactionData)
    (annexHash : Option Uint256) (single : Option Uint256) (input leaf : Bytes) : Uint256 :=
  let extFlag : UInt8 := if sigversion.isTapscript then 1 else 0
  let spendType := (extFlag <<< 1) + if annexHash.isSome then 1 else 0
  crypto.hasherTapsighash
    ([0, hashType] ++ packI32 txTo.nVersion ++ packU32 txTo.nLockTime ++
      (if schnorrAnyoneCanPay hashType then []
        else cache.prevoutsSingleHash.bytes ++ cache.spentAmountsSingleHash.bytes ++
          cache.spentScriptsSingleHash.bytes ++ cache.sequencesSingleHash.bytes) ++
      (if schnorrOutputType hashType = 1 then cache.outputsSingleHash.bytes else []) ++
      [spendType] ++ input ++ (annexHash.elim [] Uint256.bytes) ++
      (single.elim [] Uint256.bytes) ++ leaf)

/-- `SignatureHashSchnorr`: the hash, if there is one, and the execution data. -/
def signatureHashSchnorr (hashType : UInt8) (sigversion : SigVersion)
    (cache : TaprootTransactionData) (mdb : MissingDataBehavior)
    (execdata : ScriptExecutionData) : Except EvalError (Option Uint256 × ScriptExecutionData) := do
  demand (sigversion = .taproot ∨ sigversion.isTapscript) .aborted
  demand (inPos.toNat < txTo.vin.length) .aborted
  if !(cache.bip341TaprootReady && cache.spentOutputsReady) then
    handleMissingData mdb (none, execdata)
  else if !isSchnorrHashType hashType then return (none, execdata)
  else
    match execdata.annexHash, writeSchnorrInput txTo inPos hashType cache with
    | some annexHash, some input =>
        let (single, execdata) := hashSingleOutput crypto txTo inPos hashType execdata
        if schnorrOutputType hashType = 3 ∧ single = none then return (none, execdata)
        else
          match writeLeaf sigversion execdata with
          | none => .error .aborted
          | some leaf =>
              .ok (some (tapsighash crypto txTo hashType sigversion cache annexHash single input
                leaf), execdata)
    | _, _ => .error .aborted

end Schnorr

/-! ## The checker -/

def locktimeThreshold : Nat := 500000000
def sequenceFinal : UInt32 := 0xffffffff
def sequenceLocktimeTypeFlag : Nat := 1 <<< 22
def sequenceLocktimeMask : Nat := 0x0000ffff

/-- `GenericTransactionSignatureChecker`, for an input of the transaction. -/
structure TransactionSignatureChecker where
  txTo : CTransaction
  nIn : UInt32
  amount : Int64
  txdata : Option TaprootTransactionData
  mdb : MissingDataBehavior
  nIn_lt : nIn.toNat < txTo.vin.length

namespace TransactionSignatureChecker

variable (crypto : TransactionCrypto) (checker : TransactionSignatureChecker)

/-- `SignatureHash`, with the cache of the checker. -/
def signatureHash (scriptCode : Bytes) (nHashType : UInt8) (sigversion : SigVersion) :
    EStateM EvalError (Option SigHashCache) Uint256 :=
  updating fun sighashCache =>
    match QuantyCoin.signatureHash crypto.sha256 scriptCode checker.txTo checker.nIn
        (Int32.ofNat nHashType.toNat) checker.amount sigversion
        (checker.txdata.map TaprootTransactionData.toPrecomputedTransactionData) sighashCache with
    | none => .error .aborted
    | some returned => .ok returned

/-- `CheckECDSASignature`. -/
def checkECDSASignature (vchSigIn vchPubKey scriptCode : Bytes) (sigversion : SigVersion) :
    EStateM EvalError (Option SigHashCache) Bool :=
  if !validSize vchPubKey then return false
  else
    match vchSigIn.getLast? with
    | none => return false
    | some nHashType =>
        if sigversion = .witnessV0 ∧ checker.amount < 0 then
          ofExcept (handleMissingData checker.mdb false)
        else do
          let sighash ← checker.signatureHash crypto scriptCode nHashType sigversion
          return crypto.verifyEcdsa vchPubKey sighash vchSigIn.dropLast

/-- `CheckSchnorrSignature`. -/
def checkSchnorrSignature (sig pubkey : Bytes) (sigversion : SigVersion)
    (execdata : ScriptExecutionData) : Except EvalError ScriptExecutionData := do
  demand (sigversion = .taproot ∨ sigversion.isTapscript) .aborted
  demand (pubkey.length = 32) .aborted
  demand (sig.length = 64 ∨ sig.length = 65) (.witness (.schnorr .sigSize))
  let hashtype := if sig.length = 65 then sig.getLastD 0 else 0
  demand (sig.length = 65 → hashtype ≠ 0) (.witness (.schnorr .sigHashtype))
  match checker.txdata with
  | none => handleMissingData checker.mdb () >>= fun _ => .error .unknownError
  | some cache => do
      let (sighash, execdata) ← signatureHashSchnorr crypto checker.txTo checker.nIn hashtype
        sigversion cache checker.mdb execdata
      match sighash with
      | none => .error (.witness (.schnorr .sigHashtype))
      | some sighash => do
          demand (crypto.verifySchnorr pubkey sighash (sig.take 64)) (.witness (.schnorr .sig))
          return execdata

/-- The hash that a signature of Dilithium signs, if there is one. -/
def dilithiumSighash (scriptCode : Bytes) (nHashType : UInt8) (sigversion : SigVersion)
    (execdata : ScriptExecutionData) :
    EStateM EvalError (Option SigHashCache) (Option Uint256 × ScriptExecutionData) :=
  if sigversion = .p2mrTapscript then
    if nHashType = 0 then return (none, execdata)
    else
      match checker.txdata with
      | none => ofExcept (handleMissingData checker.mdb (none, execdata))
      | some cache =>
          ofExcept (signatureHashSchnorr crypto checker.txTo checker.nIn nHashType sigversion cache
            checker.mdb execdata)
  else do
    let sighash ← checker.signatureHash crypto scriptCode nHashType sigversion
    return (some sighash, execdata)

/-- `CheckDilithiumSignature`. -/
def checkDilithiumSignature (vchSigIn vchPubKey scriptCode : Bytes) (sigversion : SigVersion)
    (execdata : ScriptExecutionData) :
    EStateM EvalError (Option SigHashCache) (Bool × ScriptExecutionData) :=
  if ¬ (vchPubKey.length = dilithiumPubKeySize ∧ vchPubKey.any (· ≠ 0)) then
    return (false, execdata)
  else
    match vchSigIn.getLast? with
    | none => return (false, execdata)
    | some nHashType =>
        if sigversion = .witnessV0 ∧ checker.amount < 0 then
          ofExcept (handleMissingData checker.mdb (false, execdata))
        else do
          let (sighash, execdata) ←
            checker.dilithiumSighash crypto scriptCode nHashType sigversion execdata
          match sighash with
          | none => return (false, execdata)
          | some sighash =>
              let vchSig := vchSigIn.dropLast
              return (vchSig ≠ [] && crypto.verifyDilithium vchPubKey sighash vchSig, execdata)

/-- `CheckLockTime`. -/
def checkLockTime (nLockTime : Int) : Bool :=
  let txLockTime := checker.txTo.nLockTime.toNat
  ((txLockTime < locktimeThreshold && nLockTime < locktimeThreshold) ||
      (locktimeThreshold ≤ txLockTime && locktimeThreshold ≤ nLockTime)) &&
    nLockTime ≤ txLockTime &&
    (checker.txTo.vin.get ⟨checker.nIn.toNat, checker.nIn_lt⟩).nSequence ≠ sequenceFinal

/-- `CheckSequence`, of a number that is not negative. -/
def checkSequence (nSequence : Int) : Bool :=
  let txToSequence :=
    (checker.txTo.vin.get ⟨checker.nIn.toNat, checker.nIn_lt⟩).nSequence.toNat
  let nLockTimeMask := sequenceLocktimeTypeFlag ||| sequenceLocktimeMask
  let txToSequenceMasked := txToSequence &&& nLockTimeMask
  let nSequenceMasked := nSequence.toNat &&& nLockTimeMask
  2 ≤ checker.txTo.nVersion.toUInt32 && !txToSequence.testBit 31 &&
    ((txToSequenceMasked < sequenceLocktimeTypeFlag &&
        nSequenceMasked < sequenceLocktimeTypeFlag) ||
      (sequenceLocktimeTypeFlag ≤ txToSequenceMasked &&
        sequenceLocktimeTypeFlag ≤ nSequenceMasked)) &&
    nSequenceMasked ≤ txToSequenceMasked

/-- The check for the key path of Taproot.  Where an assertion fails, the check does. -/
def checkKeyPath (sig program : Bytes) (annexHash : Option Uint256) : Option SchnorrError :=
  let execdata := { ScriptExecutionData.new with annexHash := some annexHash }
  match checker.checkSchnorrSignature crypto sig program .taproot execdata with
  | .ok _ => none
  | .error (.witness (.schnorr error)) => some error
  | .error _ => some .sigHashtype

/-- The checker as the interpreter sees it. -/
def toSignatureChecker : SignatureChecker (Option SigHashCache) where
  taproot := ⟨crypto.checkTapTweak, checker.checkKeyPath crypto⟩
  checkECDSASignature := checker.checkECDSASignature crypto
  checkSchnorrSignature sig pubkey sigversion execdata :=
    ofExcept (checker.checkSchnorrSignature crypto sig pubkey sigversion execdata)
  checkDilithiumSignature := checker.checkDilithiumSignature crypto
  checkLockTime := checker.checkLockTime
  checkSequence := checker.checkSequence

end TransactionSignatureChecker

end QuantyCoin
