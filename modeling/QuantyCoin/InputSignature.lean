import QuantyCoin.Transaction

/-!
# Authorization of transaction inputs

Signature hashes and `Transaction.verify_input_signature` from
`core/transaction.py`, with the DER decoder of `crypto/secp256k1.py` and the
length checks of `crypto/mldsa.py`.
-/

namespace QuantyCoin

open ByteDecoder

/-- `data[index]`. -/
def byteAt (data : Bytes) (index : Nat) : Except PyException Nat :=
  match data[index]? with
  | none => .error (.indexError "index out of range")
  | some byte => .ok byte.toNat

/-- `int.from_bytes(data, 'big')`. -/
def beValue (data : Bytes) : Nat := leValue data.reverse

/-- `decode_der_signature`. -/
def decodeDerSignature (der : Bytes) : Except PyException (Nat × Nat) :=
  if der.length < 8 ∨ der.head? ≠ some 0x30 then
    .error (.valueError "Invalid DER signature format")
  else do
    let totLen ← byteAt der 1
    if der.length ≠ totLen + 2 then
      .error (.valueError "DER signature length mismatch")
    else
      let rMarker ← byteAt der 2
      if rMarker ≠ 0x02 then .error (.valueError "Expected integer marker for r")
      else
        let rLen ← byteAt der 3
        let r := beValue ((der.drop 4).take rLen)
        let pos := 4 + rLen
        let sMarker ← byteAt der pos
        if sMarker ≠ 0x02 then .error (.valueError "Expected integer marker for s")
        else
          let sLen ← byteAt der (pos + 1)
          let s := beValue ((der.drop (pos + 2)).take sLen)
          .ok (r, s)

def publicKeyBytes : Nat := 1312
def signatureBytes : Nat := 2420

/-- `mldsa_verify` with the empty context. -/
def mldsaVerify (prim : Primitives) (message signature publicKey : Bytes) : Bool :=
  if publicKey.length ≠ publicKeyBytes then false
  else if signature.length ≠ signatureBytes then false
  else prim.dilithiumVerify signature message [] publicKey

inductive SignatureType
  | legacyEcdsa
  | hybrid
  | mlDsa
  deriving DecidableEq

/-- The byte a signature mode is written as. -/
def SignatureType.toByte : SignatureType → UInt8
  | .legacyEcdsa => 0
  | .hybrid => 1
  | .mlDsa => 2

/-- `b"QUANTYCOIN_QTY4_PQC_SIGHASH_V1"`. -/
def pqcDomainTag : Bytes :=
  [0x51, 0x55, 0x41, 0x4e, 0x54, 0x59, 0x43, 0x4f, 0x49, 0x4e, 0x5f, 0x51, 0x54,
    0x59, 0x34, 0x5f, 0x50, 0x51, 0x43, 0x5f, 0x53, 0x49, 0x47, 0x48, 0x41, 0x53,
    0x48, 0x5f, 0x56, 0x31]

namespace Transaction

/-- `inp.prev_txid + struct.pack('<I', inp.prev_vout)`. -/
def packOutpoint (inp : TxIn) : Bytes := inp.prevTxid ++ packU32 inp.prevVout

/-- `get_sighash`. -/
def getSighash (prim : Primitives) (tx : Transaction) (inputIndex : Nat)
    (prevScript : Bytes) (prevAmount : Nat) : Except PyException Bytes :=
  let hashPrevouts := prim.hash256 (tx.vin.flatMap packOutpoint)
  let hashSequence := prim.hash256 (tx.vin.flatMap fun inp => packU32 inp.sequence)
  let hashOutputs := prim.hash256 (tx.vout.flatMap TxOut.serialize)
  match tx.vin[inputIndex]? with
  | none => .error (.indexError "list index out of range")
  | some inp =>
      let witnessKeyHash := List.isPrefixOf [0x00, 0x14] prevScript
      if !witnessKeyHash && prevScript.length > 255 then
        .error (.valueError "bytes must be in range(0, 256)")
      else if prevAmount ≥ 2 ^ 64 then
        .error (.structError "argument out of range")
      else
        let scriptCode :=
          if witnessKeyHash then
            [0x19, 0x76, 0xa9, 0x14] ++ prevScript.drop 2 ++ [0x88, 0xac]
          else UInt8.ofNat prevScript.length :: prevScript
        .ok (prim.hash256
          (packI32 tx.version ++ hashPrevouts ++ hashSequence ++ packOutpoint inp ++
            scriptCode ++ packU64 prevAmount ++ packU32 inp.sequence ++
            hashOutputs ++ packU32 tx.locktime ++ packU32 1))

/-- `get_pqc_sighash`. -/
def getPqcSighash (prim : Primitives) (tx : Transaction) (inputIndex : Nat)
    (prevScript : Bytes) (prevAmount : Nat) (sigType : SignatureType) :
    Except PyException Bytes :=
  (tx.getSighash prim inputIndex prevScript prevAmount).map fun bip143Hash =>
    prim.sha256 (pqcDomainTag ++ [sigType.toByte] ++ bip143Hash)

/-- `len(sig) < 2 or sig[-1] != 1`, negated. -/
def hasSighashAllType (signature : Bytes) : Bool :=
  2 ≤ signature.length && signature.getLast? = some 1

/-- The classical check inside its `try` block. -/
def verifyEcdsaInput (prim : Primitives) (tx : Transaction) (inputIndex : Nat)
    (prevScript : Bytes) (prevAmount : Nat) (derSig pubkey : Bytes) : Bool :=
  match decodeDerSignature derSig with
  | .error _ => false
  | .ok (r, s) =>
      match tx.getSighash prim inputIndex prevScript prevAmount with
      | .error _ => false
      | .ok sighash => prim.ecdsaVerify sighash pubkey r s

/-- The post-quantum check inside its `try` block. -/
def verifyMldsaInput (prim : Primitives) (tx : Transaction) (inputIndex : Nat)
    (prevScript : Bytes) (prevAmount : Nat) (sigType : SignatureType)
    (signature pubkey : Bytes) : Bool :=
  match tx.getPqcSighash prim inputIndex prevScript prevAmount sigType with
  | .error _ => false
  | .ok pqcSighash => mldsaVerify prim pqcSighash signature pubkey

/-- `verify_input_signature`. -/
def verifyInputSignature (prim : Primitives) (tx : Transaction)
    (inputIndex : Nat) (prevScript : Bytes) (prevAmount : Nat) : Bool :=
  match tx.vin[inputIndex]? with
  | none => false
  | some inp =>
      -- Mode 0: P2WPKH or legacy P2PKH.
      if List.isPrefixOf [0x00, 0x14] prevScript ||
          (List.isPrefixOf [0x76, 0xa9, 0x14] prevScript &&
            List.isSuffixOf [0x88, 0xac] prevScript) then
        match inp.witness with
        | [derSigWithType, pubkey] =>
            if !hasSighashAllType derSigWithType then false
            else
              let pubHash := prim.hash160 pubkey
              if prevScript ≠ [0x00, 0x14] ++ pubHash ∧
                  prevScript ≠ [0x76, 0xa9, 0x14] ++ pubHash ++ [0x88, 0xac] then false
              else
                tx.verifyEcdsaInput prim inputIndex prevScript prevAmount
                  derSigWithType.dropLast pubkey
        | _ => false
      -- Mode 1: ML-DSA.
      else if prevScript.length = 34 ∧ prevScript.take 2 = [0x51, 0x20] then
        match inp.witness with
        | [sigWithType, pubkey] =>
            if !hasSighashAllType sigWithType then false
            else if prim.sha256 pubkey ≠ prevScript.drop 2 then false
            else
              tx.verifyMldsaInput prim inputIndex prevScript prevAmount .mlDsa
                sigWithType.dropLast pubkey
        | _ => false
      -- Mode 2: both signatures.
      else if prevScript.length = 34 ∧ prevScript.take 2 = [0x52, 0x20] then
        match inp.witness with
        | [derSigWithType, ecdsaPubkey, mldsaSigWithType, mldsaPubkey] =>
            if !hasSighashAllType derSigWithType then false
            else if !hasSighashAllType mldsaSigWithType then false
            else if prim.sha256 (ecdsaPubkey ++ mldsaPubkey) ≠ prevScript.drop 2 then false
            else if !tx.verifyEcdsaInput prim inputIndex prevScript prevAmount
                derSigWithType.dropLast ecdsaPubkey then false
            else
              tx.verifyMldsaInput prim inputIndex prevScript prevAmount .hybrid
                mldsaSigWithType.dropLast mldsaPubkey
        | _ => false
      else false

/-- No mode accepts an input without a witness. -/
theorem verifyInputSignature_of_witness_nil (prim : Primitives) {tx : Transaction}
    {inputIndex : Nat} {inp : TxIn} (found : tx.vin[inputIndex]? = some inp)
    (unsigned : inp.witness = []) (prevScript : Bytes) (prevAmount : Nat) :
    tx.verifyInputSignature prim inputIndex prevScript prevAmount = false := by
  simp only [verifyInputSignature, found, unsigned]
  split_ifs <;> rfl

end Transaction

end QuantyCoin
