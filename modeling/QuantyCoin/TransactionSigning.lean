import QuantyCoin.AuthorizingKeys
import QuantyCoin.Secp256k1
import QuantyCoin.StateTriples
import QuantyCoin.TxidCommitment

/-!
# Signing the inputs of a transaction

The three signers of `core/transaction.py` with the DER encoder of
`crypto/secp256k1.py`.  A signer writes the witness of one input, and no
signature hash covers a witness, so that inputs can be signed in any order.
-/

namespace QuantyCoin

open ByteDecoder Secp256k1
open StateTriples (except_bind_eq_ok except_map_eq_ok)

/-! ## DER signatures -/

/-- `(val.bit_length() + 7) // 8 or 1`. -/
def derWidth (value : Nat) : Nat :=
  if (bitLength value + 7) / 8 = 0 then 1 else (bitLength value + 7) / 8

/-- `raw` in `_encode_int`: the bytes of an integer, with a zero in front of a
leading byte from `0x80` on. -/
def derIntBytes (value : Nat) : Bytes :=
  let raw := toBytesBig (derWidth value) value
  if raw.head?.any (· ≥ 0x80) then 0x00 :: raw else raw

/-- `bytes([value])`. -/
def singleByte (value : Nat) : Except PyException Bytes :=
  if value < 256 then .ok [UInt8.ofNat value]
  else .error (.valueError "bytes must be in range(0, 256)")

/-- `_encode_int`. -/
def encodeDerInt (value : Nat) : Except PyException Bytes := do
  let raw := derIntBytes value
  let length ← singleByte raw.length
  .ok ([0x02] ++ length ++ raw)

/-- `encode_der_signature`. -/
def encodeDerSignature (r s : Nat) : Except PyException Bytes := do
  let rEnc ← encodeDerInt r
  let sEnc ← encodeDerInt s
  let body := rEnc ++ sEnc
  let length ← singleByte body.length
  .ok ([0x30] ++ length ++ body)

theorem leValue_append_zero (bytes : Bytes) : leValue (bytes ++ [0x00]) = leValue bytes := by
  induction bytes with
  | nil => rfl
  | cons byte bytes ih => rw [List.cons_append, leValue, leValue, ih]

theorem beValue_zero_cons (bytes : Bytes) : beValue (0x00 :: bytes) = beValue bytes := by
  rw [beValue, beValue, List.reverse_cons, leValue_append_zero]

theorem lt_pow_derWidth (value : Nat) : value < 256 ^ derWidth value := by
  have bits : value < 2 ^ bitLength value := by
    unfold bitLength
    split_ifs with zero
    · rw [zero]
      decide
    · exact Nat.lt_log2_self
  have enough : bitLength value ≤ 8 * derWidth value := by
    unfold derWidth
    split_ifs <;> omega
  calc
    value < 2 ^ bitLength value := bits
    _ ≤ 2 ^ (8 * derWidth value) := Nat.pow_le_pow_right (by decide) enough
    _ = 256 ^ derWidth value := by rw [pow_mul]; rfl

theorem beValue_derIntBytes (value : Nat) : beValue (derIntBytes value) = value := by
  simp only [derIntBytes]
  split
  · rw [beValue_zero_cons, beValue_toBytesBig (lt_pow_derWidth value)]
  · rw [beValue_toBytesBig (lt_pow_derWidth value)]

/-- Scalars of 256 bits take at most 33 bytes. -/
theorem derIntBytes_length {value : Nat} (small : value < 2 ^ 256) :
    1 ≤ (derIntBytes value).length ∧ (derIntBytes value).length ≤ 33 := by
  have width : 1 ≤ derWidth value ∧ derWidth value ≤ 32 := by
    have bits : bitLength value ≤ 256 := by
      unfold bitLength
      split_ifs with zero
      · decide
      · exact (Nat.log2_lt zero).mpr small
    unfold derWidth
    split_ifs <;> omega
  simp only [derIntBytes]
  split
  · rw [List.length_cons, toBytesBig_length]
    omega
  · rw [toBytesBig_length]
    omega

theorem singleByte_eq_ok {value : Nat} (small : value < 256) :
    singleByte value = .ok [UInt8.ofNat value] :=
  if_pos small

theorem byteAt_eq_ok {data : Bytes} {index : Nat} {byte : UInt8}
    (found : data[index]? = some byte) : byteAt data index = .ok byte.toNat := by
  rw [byteAt, found]

/-- The encoding of two integers with the given bytes. -/
def derBytes (raw raw' : Bytes) : Bytes :=
  0x30 :: UInt8.ofNat (raw.length + raw'.length + 4) :: 0x02 :: UInt8.ofNat raw.length ::
    (raw ++ 0x02 :: UInt8.ofNat raw'.length :: raw')

theorem encodeDerSignature_eq {r s : Nat} (rSmall : r < 2 ^ 256) (sSmall : s < 2 ^ 256) :
    encodeDerSignature r s = .ok (derBytes (derIntBytes r) (derIntBytes s)) := by
  have rLength := derIntBytes_length rSmall
  have sLength := derIntBytes_length sSmall
  have body : ([0x02] ++ [UInt8.ofNat (derIntBytes r).length] ++ derIntBytes r ++
      ([0x02] ++ [UInt8.ofNat (derIntBytes s).length] ++ derIntBytes s)).length =
        (derIntBytes r).length + (derIntBytes s).length + 4 := by
    simp only [List.length_append, List.length_cons, List.length_nil]
    omega
  simp only [encodeDerSignature, encodeDerInt,
    singleByte_eq_ok (by omega : (derIntBytes r).length < 256),
    singleByte_eq_ok (by omega : (derIntBytes s).length < 256), bind, Except.bind, body,
    singleByte_eq_ok (by omega : (derIntBytes r).length + (derIntBytes s).length + 4 < 256)]
  simp [derBytes]

theorem derBytes_length (raw raw' : Bytes) :
    (derBytes raw raw').length = raw.length + raw'.length + 4 + 2 := by
  simp only [derBytes, List.length_cons, List.length_append]
  omega

theorem derBytes_drop (raw raw' : Bytes) :
    (derBytes raw raw').drop (4 + raw.length) = 0x02 :: UInt8.ofNat raw'.length :: raw' := by
  rw [Nat.add_comm]
  exact List.drop_left

theorem decodeDerSignature_derBytes {raw raw' : Bytes}
    (short : raw.length + raw'.length + 4 < 256) (nonempty : 1 ≤ raw.length)
    (nonempty' : 1 ≤ raw'.length) :
    decodeDerSignature (derBytes raw raw') = .ok (beValue raw, beValue raw') := by
  have length := derBytes_length raw raw'
  have total : byteAt (derBytes raw raw') 1 = .ok (raw.length + raw'.length + 4) := by
    rw [byteAt_eq_ok (rfl : (derBytes raw raw')[1]? =
      some (UInt8.ofNat (raw.length + raw'.length + 4))),
      UInt8.toNat_ofNat_of_lt' (show _ < 256 by omega)]
  have rMarker : byteAt (derBytes raw raw') 2 = .ok 2 := rfl
  have rLen : byteAt (derBytes raw raw') 3 = .ok raw.length := by
    rw [byteAt_eq_ok (rfl : (derBytes raw raw')[3]? = some (UInt8.ofNat raw.length)),
      UInt8.toNat_ofNat_of_lt' (show _ < 256 by omega)]
  have tail (offset : Nat) : (derBytes raw raw')[4 + raw.length + offset]? =
      (0x02 :: UInt8.ofNat raw'.length :: raw')[offset]? := by
    rw [← List.getElem?_drop, derBytes_drop]
  have sMarker : byteAt (derBytes raw raw') (4 + raw.length) = .ok 2 :=
    byteAt_eq_ok (tail 0)
  have sLen : byteAt (derBytes raw raw') (4 + raw.length + 1) = .ok raw'.length := by
    rw [byteAt_eq_ok (tail 1), UInt8.toNat_ofNat_of_lt' (show _ < 256 by omega)]
  have rBytes : ((derBytes raw raw').drop 4).take raw.length = raw := List.take_left
  have sBytes : ((derBytes raw raw').drop (4 + raw.length + 2)).take raw'.length = raw' := by
    rw [← List.drop_drop, derBytes_drop]
    exact List.take_length
  have header : ¬ ((derBytes raw raw').length < 8 ∨ (derBytes raw raw').head? ≠ some 0x30) := by
    rintro (few | wrong)
    · omega
    · exact wrong rfl
  rw [decodeDerSignature, if_neg header]
  simp only [total, rMarker, rLen, sMarker, sLen, rBytes, sBytes, length, bind, Except.bind]
  simp

/-- `decode_der_signature` reads what `encode_der_signature` writes. -/
theorem decodeDerSignature_encode {r s : Nat} (rSmall : r < 2 ^ 256) (sSmall : s < 2 ^ 256) :
    ∃ der, encodeDerSignature r s = .ok der ∧ der ≠ [] ∧ decodeDerSignature der = .ok (r, s) := by
  have rLength := derIntBytes_length rSmall
  have sLength := derIntBytes_length sSmall
  refine ⟨_, encodeDerSignature_eq rSmall sSmall, List.cons_ne_nil _ _, ?_⟩
  rw [decodeDerSignature_derBytes (by omega) rLength.1 sLength.1, beValue_derIntBytes,
    beValue_derIntBytes]

/-! ## Signers -/

/-- The signature functions the node calls, and the relation between the two
halves of an ML-DSA key. -/
structure Signers where
  ecdsaSign : (msgHash privkeyBytes : Bytes) → Except PyException (Nat × Nat)
  mldsaSign : (message secretKey : Bytes) → Except PyException Bytes
  MldsaKeyPair : (secretKey publicKey : Bytes) → Prop

/-- Signatures made with a key verify under it, and all lengths are the fixed
ones. -/
structure Signers.Correct (signers : Signers) (prim : Primitives) : Prop where
  sha256_length : ∀ data, (prim.sha256 data).length = 32
  hash160_length : ∀ data, (prim.hash160 data).length = 20
  ecdsa : ∀ {msgHash privkeyBytes pubkey : Bytes}, msgHash.length = 32 →
    privkeyToPubkey privkeyBytes true = .ok pubkey →
    ∃ r s, signers.ecdsaSign msgHash privkeyBytes = .ok (r, s) ∧ 1 ≤ r ∧ r < N ∧ 1 ≤ s ∧ s < N ∧
      prim.ecdsaVerify msgHash pubkey r s = true
  mldsa : ∀ {message secretKey publicKey : Bytes}, signers.MldsaKeyPair secretKey publicKey →
    ∃ signature, signers.mldsaSign message secretKey = .ok signature ∧
      publicKey.length = publicKeyBytes ∧ signature.length = signatureBytes ∧
      prim.dilithiumVerify signature message [] publicKey = true

namespace Transaction

/-- `self.vin[input_index].witness = witness`. -/
def setWitness (tx : Transaction) (inputIndex : Nat) (witness : List Bytes) : Transaction :=
  { tx with vin := tx.vin.modify inputIndex fun inp => { inp with witness := witness } }

section Signing

variable (signers : Signers) (prim : Primitives)

/-- The classical signature of an input, with its type, and the public key. -/
def ecdsaItems (tx : Transaction) (inputIndex : Nat) (privkeyBytes prevScript : Bytes)
    (prevAmount : Nat) : Except PyException (Bytes × Bytes) := do
  let sighash ← tx.getSighash prim inputIndex prevScript prevAmount
  let (r, s) ← signers.ecdsaSign sighash privkeyBytes
  let derSig ← encodeDerSignature r s
  let pubkey ← privkeyToPubkey privkeyBytes true
  .ok (derSig ++ [0x01], pubkey)

/-- The post-quantum signature of an input, with its type. -/
def mldsaItem (tx : Transaction) (inputIndex : Nat) (mldsaSecretKey prevScript : Bytes)
    (prevAmount : Nat) (sigType : SignatureType) : Except PyException Bytes := do
  let pqcSighash ← tx.getPqcSighash prim inputIndex prevScript prevAmount sigType
  let signature ← signers.mldsaSign pqcSighash mldsaSecretKey
  .ok (signature ++ [0x01])

/-- `sign_input`. -/
def signInput (tx : Transaction) (inputIndex : Nat) (privkeyBytes prevScript : Bytes)
    (prevAmount : Nat) : Except PyException Transaction := do
  let (derSig, pubkey) ← tx.ecdsaItems signers prim inputIndex privkeyBytes prevScript prevAmount
  .ok (tx.setWitness inputIndex [derSig, pubkey])

/-- `sign_input_mldsa`. -/
def signInputMldsa (tx : Transaction) (inputIndex : Nat)
    (mldsaSecretKey mldsaPublicKey prevScript : Bytes) (prevAmount : Nat) :
    Except PyException Transaction := do
  let signature ←
    tx.mldsaItem signers prim inputIndex mldsaSecretKey prevScript prevAmount .mlDsa
  .ok (tx.setWitness inputIndex [signature, mldsaPublicKey])

/-- `sign_input_hybrid`. -/
def signInputHybrid (tx : Transaction) (inputIndex : Nat)
    (privkeyBytes mldsaSecretKey mldsaPublicKey prevScript : Bytes) (prevAmount : Nat) :
    Except PyException Transaction := do
  let (derSig, ecdsaPubkey) ←
    tx.ecdsaItems signers prim inputIndex privkeyBytes prevScript prevAmount
  let mldsaSig ←
    tx.mldsaItem signers prim inputIndex mldsaSecretKey prevScript prevAmount .hybrid
  .ok (tx.setWitness inputIndex [derSig, ecdsaPubkey, mldsaSig, mldsaPublicKey])

end Signing

end Transaction

/-- The mode an input is signed in, with its keys. -/
inductive SigningKeys
  | ecdsa (privkeyBytes : Bytes)
  | mlDsa (secretKey publicKey : Bytes)
  | hybrid (privkeyBytes secretKey publicKey : Bytes)

/-- What an input is signed with and what it spends. -/
structure InputSigning where
  keys : SigningKeys
  prevScript : Bytes
  prevAmount : Nat

namespace InputSigning

/-- The call that signs an input. -/
def sign (signers : Signers) (prim : Primitives) (signing : InputSigning) (tx : Transaction)
    (inputIndex : Nat) : Except PyException Transaction :=
  match signing.keys with
  | .ecdsa privkeyBytes =>
      tx.signInput signers prim inputIndex privkeyBytes signing.prevScript signing.prevAmount
  | .mlDsa secretKey publicKey =>
      tx.signInputMldsa signers prim inputIndex secretKey publicKey signing.prevScript
        signing.prevAmount
  | .hybrid privkeyBytes secretKey publicKey =>
      tx.signInputHybrid signers prim inputIndex privkeyBytes secretKey publicKey
        signing.prevScript signing.prevAmount

/-- The script is one of the scripts of the keys. -/
inductive Matches (signers : Signers) (prim : Primitives) : InputSigning → Prop
  | witnessKeyHash {privkeyBytes pubkey : Bytes} {prevAmount : Nat}
      (derived : privkeyToPubkey privkeyBytes true = .ok pubkey) :
      Matches signers prim ⟨.ecdsa privkeyBytes, [0x00, 0x14] ++ prim.hash160 pubkey, prevAmount⟩
  | keyHash {privkeyBytes pubkey : Bytes} {prevAmount : Nat}
      (derived : privkeyToPubkey privkeyBytes true = .ok pubkey) :
      Matches signers prim ⟨.ecdsa privkeyBytes,
        [0x76, 0xa9, 0x14] ++ prim.hash160 pubkey ++ [0x88, 0xac], prevAmount⟩
  | mlDsa {secretKey publicKey : Bytes} {prevAmount : Nat}
      (pair : signers.MldsaKeyPair secretKey publicKey) :
      Matches signers prim ⟨.mlDsa secretKey publicKey, [0x51, 0x20] ++ prim.sha256 publicKey,
        prevAmount⟩
  | hybrid {privkeyBytes pubkey secretKey publicKey : Bytes} {prevAmount : Nat}
      (derived : privkeyToPubkey privkeyBytes true = .ok pubkey)
      (pair : signers.MldsaKeyPair secretKey publicKey) :
      Matches signers prim ⟨.hybrid privkeyBytes secretKey publicKey,
        [0x52, 0x20] ++ prim.sha256 (pubkey ++ publicKey), prevAmount⟩

end InputSigning

/-- The calls that sign the inputs in the given order. -/
def signInOrder (signers : Signers) (prim : Primitives) (signings : Nat → InputSigning)
    (tx : Transaction) (order : List Nat) : Except PyException Transaction :=
  order.foldlM (fun tx inputIndex => (signings inputIndex).sign signers prim tx inputIndex) tx

/-! ## Witnesses are not signed -/

namespace Transaction

variable {signers : Signers} {prim : Primitives} {tx : Transaction}

theorem setWitness_withoutWitness (inputIndex : Nat) (witness : List Bytes) :
    (tx.setWitness inputIndex witness).withoutWitness = tx.withoutWitness := by
  have inputs : (tx.vin.modify inputIndex fun inp => { inp with witness := witness }).map
      TxIn.withoutWitness = tx.vin.map TxIn.withoutWitness := by
    apply List.ext_getElem?
    intro i
    rw [List.getElem?_map, List.getElem?_map, List.getElem?_modify]
    cases tx.vin[i]? with
    | none => rfl
    | some inp => split_ifs <;> rfl
  rw [withoutWitness, setWitness, inputs]
  rfl

theorem getSighash_withoutWitness (inputIndex : Nat) (prevScript : Bytes) (prevAmount : Nat) :
    tx.withoutWitness.getSighash prim inputIndex prevScript prevAmount =
      tx.getSighash prim inputIndex prevScript prevAmount := by
  have outpoints : (tx.vin.map TxIn.withoutWitness).flatMap packOutpoint =
      tx.vin.flatMap packOutpoint := List.flatMap_map _ _ _
  have sequences : (tx.vin.map TxIn.withoutWitness).flatMap (fun inp => packU32 inp.sequence) =
      tx.vin.flatMap fun inp => packU32 inp.sequence := List.flatMap_map _ _ _
  simp only [getSighash, withoutWitness, outpoints, sequences, List.getElem?_map]
  cases tx.vin[inputIndex]? <;> rfl

/-- No signature hash covers a witness. -/
theorem getSighash_setWitness (written inputIndex : Nat) (witness : List Bytes)
    (prevScript : Bytes) (prevAmount : Nat) :
    (tx.setWitness written witness).getSighash prim inputIndex prevScript prevAmount =
      tx.getSighash prim inputIndex prevScript prevAmount := by
  rw [← getSighash_withoutWitness, setWitness_withoutWitness, getSighash_withoutWitness]

theorem txid_setWitness (inputIndex : Nat) (witness : List Bytes) :
    (tx.setWitness inputIndex witness).txid prim = tx.txid prim := by
  rw [txid, txid, serialize_false_congr (setWitness_withoutWitness inputIndex witness)]

theorem verifyInputSignature_setWitness_ne {written inputIndex : Nat}
    (other : inputIndex ≠ written) (witness : List Bytes) (prevScript : Bytes)
    (prevAmount : Nat) :
    (tx.setWitness written witness).verifyInputSignature prim inputIndex prevScript prevAmount =
      tx.verifyInputSignature prim inputIndex prevScript prevAmount := by
  have input : (tx.setWitness written witness).vin[inputIndex]? = tx.vin[inputIndex]? :=
    List.getElem?_modify_ne _ _ (Ne.symm other)
  have classical (derSig pubkey : Bytes) :
      (tx.setWitness written witness).verifyEcdsaInput prim inputIndex prevScript prevAmount
          derSig pubkey =
        tx.verifyEcdsaInput prim inputIndex prevScript prevAmount derSig pubkey := by
    rw [verifyEcdsaInput, verifyEcdsaInput, getSighash_setWitness]
  have postQuantum (sigType : SignatureType) (signature pubkey : Bytes) :
      (tx.setWitness written witness).verifyMldsaInput prim inputIndex prevScript prevAmount
          sigType signature pubkey =
        tx.verifyMldsaInput prim inputIndex prevScript prevAmount sigType signature pubkey := by
    rw [verifyMldsaInput, verifyMldsaInput, getPqcSighash, getPqcSighash, getSighash_setWitness]
  simp only [verifyInputSignature, input, classical, postQuantum]

/-! ## One signer -/

/-- A type byte behind a signature. -/
theorem hasSighashAllType_append {signature : Bytes} (nonempty : signature ≠ []) :
    hasSighashAllType (signature ++ [0x01]) = true := by
  have length := List.length_pos_of_ne_nil nonempty
  have enough : 2 ≤ signature.length + 1 := by omega
  simp [hasSighashAllType, enough]

/-- The witness that a mode asks for, and the type bytes, are enough. -/
theorem verified_of_authorized (sha256_length : ∀ data, (prim.sha256 data).length = 32)
    {inputIndex prevAmount : Nat} {prevScript : Bytes} {inp : TxIn}
    (found : tx.vin[inputIndex]? = some inp)
    (authorized : Authorized prim tx inputIndex prevAmount prevScript inp.witness)
    (typed : ∀ signature pubkey, inp.witness = [signature, pubkey] →
      hasSighashAllType signature = true)
    (typedBoth : ∀ derSig ecdsaPubkey mldsaSig mldsaPubkey,
      inp.witness = [derSig, ecdsaPubkey, mldsaSig, mldsaPubkey] →
        hasSighashAllType derSig = true ∧ hasSighashAllType mldsaSig = true) :
    tx.verifyInputSignature prim inputIndex prevScript prevAmount = true := by
  generalize witnessEq : inp.witness = witness at authorized typed typedBoth
  rw [verifyInputSignature, found]
  cases authorized with
  | @witnessKeyHash signature pubkey script accepts =>
      have isType := typed signature pubkey rfl
      have mode : List.isPrefixOf [0x00, 0x14] prevScript = true := by simp [script]
      simp only [witnessEq, mode, isType, Bool.true_or, if_true, Bool.not_true,
        Bool.false_eq_true, if_false]
      rw [if_neg (fun wrong => wrong.1 script)]
      exact verifyEcdsaInput_eq_true.mpr accepts
  | @keyHash signature pubkey script accepts =>
      have isType := typed signature pubkey rfl
      have mode : (List.isPrefixOf [0x76, 0xa9, 0x14] prevScript &&
          List.isSuffixOf [0x88, 0xac] prevScript) = true := by
        rw [Bool.and_eq_true, List.isPrefixOf_iff_prefix, List.isSuffixOf_iff_suffix, script]
        exact ⟨⟨prim.hash160 pubkey ++ [0x88, 0xac], by simp⟩, List.suffix_append _ _⟩
      simp only [witnessEq, mode, isType, Bool.or_true, if_true, Bool.not_true,
        Bool.false_eq_true, if_false]
      rw [if_neg (fun wrong => wrong.2 script)]
      exact verifyEcdsaInput_eq_true.mpr accepts
  | @mlDsa signature pubkey script accepts =>
      have isType := typed signature pubkey rfl
      have mode : (List.isPrefixOf [0x00, 0x14] prevScript ||
          (List.isPrefixOf [0x76, 0xa9, 0x14] prevScript &&
            List.isSuffixOf [0x88, 0xac] prevScript)) = false := by
        rw [script]
        rfl
      have form : prevScript.length = 34 ∧ prevScript.take 2 = [0x51, 0x20] := by
        simp [script, sha256_length]
      have program : prim.sha256 pubkey = prevScript.drop 2 := by simp [script]
      simp only [witnessEq, mode, form, program, isType, and_self, if_true, Bool.not_true,
        ne_eq, not_true_eq_false, if_false, Bool.false_eq_true]
      exact verifyMldsaInput_eq_true.mpr accepts
  | @hybrid derSig ecdsaPubkey mldsaSig mldsaPubkey script ecdsa mldsa =>
      obtain ⟨derTyped, mldsaTyped⟩ := typedBoth _ _ _ _ rfl
      have mode : (List.isPrefixOf [0x00, 0x14] prevScript ||
          (List.isPrefixOf [0x76, 0xa9, 0x14] prevScript &&
            List.isSuffixOf [0x88, 0xac] prevScript)) = false := by
        rw [script]
        rfl
      have form : prevScript.length = 34 ∧ prevScript.take 2 = [0x52, 0x20] := by
        simp [script, sha256_length]
      have program : prim.sha256 (ecdsaPubkey ++ mldsaPubkey) = prevScript.drop 2 := by
        simp [script]
      have notMldsa : ¬ (prevScript.length = 34 ∧ prevScript.take 2 = [0x51, 0x20]) := by
        simp [script]
      simp only [witnessEq, mode, if_neg notMldsa, if_pos form, program, derTyped, mldsaTyped,
        verifyEcdsaInput_eq_true.mpr ecdsa, Bool.not_true, ne_eq, not_true_eq_false, if_false,
        Bool.false_eq_true]
      exact verifyMldsaInput_eq_true.mpr mldsa

/-- What `sign_input` writes is accepted. -/
theorem ecdsaItems_of_sighash (correct : signers.Correct prim) {inputIndex prevAmount : Nat}
    {privkeyBytes pubkey prevScript sighash : Bytes}
    (computed : tx.getSighash prim inputIndex prevScript prevAmount = .ok sighash)
    (derived : privkeyToPubkey privkeyBytes true = .ok pubkey) :
    ∃ derSig, tx.ecdsaItems signers prim inputIndex privkeyBytes prevScript prevAmount =
        .ok (derSig, pubkey) ∧ hasSighashAllType derSig = true ∧
      tx.EcdsaAccepts prim inputIndex prevScript prevAmount derSig pubkey := by
  obtain ⟨inp, found, scriptLe, amountLt, sighashEq⟩ := getSighash_eq_ok.mp computed
  have length : sighash.length = 32 := by rw [sighashEq, prim.hash256_length]
  obtain ⟨r, s, signed, -, rLt, -, sLt, verified⟩ := correct.ecdsa length derived
  have orderLt : N < 2 ^ 256 := by decide
  obtain ⟨der, encoded, nonempty, decoded⟩ :=
    decodeDerSignature_encode (rLt.trans orderLt) (sLt.trans orderLt)
  refine ⟨der ++ [0x01], ?_, hasSighashAllType_append nonempty, r, s, sighash, ?_, computed,
    verified⟩
  · simp only [ecdsaItems, computed, signed, encoded, derived, bind, Except.bind]
  · rw [List.dropLast_concat, decoded]

/-- What `sign_input_mldsa` writes is accepted. -/
theorem mldsaItem_of_sighash (correct : signers.Correct prim) {inputIndex prevAmount : Nat}
    {secretKey publicKey prevScript sighash : Bytes} (sigType : SignatureType)
    (computed : tx.getSighash prim inputIndex prevScript prevAmount = .ok sighash)
    (pair : signers.MldsaKeyPair secretKey publicKey) :
    ∃ sig, tx.mldsaItem signers prim inputIndex secretKey prevScript prevAmount sigType =
        .ok sig ∧ hasSighashAllType sig = true ∧
      tx.MldsaAccepts prim inputIndex prevScript prevAmount sigType sig publicKey := by
  have pqcComputed : tx.getPqcSighash prim inputIndex prevScript prevAmount sigType =
      .ok (prim.sha256 (pqcDomainTag ++ [sigType.toByte] ++ sighash)) := by
    rw [getPqcSighash, computed]
    rfl
  obtain ⟨signature, signed, keyLength, sigLength, verified⟩ :=
    @Signers.Correct.mldsa signers prim correct
      (prim.sha256 (pqcDomainTag ++ [sigType.toByte] ++ sighash)) _ _ pair
  have nonempty : signature ≠ [] := by
    rintro rfl
    exact absurd sigLength (by decide)
  refine ⟨signature ++ [0x01], ?_, hasSighashAllType_append nonempty, _, pqcComputed, ?_⟩
  · simp only [mldsaItem, pqcComputed, signed, bind, Except.bind]
  · rw [List.dropLast_concat]
    exact mldsaVerify_eq_true.mpr ⟨keyLength, sigLength, verified⟩

/-- The acceptance of a signature does not depend on the witnesses. -/
theorem EcdsaAccepts.setWitness {inputIndex prevAmount : Nat} {prevScript sig pubkey : Bytes}
    (accepts : tx.EcdsaAccepts prim inputIndex prevScript prevAmount sig pubkey)
    (written : Nat) (witness : List Bytes) :
    (tx.setWitness written witness).EcdsaAccepts prim inputIndex prevScript prevAmount sig
      pubkey := by
  rwa [EcdsaAccepts, getSighash_setWitness]

theorem MldsaAccepts.setWitness {inputIndex prevAmount : Nat} {prevScript sig pubkey : Bytes}
    {sigType : SignatureType}
    (accepts : tx.MldsaAccepts prim inputIndex prevScript prevAmount sigType sig pubkey)
    (written : Nat) (witness : List Bytes) :
    (tx.setWitness written witness).MldsaAccepts prim inputIndex prevScript prevAmount sigType
      sig pubkey := by
  rwa [MldsaAccepts, getPqcSighash, getSighash_setWitness]

theorem setWitness_found {inputIndex : Nat} (inside : inputIndex < tx.vin.length)
    (witness : List Bytes) :
    ∃ inp, (tx.setWitness inputIndex witness).vin[inputIndex]? = some inp ∧
      inp.witness = witness := by
  refine ⟨{ tx.vin[inputIndex] with witness := witness }, ?_, rfl⟩
  rw [setWitness, List.getElem?_modify_eq, List.getElem?_eq_getElem inside]
  rfl

end Transaction

namespace InputSigning

open Transaction

variable {signers : Signers} {prim : Primitives} {tx tx' : Transaction}

/-- A signer writes one witness and nothing else. -/
theorem sign_eq_ok {signing : InputSigning} {inputIndex : Nat}
    (signed : signing.sign signers prim tx inputIndex = .ok tx') :
    ∃ witness, tx' = tx.setWitness inputIndex witness := by
  obtain ⟨keys, prevScript, prevAmount⟩ := signing
  cases keys with
  | ecdsa privkeyBytes =>
      obtain ⟨items, -, written⟩ := except_bind_eq_ok.mp signed
      exact ⟨_, (Except.ok.inj written).symm⟩
  | mlDsa secretKey publicKey =>
      obtain ⟨item, -, written⟩ := except_bind_eq_ok.mp signed
      exact ⟨_, (Except.ok.inj written).symm⟩
  | hybrid privkeyBytes secretKey publicKey =>
      obtain ⟨items, -, later⟩ := except_bind_eq_ok.mp signed
      obtain ⟨item, -, written⟩ := except_bind_eq_ok.mp later
      exact ⟨_, (Except.ok.inj written).symm⟩

/-- A signer without a signature hash raises. -/
theorem sighash_of_sign {signing : InputSigning} {inputIndex : Nat}
    (signed : signing.sign signers prim tx inputIndex = .ok tx') :
    ∃ sighash, tx.getSighash prim inputIndex signing.prevScript signing.prevAmount =
      .ok sighash := by
  obtain ⟨keys, prevScript, prevAmount⟩ := signing
  cases keys with
  | ecdsa privkeyBytes =>
      obtain ⟨items, made, -⟩ := except_bind_eq_ok.mp signed
      obtain ⟨sighash, computed, -⟩ := except_bind_eq_ok.mp made
      exact ⟨sighash, computed⟩
  | mlDsa secretKey publicKey =>
      obtain ⟨item, made, -⟩ := except_bind_eq_ok.mp signed
      obtain ⟨tagged, hashed, -⟩ := except_bind_eq_ok.mp made
      obtain ⟨sighash, computed, -⟩ := except_map_eq_ok.mp hashed
      exact ⟨sighash, computed⟩
  | hybrid privkeyBytes secretKey publicKey =>
      obtain ⟨items, made, -⟩ := except_bind_eq_ok.mp signed
      obtain ⟨sighash, computed, -⟩ := except_bind_eq_ok.mp made
      exact ⟨sighash, computed⟩

/-- Scripts of the three kinds are short enough for the script code. -/
theorem Matches.script_length_le {signing : InputSigning} (correct : signers.Correct prim)
    (matching : signing.Matches signers prim) : signing.prevScript.length ≤ 255 := by
  cases matching <;> simp [correct.hash160_length, correct.sha256_length]

/-- Signing with matching keys makes the input valid. -/
theorem sign_verified {signing : InputSigning} {inputIndex : Nat}
    (correct : signers.Correct prim) (matching : signing.Matches signers prim)
    (inside : inputIndex < tx.vin.length) (small : signing.prevAmount < 2 ^ 64) :
    ∃ signed, signing.sign signers prim tx inputIndex = .ok signed ∧
      signed.verifyInputSignature prim inputIndex signing.prevScript signing.prevAmount =
        true := by
  obtain ⟨sighash, computed⟩ : ∃ sighash, tx.getSighash prim inputIndex signing.prevScript
      signing.prevAmount = .ok sighash :=
    ⟨_, getSighash_eq_ok.mpr ⟨_, List.getElem?_eq_getElem inside,
      fun _ => matching.script_length_le correct, small, rfl⟩⟩
  have verified (witness : List Bytes)
      (authorized : Transaction.Authorized prim (tx.setWitness inputIndex witness) inputIndex
        signing.prevAmount signing.prevScript witness)
      (typed : ∀ signature pubkey, witness = [signature, pubkey] →
        hasSighashAllType signature = true)
      (typedBoth : ∀ derSig ecdsaPubkey mldsaSig mldsaPubkey,
        witness = [derSig, ecdsaPubkey, mldsaSig, mldsaPubkey] →
          hasSighashAllType derSig = true ∧ hasSighashAllType mldsaSig = true) :
      (tx.setWitness inputIndex witness).verifyInputSignature prim inputIndex signing.prevScript
        signing.prevAmount = true := by
    obtain ⟨inp, found, rfl⟩ := setWitness_found inside witness
    exact verified_of_authorized correct.sha256_length found authorized typed typedBoth
  cases matching with
  | @witnessKeyHash privkeyBytes pubkey prevAmount derived =>
      obtain ⟨derSig, items, typed, accepts⟩ := ecdsaItems_of_sighash correct computed derived
      refine ⟨tx.setWitness inputIndex [derSig, pubkey], ?_, ?_⟩
      · simp only [sign, signInput, items, bind, Except.bind]
      · refine verified _ (.witnessKeyHash rfl (accepts.setWitness _ _)) ?_ (by simp)
        rintro _ _ ⟨⟩
        exact typed
  | @keyHash privkeyBytes pubkey prevAmount derived =>
      obtain ⟨derSig, items, typed, accepts⟩ := ecdsaItems_of_sighash correct computed derived
      refine ⟨tx.setWitness inputIndex [derSig, pubkey], ?_, ?_⟩
      · simp only [sign, signInput, items, bind, Except.bind]
      · refine verified _ (.keyHash rfl (accepts.setWitness _ _)) ?_ (by simp)
        rintro _ _ ⟨⟩
        exact typed
  | @mlDsa secretKey publicKey prevAmount pair =>
      obtain ⟨sig, item, typed, accepts⟩ := mldsaItem_of_sighash correct .mlDsa computed pair
      refine ⟨tx.setWitness inputIndex [sig, publicKey], ?_, ?_⟩
      · simp only [sign, signInputMldsa, item, bind, Except.bind]
      · refine verified _ (.mlDsa rfl (accepts.setWitness _ _)) ?_ (by simp)
        rintro _ _ ⟨⟩
        exact typed
  | @hybrid privkeyBytes pubkey secretKey publicKey prevAmount derived pair =>
      obtain ⟨derSig, items, derTyped, ecdsa⟩ := ecdsaItems_of_sighash correct computed derived
      obtain ⟨sig, item, typed, mldsa⟩ := mldsaItem_of_sighash correct .hybrid computed pair
      refine ⟨tx.setWitness inputIndex [derSig, pubkey, sig, publicKey], ?_, ?_⟩
      · simp only [sign, signInputHybrid, items, item, bind, Except.bind]
      · refine verified _ (.hybrid rfl (ecdsa.setWitness _ _) (mldsa.setWitness _ _))
          (by simp) ?_
        rintro _ _ _ _ ⟨⟩
        exact ⟨derTyped, typed⟩

/-- Signing one input is invisible to the others and to the id. -/
theorem sign_frame {signing : InputSigning} {inputIndex : Nat}
    (signed : signing.sign signers prim tx inputIndex = .ok tx') :
    tx'.txid prim = tx.txid prim ∧ tx'.vin.length = tx.vin.length ∧
      ∀ other ≠ inputIndex, ∀ prevScript prevAmount,
        tx'.verifyInputSignature prim other prevScript prevAmount =
          tx.verifyInputSignature prim other prevScript prevAmount := by
  obtain ⟨witness, rfl⟩ := sign_eq_ok signed
  refine ⟨txid_setWitness _ _, List.length_modify _ _ _, ?_⟩
  intro other different prevScript prevAmount
  exact verifyInputSignature_setWitness_ne different witness prevScript prevAmount

/-- A signer that returns has been given an amount that fits. -/
theorem verified_of_sign {signing : InputSigning} {inputIndex : Nat}
    (correct : signers.Correct prim) (matching : signing.Matches signers prim)
    (signed : signing.sign signers prim tx inputIndex = .ok tx') :
    tx'.verifyInputSignature prim inputIndex signing.prevScript signing.prevAmount = true := by
  obtain ⟨sighash, computed⟩ := sighash_of_sign signed
  obtain ⟨inp, found, -, small, -⟩ := getSighash_eq_ok.mp computed
  obtain ⟨inside, -⟩ := List.getElem?_eq_some_iff.mp found
  obtain ⟨tx'', signed', verified⟩ := sign_verified correct matching inside small
  rw [signed] at signed'
  cases signed'
  exact verified

end InputSigning

/-! ## Any order -/

section Order

variable {signers : Signers} {prim : Primitives} {signings : Nat → InputSigning}

theorem signInOrder_cons {tx signed : Transaction} {inputIndex : Nat} {order : List Nat} :
    signInOrder signers prim signings tx (inputIndex :: order) = .ok signed ↔
      ∃ next, (signings inputIndex).sign signers prim tx inputIndex = .ok next ∧
        signInOrder signers prim signings next order = .ok signed := by
  rw [signInOrder, List.foldlM_cons]
  exact except_bind_eq_ok

/-- A run of the signers keeps the id, makes its inputs valid and leaves the
others as they were. -/
theorem signInOrder_eq_ok (correct : signers.Correct prim) {order : List Nat}
    (matching : ∀ i ∈ order, (signings i).Matches signers prim) (once : order.Nodup)
    {tx signed : Transaction} (run : signInOrder signers prim signings tx order = .ok signed) :
    signed.txid prim = tx.txid prim ∧
      (∀ i ∈ order, signed.verifyInputSignature prim i (signings i).prevScript
        (signings i).prevAmount = true) ∧
      ∀ i ∉ order, ∀ prevScript prevAmount,
        signed.verifyInputSignature prim i prevScript prevAmount =
          tx.verifyInputSignature prim i prevScript prevAmount := by
  induction order generalizing tx with
  | nil =>
      cases run
      refine ⟨rfl, ?_, fun _ _ _ _ => rfl⟩
      intro i member
      cases member
  | cons first order ih =>
      obtain ⟨next, step, rest⟩ := signInOrder_cons.mp run
      obtain ⟨notLater, onceRest⟩ := List.nodup_cons.mp once
      obtain ⟨restTxid, restVerified, restFrame⟩ :=
        ih (fun i member => matching i (List.mem_cons_of_mem _ member)) onceRest rest
      obtain ⟨stepTxid, -, stepFrame⟩ := InputSigning.sign_frame step
      refine ⟨restTxid.trans stepTxid, ?_, ?_⟩
      · intro i member
        cases member with
        | head =>
            -- the later calls do not touch the first input
            rw [restFrame first notLater]
            exact InputSigning.verified_of_sign correct
              (matching first List.mem_cons_self) step
        | tail _ later => exact restVerified i later
      · intro i notMember prevScript prevAmount
        rw [List.mem_cons, not_or] at notMember
        rw [restFrame i notMember.2, stepFrame i notMember.1]

theorem signInOrder_returns (correct : signers.Correct prim) {order : List Nat}
    (matching : ∀ i ∈ order, (signings i).Matches signers prim)
    (small : ∀ i ∈ order, (signings i).prevAmount < 2 ^ 64) {tx : Transaction}
    (inside : ∀ i ∈ order, i < tx.vin.length) :
    ∃ signed, signInOrder signers prim signings tx order = .ok signed := by
  induction order generalizing tx with
  | nil => exact ⟨tx, rfl⟩
  | cons first order ih =>
      have firstMember : first ∈ first :: order := List.mem_cons_self
      obtain ⟨next, step, -⟩ := InputSigning.sign_verified correct (matching first firstMember)
        (inside first firstMember) (small first firstMember)
      obtain ⟨-, length, -⟩ := InputSigning.sign_frame step
      obtain ⟨signed, rest⟩ := @ih (fun i member => matching i (List.mem_cons_of_mem _ member))
        (fun i member => small i (List.mem_cons_of_mem _ member)) next
        (fun i member => length ▸ inside i (List.mem_cons_of_mem _ member))
      exact ⟨signed, signInOrder_cons.mpr ⟨next, step, rest⟩⟩

/-- Inputs can be signed in any order and in any mixture of modes.  Amounts
that do not fit the signature hash make a signer raise. -/
theorem signInOrder_verified (correct : signers.Correct prim) (tx : Transaction)
    (matching : ∀ i < tx.vin.length, (signings i).Matches signers prim) {order : List Nat}
    (everyInput : order.Perm (List.range tx.vin.length)) :
    ((∀ i < tx.vin.length, (signings i).prevAmount < 2 ^ 64) →
      ∃ signed, signInOrder signers prim signings tx order = .ok signed) ∧
    (∀ signed, signInOrder signers prim signings tx order = .ok signed →
      signed.txid prim = tx.txid prim ∧
        ∀ i < tx.vin.length, signed.verifyInputSignature prim i (signings i).prevScript
          (signings i).prevAmount = true) ∧
    ∀ (signing : InputSigning) (before after : Transaction) (inputIndex : Nat),
      signing.sign signers prim before inputIndex = .ok after →
        after.txid prim = before.txid prim ∧
          ∀ other ≠ inputIndex, ∀ prevScript prevAmount,
            after.verifyInputSignature prim other prevScript prevAmount =
              before.verifyInputSignature prim other prevScript prevAmount := by
  have inside (i : Nat) : i ∈ order ↔ i < tx.vin.length := by
    rw [everyInput.mem_iff, List.mem_range]
  have matchingOrder : ∀ i ∈ order, (signings i).Matches signers prim :=
    fun i member => matching i ((inside i).mp member)
  refine ⟨?_, ?_, ?_⟩
  · intro small
    exact signInOrder_returns correct matchingOrder
      (fun i member => small i ((inside i).mp member)) fun i member => (inside i).mp member
  · intro signed run
    have once : order.Nodup := everyInput.nodup_iff.mpr List.nodup_range
    obtain ⟨txid, verified, -⟩ := signInOrder_eq_ok correct matchingOrder once run
    exact ⟨txid, fun i small => verified i ((inside i).mpr small)⟩
  · intro signing before after inputIndex signed
    obtain ⟨txid, -, frame⟩ := InputSigning.sign_frame signed
    exact ⟨txid, frame⟩

end Order

/-! ## A signed sample -/

/-- The sample key signs the sample spend with the recorded signature. -/
def sampleSigners : Signers where
  ecdsaSign msgHash privkeyBytes :=
    match privkeyToPubkey privkeyBytes true with
    | .error error => .error error
    | .ok pubkey =>
        if pubkey = sampleKey ∧ msgHash = leBytes 32 signedSpend.sighash then
          .ok (signedSpend.r, signedSpend.s)
        else .ok (1, 1)
  mldsaSign _ _ := .ok (List.replicate signatureBytes 0)
  MldsaKeyPair _ publicKey := publicKey.length = publicKeyBytes

def signerPrimitives : Primitives :=
  { Primitives.ofDigests signedSpend.digests with
    hash160 := fun _ => sampleKeyHash
    ecdsaVerify := fun msgHash pubkey r s =>
      if pubkey = sampleKey ∧ msgHash = leBytes 32 signedSpend.sighash then
        r = signedSpend.r && s = signedSpend.s
      else r = 1 && s = 1
    dilithiumVerify := fun signature _ _ _ => signature = List.replicate signatureBytes 0 }

theorem sampleSigners_correct : sampleSigners.Correct signerPrimitives where
  sha256_length _ := leBytes_length 32 1
  hash160_length _ := (by decide : sampleKeyHash.length = 20)
  ecdsa := by
    intro msgHash privkeyBytes pubkey _ derived
    simp only [sampleSigners, signerPrimitives, derived]
    split_ifs
    · exact ⟨_, _, rfl, by decide, by decide, by decide, by decide, by decide⟩
    · exact ⟨_, _, rfl, by decide, by decide, by decide, by decide, by decide⟩
  mldsa := by
    intro message secretKey publicKey pair
    refine ⟨_, rfl, pair, List.length_replicate, ?_⟩
    simp [signerPrimitives]

/-! ## Two inputs of different modes -/

/-- Spends an output of the sample key and one with the hybrid script. -/
def mixedSpend : Transaction :=
  { signedSpend.tx with
    vin := [⟨fundingOutpoint.1, 0, [], 0xFFFFFFFF, []⟩,
      ⟨fundingOutpoint.1, 1, [], 0xFFFFFFFF, []⟩] }

def mixedSighashes : Bytes × Bytes :=
  (leBytes 32 0x75eef8cc2a507e15f2b458f33de85b1faffda56b61547910ae5947ac4d566afc,
    leBytes 32 0x9fc725f57e972914800f318665c6a4a9a175b93d4608d2ea2019223b4240590b)

/-- The signatures of the sample key for the two inputs. -/
def mixedSignature (pubkey msgHash : Bytes) : Nat × Nat :=
  if pubkey = sampleKey ∧ msgHash = mixedSighashes.1 then
    (0xc5151ad14672596ac6c9c7daf307dd0c0f022db8e865e5755667e1f13c4dad12,
      0x4daed9560416453aff2cec40e8d6f48c9826a8657d12f67a4bcf000e20e8b1b4)
  else if pubkey = sampleKey ∧ msgHash = mixedSighashes.2 then
    (0x900089699a3487d21ccac90f52c76744763d5c765c8be387dfa8128829e4d9b1,
      0x538b1e8385c0a93f63029a1c83127c0f09d045c950a1c066eb50788e7d8e6a5b)
  else (1, 1)

def mixedSigners : Signers where
  ecdsaSign msgHash privkeyBytes :=
    (privkeyToPubkey privkeyBytes true).map fun pubkey => mixedSignature pubkey msgHash
  mldsaSign _ _ := .ok (List.replicate signatureBytes 0x09)
  MldsaKeyPair _ publicKey := publicKey = hybridKey

/-- What is hashed to sign an input with the script code. -/
def mixedPreimage (vout : UInt32) (scriptCode : Bytes) : Bytes :=
  packI32 1 ++ leBytes 32 0x660e9e352fcb51e997f1102e0ad07d15905e675c0910d2b1207a4ed344fac33d ++
    leBytes 32 doubledSpend.hashSequence ++ fundingOutpoint.1 ++ packU32 vout ++ scriptCode ++
    packU64 (50 * coin) ++ packU32 0xFFFFFFFF ++ leBytes 32 signedSpend.hashOutputs ++
    packU32 0 ++ packU32 1

def mixedPrimitives : Primitives :=
  { Primitives.ofDigests
      [(mixedSpend.serialize false,
          0xbc5c8b46fef16b09f459e0c2b58dcf9c56300ee7f7387bbe6c9795bea739554f),
        (mixedSpend.vin.flatMap Transaction.packOutpoint,
          0x660e9e352fcb51e997f1102e0ad07d15905e675c0910d2b1207a4ed344fac33d),
        (mixedSpend.vin.flatMap fun inp => packU32 inp.sequence, doubledSpend.hashSequence),
        (mixedSpend.vout.flatMap TxOut.serialize, signedSpend.hashOutputs),
        (mixedPreimage 0 ([0x19, 0x76, 0xa9, 0x14] ++ sampleKeyHash ++ [0x88, 0xac]),
          leValue mixedSighashes.1),
        (mixedPreimage 1 (0x22 :: hybridScript), leValue mixedSighashes.2)] with
    sha256 := fun data =>
      if data = sampleKey ++ hybridKey then hybridProgram
      else leBytes 32 0x6a357fc1f8dfe33d204d5de723fc74424093c0230f9cfb8ef46037a6b58feffb
    hash160 := fun _ => sampleKeyHash
    ecdsaVerify := fun msgHash pubkey r s => (r, s) = mixedSignature pubkey msgHash
    dilithiumVerify := fun signature _ _ _ => signature = List.replicate signatureBytes 0x09 }

theorem mixedSigners_correct : mixedSigners.Correct mixedPrimitives where
  sha256_length data := by
    simp only [mixedPrimitives]
    split_ifs <;> exact leBytes_length 32 _
  hash160_length _ := (by decide : sampleKeyHash.length = 20)
  ecdsa := by
    intro msgHash privkeyBytes pubkey _ derived
    have inRange : 1 ≤ (mixedSignature pubkey msgHash).1 ∧ (mixedSignature pubkey msgHash).1 < N ∧
        1 ≤ (mixedSignature pubkey msgHash).2 ∧ (mixedSignature pubkey msgHash).2 < N := by
      unfold mixedSignature
      split_ifs <;> decide
    refine ⟨_, _, ?_, inRange.1, inRange.2.1, inRange.2.2.1, inRange.2.2.2, ?_⟩
    · simp only [mixedSigners, derived, Except.map]
    · simp only [mixedPrimitives, Prod.mk.eta, decide_true]
  mldsa := by
    rintro message secretKey publicKey rfl
    refine ⟨_, rfl, List.length_replicate, List.length_replicate, ?_⟩
    simp only [mixedPrimitives, decide_true]

/-- The first input is signed with one key, the second with both. -/
def mixedSigning : Nat → InputSigning
  | 0 => ⟨.ecdsa (toBytesBig 32 1), [0x00, 0x14] ++ sampleKeyHash, 50 * coin⟩
  | _ + 1 => ⟨.hybrid (toBytesBig 32 1) [] hybridKey, hybridScript, 50 * coin⟩

theorem mixedSigning_matches (inputIndex : Nat) :
    (mixedSigning inputIndex).Matches mixedSigners mixedPrimitives := by
  have derived : privkeyToPubkey (toBytesBig 32 1) true = .ok sampleKey := by decide
  cases inputIndex with
  | zero => exact @InputSigning.Matches.witnessKeyHash _ mixedPrimitives _ sampleKey _ derived
  | succ inputIndex =>
      have program : mixedPrimitives.sha256 (sampleKey ++ hybridKey) = hybridProgram := by
        simp only [mixedPrimitives, if_true]
      rw [mixedSigning, hybridScript, ← program]
      exact .hybrid derived rfl

/-- The second input is signed before the first. -/
theorem mixedSpend_signs :
    ∃ signed, signInOrder mixedSigners mixedPrimitives mixedSigning mixedSpend [1, 0] =
        .ok signed ∧
      signed.txid mixedPrimitives = mixedSpend.txid mixedPrimitives ∧
      signed.verifyInputSignature mixedPrimitives 0 ([0x00, 0x14] ++ sampleKeyHash) (50 * coin) =
        true ∧
      signed.verifyInputSignature mixedPrimitives 1 hybridScript (50 * coin) = true := by
  obtain ⟨returns, verified, -⟩ := signInOrder_verified mixedSigners_correct mixedSpend
    (fun inputIndex _ => mixedSigning_matches inputIndex) (List.Perm.swap 0 1 [])
  have small : ∀ inputIndex, (mixedSigning inputIndex).prevAmount < 2 ^ 64 := by
    intro inputIndex
    cases inputIndex with
    | zero => decide
    | succ inputIndex => exact (by decide : 50 * coin < 2 ^ 64)
  obtain ⟨signed, run⟩ := returns fun inputIndex _ => small inputIndex
  obtain ⟨txid, valid⟩ := verified signed run
  exact ⟨signed, run, txid, valid 0 (by decide), valid 1 (by decide)⟩

end QuantyCoin
