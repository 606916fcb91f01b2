import QuantyCoin.Ecdsa
import QuantyCoin.TransactionSigning

/-!
# Malleable witnesses

`verify_input_signature` accepts every DER encoding that `decode_der_signature` can read,
and `ecdsa_verify` accepts both solutions of the equation of a signature.  Whoever sees an
accepted witness can write another one for the same input.
-/

namespace QuantyCoin

open ByteDecoder Secp256k1 Transaction

/-- The script of a P2WPKH or a P2PKH output. -/
def IsKeyHashScript (prevScript : Bytes) : Prop :=
  ∃ keyHash, prevScript = [0x00, 0x14] ++ keyHash ∨
    prevScript = [0x76, 0xa9, 0x14] ++ keyHash ++ [0x88, 0xac]

section Acceptance

variable (prim : Primitives) (tx : Transaction) (inputIndex : Nat) (prevScript : Bytes)
  (prevAmount : Nat)

/-- The witness `[sig, pubkey]` of the input is accepted. -/
def AcceptsWitness (sig pubkey : Bytes) : Prop :=
  (tx.setWitness inputIndex [sig, pubkey]).verifyInputSignature prim inputIndex prevScript
    prevAmount = true

variable {prim tx inputIndex prevScript prevAmount} {sig pubkey : Bytes}

theorem IsKeyHashScript.classical (keyHash : IsKeyHashScript prevScript) :
    (List.isPrefixOf [0x00, 0x14] prevScript ||
      (List.isPrefixOf [0x76, 0xa9, 0x14] prevScript &&
        List.isSuffixOf [0x88, 0xac] prevScript)) = true := by
  obtain ⟨hash, script | script⟩ := keyHash
  · simp [script]
  · rw [Bool.or_eq_true, Bool.and_eq_true, List.isPrefixOf_iff_prefix,
      List.isPrefixOf_iff_prefix, List.isSuffixOf_iff_suffix, script]
    exact Or.inr ⟨⟨hash ++ [0x88, 0xac], by simp⟩, List.suffix_append _ _⟩

/-- Only the type byte, the hash of the key and the numbers of a signature matter. -/
theorem acceptsWitness_iff (keyHash : IsKeyHashScript prevScript) :
    AcceptsWitness prim tx inputIndex prevScript prevAmount sig pubkey ↔
      inputIndex < tx.vin.length ∧ hasSighashAllType sig = true ∧
        ¬(prevScript ≠ [0x00, 0x14] ++ prim.hash160 pubkey ∧
          prevScript ≠ [0x76, 0xa9, 0x14] ++ prim.hash160 pubkey ++ [0x88, 0xac]) ∧
        tx.EcdsaAccepts prim inputIndex prevScript prevAmount sig pubkey := by
  rw [AcceptsWitness]
  by_cases inside : inputIndex < tx.vin.length
  · obtain ⟨inp, found, written⟩ := setWitness_found inside [sig, pubkey]
    have accepts : (tx.setWitness inputIndex [sig, pubkey]).EcdsaAccepts prim inputIndex prevScript
        prevAmount sig pubkey ↔
          tx.EcdsaAccepts prim inputIndex prevScript prevAmount sig pubkey := by
      rw [EcdsaAccepts, EcdsaAccepts, getSighash_setWitness]
    rw [verifyInputSignature, found]
    dsimp only
    rw [if_pos keyHash.classical, written]
    dsimp only
    rw [← accepts, ← verifyEcdsaInput_eq_true]
    cases hasSighashAllType sig with
    | false => simp
    | true =>
        rw [Bool.not_true, if_neg Bool.false_ne_true]
        split_ifs with otherKey
        · constructor
          · intro wrong
            cases wrong
          · rintro ⟨-, -, ofKey, -⟩
            exact absurd otherKey ofKey
        · constructor
          · intro verified
            exact ⟨inside, rfl, otherKey, verified⟩
          · rintro ⟨-, -, -, verified⟩
            exact verified
  · have missing : (tx.setWitness inputIndex [sig, pubkey]).vin[inputIndex]? = none := by
      rw [setWitness, List.getElem?_eq_none]
      rw [List.length_modify]
      omega
    rw [verifyInputSignature, missing]
    simp [inside]

/-- Another signature of the same input that is read as accepted numbers is accepted. -/
theorem AcceptsWitness.reencode (keyHash : IsKeyHashScript prevScript)
    (accepted : AcceptsWitness prim tx inputIndex prevScript prevAmount sig pubkey)
    {sighash der : Bytes} {r s : Nat} (nonempty : der ≠ [])
    (computed : tx.getSighash prim inputIndex prevScript prevAmount = .ok sighash)
    (decoded : decodeDerSignature der = .ok (r, s))
    (verified : prim.ecdsaVerify sighash pubkey r s = true) :
    AcceptsWitness prim tx inputIndex prevScript prevAmount (der ++ [0x01]) pubkey := by
  obtain ⟨inside, -, ofKey, -⟩ := (acceptsWitness_iff keyHash).mp accepted
  refine (acceptsWitness_iff keyHash).mpr
    ⟨inside, hasSighashAllType_append nonempty, ofKey, r, s, sighash, ?_, computed, verified⟩
  rw [List.dropLast_concat, decoded]

end Acceptance

/-! ## Encodings -/

/-- The encoding of two numbers with zeros in front of the first. -/
def paddedDer (zeros r s : Nat) : Bytes :=
  derBytes (List.replicate zeros 0x00 ++ derIntBytes r) (derIntBytes s)

theorem beValue_replicate_zero_append (zeros : Nat) (bytes : Bytes) :
    beValue (List.replicate zeros 0x00 ++ bytes) = beValue bytes := by
  induction zeros with
  | zero => rfl
  | succ zeros ih => rw [List.replicate_succ, List.cons_append, beValue_zero_cons, ih]

/-- The decoder reads past up to a hundred zeros. -/
theorem decodeDerSignature_paddedDer {zeros r s : Nat} (few : zeros ≤ 100) (rSmall : r < 2 ^ 256)
    (sSmall : s < 2 ^ 256) : decodeDerSignature (paddedDer zeros r s) = .ok (r, s) := by
  have rLength := derIntBytes_length rSmall
  have sLength := derIntBytes_length sSmall
  have length : (List.replicate zeros 0x00 ++ derIntBytes r).length =
      zeros + (derIntBytes r).length := by
    rw [List.length_append, List.length_replicate]
  rw [paddedDer, decodeDerSignature_derBytes (by omega) (by omega) (by omega),
    beValue_replicate_zero_append, beValue_derIntBytes, beValue_derIntBytes]

theorem paddedDer_ne_nil (zeros r s : Nat) : paddedDer zeros r s ≠ [] := List.cons_ne_nil _ _

theorem paddedDer_zero_ne_one (r s : Nat) : paddedDer 0 r s ≠ paddedDer 1 r s := by
  intro same
  have lengths := congrArg List.length same
  simp [paddedDer, derBytes_length] at lengths

/-! ## Other witnesses -/

/-- Accepted numbers are in the range of the group. -/
theorem range_of_ecdsaVerify {msgHash pubkey : Bytes} {r s : Nat}
    (verified : ecdsaVerify msgHash pubkey r s = true) : (1 ≤ r ∧ r < N) ∧ 1 ≤ s ∧ s < N := by
  by_contra outside
  rw [ecdsaVerify, if_pos outside, ite_self] at verified
  cases verified

theorem valid_of_privkeyToPubkey {privkeyBytes pubkey : Bytes} {isCompressed : Bool}
    (derived : privkeyToPubkey privkeyBytes isCompressed = .ok pubkey) :
    privkeyBytes.length = 32 ∧ 1 ≤ beValue privkeyBytes ∧ beValue privkeyBytes < N := by
  rw [privkeyToPubkey] at derived
  by_cases length : privkeyBytes.length = 32
  · rw [if_neg (not_not_intro length)] at derived
    by_cases outside : beValue privkeyBytes ≤ 0 ∨ beValue privkeyBytes ≥ N
    · rw [if_pos outside] at derived
      cases derived
    · omega
  · rw [if_pos length] at derived
    cases derived

/-- Under the public key of a scalar the verifier takes `_N - s` for `s`. -/
theorem ecdsaVerify_sub {privkeyBytes pubkey msgHash : Bytes} {isCompressed : Bool} {r s : Nat}
    (derived : privkeyToPubkey privkeyBytes isCompressed = .ok pubkey)
    (verified : ecdsaVerify msgHash pubkey r s = true) :
    ecdsaVerify msgHash pubkey r (N - s) = true := by
  obtain ⟨generator, atG, represents⟩ := exists_represents_G
  obtain ⟨length, positive, below⟩ := valid_of_privkeyToPubkey derived
  obtain ⟨pubkey', p, derived', parsed, key⟩ :=
    exists_pubkey atG represents length positive below isCompressed
  rw [derived] at derived'
  cases derived'
  rw [ecdsaVerify_iff atG represents parsed key] at verified ⊢
  obtain ⟨hashLength, rRange, sRange, equation⟩ := verified
  refine ⟨hashLength, rRange, by omega, equation.neg atG ?_⟩
  rw [Nat.cast_sub sRange.2.le, ZMod.natCast_self, zero_sub]

/-- No accepted witness is the only one: the same numbers have another accepted encoding,
and under the public key of a scalar the opposite `s` is accepted too. -/
theorem acceptsWitness_malleable {prim : Primitives} (verifier : prim.ecdsaVerify = ecdsaVerify)
    {tx : Transaction} {inputIndex prevAmount : Nat} {prevScript sig pubkey : Bytes}
    (keyHash : IsKeyHashScript prevScript)
    (accepted : AcceptsWitness prim tx inputIndex prevScript prevAmount sig pubkey) :
    ∃ r s, decodeDerSignature sig.dropLast = .ok (r, s) ∧
      (∃ sig', sig' ≠ sig ∧ decodeDerSignature sig'.dropLast = .ok (r, s) ∧
        AcceptsWitness prim tx inputIndex prevScript prevAmount sig' pubkey) ∧
      ∀ privkeyBytes isCompressed, privkeyToPubkey privkeyBytes isCompressed = .ok pubkey →
        ∃ sig', decodeDerSignature sig'.dropLast = .ok (r, N - s) ∧
          AcceptsWitness prim tx inputIndex prevScript prevAmount sig' pubkey := by
  obtain ⟨-, -, -, r, s, sighash, decoded, computed, verified⟩ :=
    (acceptsWitness_iff keyHash).mp accepted
  rw [verifier] at verified
  have orderLt : N < 2 ^ 256 := by decide
  have written {zeros s' : Nat} (few : zeros ≤ 100)
      (verified' : ecdsaVerify sighash pubkey r s' = true) :
      decodeDerSignature (paddedDer zeros r s' ++ [0x01]).dropLast = .ok (r, s') ∧
        AcceptsWitness prim tx inputIndex prevScript prevAmount (paddedDer zeros r s' ++ [0x01])
          pubkey := by
    obtain ⟨rRange, sRange⟩ := range_of_ecdsaVerify verified'
    have read := decodeDerSignature_paddedDer few (rRange.2.trans orderLt) (sRange.2.trans orderLt)
    refine ⟨by rw [List.dropLast_concat, read], ?_⟩
    exact accepted.reencode keyHash (paddedDer_ne_nil _ _ _) computed read (verifier ▸ verified')
  refine ⟨r, s, decoded, ?_, ?_⟩
  · -- one of the two encodings is another one
    by_cases canonical : sig = paddedDer 0 r s ++ [0x01]
    · refine ⟨_, ?_, written (by decide : 1 ≤ 100) verified⟩
      rw [canonical]
      intro same
      exact paddedDer_zero_ne_one r s (List.append_cancel_right same).symm
    · exact ⟨_, Ne.symm canonical, written (by decide : 0 ≤ 100) verified⟩
  · intro privkeyBytes isCompressed derived
    exact ⟨_, written (by decide : 0 ≤ 100) (ecdsaVerify_sub derived verified)⟩

/-! ## The sample spend -/

def verifierPrimitives : Primitives :=
  { Primitives.ofDigests signedSpend.digests with
    hash160 := fun _ => sampleKeyHash
    ecdsaVerify := ecdsaVerify }

theorem verifierPrimitives_ecdsaVerify : verifierPrimitives.ecdsaVerify = ecdsaVerify := rfl

def sampleScript : Bytes := [0x00, 0x14] ++ sampleKeyHash

theorem sampleScript_keyHash : IsKeyHashScript sampleScript := ⟨sampleKeyHash, Or.inl rfl⟩

/-- The sample signature was made with the key one and the nonce 12345. -/
theorem signedSpend_ecdsaVerify :
    verifierPrimitives.ecdsaVerify (leBytes 32 signedSpend.sighash) sampleKey signedSpend.r
      signedSpend.s = true := by
  obtain ⟨generator, atG, represents⟩ := exists_represents_G
  have isG : sampleKey = compress G := by decide
  have key : Represents (some G) (1 • generator) := by rwa [one_nsmul]
  have parsed : parsePubkey sampleKey = some G := by rw [isG, parsePubkey_compress represents]
  obtain ⟨pt, multiple, isAt⟩ :=
    exists_pointMul_G atG represents (k := 12345) (by decide) (by decide)
  have abscissa : (pointMul 12345 G).map signatureR = some signedSpend.r := by decide +kernel
  rw [multiple] at abscissa
  rw [verifierPrimitives_ecdsaVerify, ecdsaVerify_iff atG represents parsed key]
  refine ⟨by decide, by decide, by decide, 12345, pt, isAt, Option.some.inj abscissa, ?_⟩
  -- `s * 12345 = z + r` modulo `_N`
  have solved : (signedSpend.s * 12345) % N =
      (beValue (leBytes 32 signedSpend.sighash) + signedSpend.r * 1) % N := by decide
  have cast := (ZMod.natCast_eq_natCast_iff' _ _ N).mpr solved
  push_cast at cast ⊢
  exact cast

theorem signedSpend_getSighash :
    signedSpend.tx.getSighash verifierPrimitives 0 sampleScript (50 * coin) =
      .ok (leBytes 32 signedSpend.sighash) := by
  decide

theorem signedSpend_decoded :
    decodeDerSignature (signedSpend.der ++ [0x01]).dropLast =
      .ok (signedSpend.r, signedSpend.s) := by
  decide

theorem signedSpend_accepted :
    AcceptsWitness verifierPrimitives signedSpend.tx 0 sampleScript (50 * coin)
      (signedSpend.der ++ [0x01]) sampleKey := by
  rw [acceptsWitness_iff sampleScript_keyHash]
  exact ⟨by decide, by decide, fun otherKey => otherKey.1 rfl, signedSpend.r,
    signedSpend.s, _, signedSpend_decoded, signedSpend_getSighash, signedSpend_ecdsaVerify⟩

/-- The sample signature and the same with a zero in front of `r`. -/
theorem signedSpend_reencoded :
    ¬∀ (tx : Transaction) (inputIndex prevAmount : Nat) (prevScript sig pubkey : Bytes)
      (r s : Nat), IsKeyHashScript prevScript → decodeDerSignature sig.dropLast = .ok (r, s) →
        AcceptsWitness verifierPrimitives tx inputIndex prevScript prevAmount sig pubkey →
        ∀ sig', AcceptsWitness verifierPrimitives tx inputIndex prevScript prevAmount sig'
            pubkey →
          (decodeDerSignature sig'.dropLast = .ok (r, s) ∨
            decodeDerSignature sig'.dropLast = .ok (r, N - s)) → sig' = sig := by
  intro unique
  have read : decodeDerSignature (paddedDer 1 signedSpend.r signedSpend.s) =
      .ok (signedSpend.r, signedSpend.s) :=
    decodeDerSignature_paddedDer (by decide) (by decide) (by decide)
  have same := unique signedSpend.tx 0 (50 * coin) sampleScript _ _ signedSpend.r signedSpend.s
    sampleScript_keyHash signedSpend_decoded signedSpend_accepted _
    (signedSpend_accepted.reencode sampleScript_keyHash (paddedDer_ne_nil _ _ _)
      signedSpend_getSighash read signedSpend_ecdsaVerify)
    (Or.inl (by rw [List.dropLast_concat, read]))
  exact absurd same (by decide)

theorem signedSpend_malleable :
    ∃ r s, decodeDerSignature (signedSpend.der ++ [0x01]).dropLast = .ok (r, s) ∧
      (∃ sig', sig' ≠ signedSpend.der ++ [0x01] ∧
        decodeDerSignature sig'.dropLast = .ok (r, s) ∧
        AcceptsWitness verifierPrimitives signedSpend.tx 0 sampleScript (50 * coin) sig'
          sampleKey) ∧
      ∀ privkeyBytes isCompressed, privkeyToPubkey privkeyBytes isCompressed = .ok sampleKey →
        ∃ sig', decodeDerSignature sig'.dropLast = .ok (r, N - s) ∧
          AcceptsWitness verifierPrimitives signedSpend.tx 0 sampleScript (50 * coin) sig'
            sampleKey :=
  acceptsWitness_malleable verifierPrimitives_ecdsaVerify sampleScript_keyHash signedSpend_accepted

end QuantyCoin
