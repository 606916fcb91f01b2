import QuantyCoin.TransactionSigning

/-!
# DER signatures

An encoded signature has single length bytes in the short form, and the decoder reads back
both integers from it.
-/

namespace QuantyCoin

/-- A length byte of the short form. -/
structure ShortLength (byte : UInt8) (length : Nat) : Prop where
  short : byte.toNat < 128
  value : byte.toNat = length

theorem ShortLength.of_lt {length : Nat} (small : length < 128) :
    ShortLength (UInt8.ofNat length) length := by
  have value : (UInt8.ofNat length).toNat = length :=
    UInt8.toNat_ofNat_of_lt' (Nat.lt_of_lt_of_le small (by decide))
  exact ⟨value.symm ▸ small, value⟩

/-- A sequence of two integers whose lengths are all short. -/
structure ShortDer (der : Bytes) : Prop where
  parts : ∃ total rLength sLength rBytes sBytes,
    der = 0x30 :: total :: 0x02 :: rLength :: (rBytes ++ 0x02 :: sLength :: sBytes) ∧
      ShortLength total (der.length - 2) ∧ ShortLength rLength rBytes.length ∧
      ShortLength sLength sBytes.length
  long : 8 ≤ der.length

theorem shortDer_derBytes {raw raw' : Bytes} (nonempty : 1 ≤ raw.length)
    (nonempty' : 1 ≤ raw'.length) (short : raw.length + raw'.length + 4 < 128) :
    ShortDer (derBytes raw raw') where
  parts := by
    refine ⟨_, _, _, raw, raw', rfl, ?_, .of_lt (by omega), .of_lt (by omega)⟩
    rw [derBytes_length, Nat.add_sub_cancel]
    exact .of_lt short
  long := by
    rw [derBytes_length]
    omega

/-- Decoding an encoded signature gives both integers back. -/
theorem derSignature_roundTrip {r s : Nat} (rSmall : r < 2 ^ 256) (sSmall : s < 2 ^ 256) :
    ∃ der, encodeDerSignature r s = .ok der ∧ ShortDer der ∧
      decodeDerSignature der = .ok (r, s) := by
  obtain ⟨rNonempty, rLength⟩ := derIntBytes_length rSmall
  obtain ⟨sNonempty, sLength⟩ := derIntBytes_length sSmall
  refine ⟨_, encodeDerSignature_eq rSmall sSmall,
    shortDer_derBytes rNonempty sNonempty (by omega), ?_⟩
  rw [decodeDerSignature_derBytes (by omega) rNonempty sNonempty, beValue_derIntBytes,
    beValue_derIntBytes]

/-- Zero takes one byte, and a leading byte from `0x80` on is padded. -/
theorem derSignature_roundTrip_zero :
    (∃ der, encodeDerSignature 0 128 = .ok der ∧ ShortDer der ∧
      decodeDerSignature der = .ok (0, 128)) ∧
    encodeDerSignature 0 128 = .ok [0x30, 7, 0x02, 1, 0, 0x02, 2, 0, 128] :=
  ⟨derSignature_roundTrip (by decide) (by decide), by decide⟩

end QuantyCoin
