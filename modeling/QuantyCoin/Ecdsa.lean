import QuantyCoin.HdDerivation

/-!
# ECDSA

`ecdsa_sign` and `ecdsa_verify` of `crypto/secp256k1.py`.  For the public key of a scalar
`d` the verifier decides whether `s * k = z + r * d` modulo `_N` for a nonce `k` whose
point has the abscissa `r`.  The signer solves this equation for `s`, and its solutions
come in pairs `s` and `_N - s`.
-/

namespace QuantyCoin

open ByteDecoder PrimeCertificate Secp256k1 ShortWeierstrass

/-! ## Signing -/

section Nonces

variable (hmacSha256 : Bytes → Bytes → Bytes)

/-- The `while True` loop of `_rfc6979_nonce`: a number out of range renews the key. -/
def rfc6979Loop : Nat → Bytes → Bytes → Option Nat
  | 0, _, _ => none
  | fuel + 1, key, value =>
      let value := hmacSha256 key value
      let k := beValue value
      if 1 ≤ k ∧ k < N then some k
      else
        let key := hmacSha256 key (value ++ [0x00])
        rfc6979Loop fuel key (hmacSha256 key value)

/-- `_rfc6979_nonce`, as far as the fuel reaches. -/
def rfc6979Nonce (fuel : Nat) (msgHash privkeyBytes : Bytes) : Option Nat :=
  let value := List.replicate 32 0x01
  let key := List.replicate 32 0x00
  let key := hmacSha256 key (value ++ [0x00] ++ privkeyBytes ++ msgHash)
  let value := hmacSha256 key value
  let key := hmacSha256 key (value ++ [0x01] ++ privkeyBytes ++ msgHash)
  rfc6979Loop hmacSha256 fuel key (hmacSha256 key value)

variable {hmacSha256}

theorem rfc6979Loop_range {fuel k : Nat} {key value : Bytes}
    (returned : rfc6979Loop hmacSha256 fuel key value = some k) : 1 ≤ k ∧ k < N := by
  induction fuel generalizing key value with
  | zero => cases returned
  | succ fuel ih =>
      rw [rfc6979Loop] at returned
      dsimp only at returned
      split_ifs at returned with inRange
      · cases returned
        exact inRange
      · exact ih returned

/-- A nonce that is returned is in the range of the group. -/
theorem rfc6979Nonce_range {fuel k : Nat} {msgHash privkeyBytes : Bytes}
    (returned : rfc6979Nonce hmacSha256 fuel msgHash privkeyBytes = some k) : 1 ≤ k ∧ k < N :=
  rfc6979Loop_range returned

end Nonces

/-- `pt[0] % _N`. -/
def signatureR (pt : Int × Int) : Nat := (pt.1 % N).toNat

/-- `(k_inv * (z + r * d)) % _N`. -/
def signatureS (k z r d : Nat) : Nat := (modInverse k N * (z + r * d) % N).toNat

section Signing

variable (sha256 : Bytes → Bytes) (nonce : Bytes → Bytes → Nat)

/-- `ecdsa_sign` with any generator of nonces.  When a part of the signature is zero it
calls itself with another hash, and the interpreter bounds the depth of these calls. -/
def ecdsaSign : Nat → Bytes → Bytes → Except PyException (Nat × Nat)
  | 0, _, _ => .error (.runtimeError "maximum recursion depth exceeded")
  | depth + 1, msgHash, privkeyBytes =>
      if msgHash.length ≠ 32 ∨ privkeyBytes.length ≠ 32 then
        .error (.valueError "Message hash and private key must be exactly 32 bytes")
      else
        let z := beValue msgHash
        let d := beValue privkeyBytes
        if d ≤ 0 ∨ d ≥ N then .error (.valueError "Invalid private key scalar")
        else
          let k := nonce msgHash privkeyBytes
          match pointMul k G with
          | none => .error (.assertionError "")
          | some pt =>
              let r := signatureR pt
              if r = 0 then ecdsaSign depth (sha256 (msgHash ++ [0x31])) privkeyBytes
              else
                let s := signatureS k z r d
                if s = 0 then ecdsaSign depth (sha256 (msgHash ++ [0x32])) privkeyBytes
                else .ok (r, if s > N / 2 then N - s else s)

end Signing

/-! ## Verifying -/

/-- The `try` block of `ecdsa_verify`: the point of a compressed or an uncompressed key. -/
def parsePubkey : Bytes → Option (Int × Int)
  | [] => none
  | first :: rest =>
      if rest.length = 32 ∧ (first = 0x02 ∨ first = 0x03) then
        let px := beValue rest
        let ySq := (powMod P px 3 + 7) % P
        let py := powMod P ySq ((P + 1) / 4)
        if powMod P py 2 ≠ ySq then none
        else some (px, HDKey.decompressOrdinate px first.toNat)
      else if rest.length = 64 ∧ first = 0x04 then
        let px := beValue (rest.take 32)
        let py := beValue (rest.drop 32)
        if ((powMod P py 2 : Int) - (powMod P px 3 + 7)) % P ≠ 0 then none
        else some (px, py)
      else none

/-- `res` of `ecdsa_verify`: the point `u1 * _G + u2 * pub_pt`. -/
def recoverPoint (z r s : Nat) (pubPt : Int × Int) : Option (Int × Int) :=
  let w := modInverse s N
  let u1 := (z * w % N).toNat
  let u2 := (r * w % N).toNat
  pointAdd (pointMul u1 G) (pointMul u2 pubPt)

def ecdsaVerify (msgHash pubkeyBytes : Bytes) (r s : Nat) : Bool :=
  if msgHash.length ≠ 32 then false
  else if ¬((1 ≤ r ∧ r < N) ∧ 1 ≤ s ∧ s < N) then false
  else
    match parsePubkey pubkeyBytes with
    | none => false
    | some pubPt => (recoverPoint (beValue msgHash) r s pubPt).any fun res => signatureR res = r

/-! ## Public keys -/

/-- The uncompressed form of a point. -/
def uncompressed (p : Int × Int) : Bytes :=
  0x04 :: (toBytesBig 32 p.1.toNat ++ toBytesBig 32 p.2.toNat)

theorem privkeyToPubkey_of_pointMul {privkeyBytes : Bytes} (length : privkeyBytes.length = 32)
    (positive : 1 ≤ beValue privkeyBytes) (below : beValue privkeyBytes < N) {p : Int × Int}
    (multiple : pointMul (beValue privkeyBytes) G = some p) (isCompressed : Bool) :
    privkeyToPubkey privkeyBytes isCompressed =
      .ok (if isCompressed then compress p else uncompressed p) := by
  rw [privkeyToPubkey, if_neg (fun wrong => wrong length), if_neg (by omega), multiple]
  cases isCompressed <;> rfl

theorem beValue_coordinate {x : Int} (reduced : Reduced x) :
    beValue (toBytesBig 32 x.toNat) = x.toNat :=
  beValue_toBytesBig (lt_trans reduced.toNat_lt (by decide))

/-- The verifier finds a root of the square of the ordinate. -/
theorem powMod_root {x y : Int} {point : Point} (represents : Represents (some (x, y)) point) :
    powMod P (powMod P ((powMod P x.toNat 3 + 7) % P) ((P + 1) / 4)) 2 =
      (powMod P x.toNat 3 + 7) % P := by
  have square := cast_ordinate_sq represents
  have same : ((powMod P (powMod P ((powMod P x.toNat 3 + 7) % P) ((P + 1) / 4)) 2 : Nat) :
      ZMod P) = (((powMod P x.toNat 3 + 7) % P : Nat) : ZMod P) := by
    rw [cast_powMod (by decide) dvd_rfl, cast_powMod (by decide) dvd_rfl, square]
    rcases root_eq_or_neg (y : ZMod P) with root | root
    · rw [root]
    · rw [root, neg_sq]
  have congruent := (ZMod.natCast_eq_natCast_iff' _ _ P).mp same
  rwa [Nat.mod_mod, powMod_eq (by decide), Nat.mod_mod, ← powMod_eq (by decide)] at congruent

theorem parsePubkey_compress {p : Int × Int} {point : Point}
    (represents : Represents (some p) point) : parsePubkey (compress p) = some p := by
  obtain ⟨x, y⟩ := p
  have ordinate := decompressOrdinate_eq represents
  have root := powMod_root represents
  obtain ⟨xReduced, yReduced, -⟩ := represents
  have known : parityPrefix y = 0x02 ∨ parityPrefix y = 0x03 := by
    rw [parityPrefix]
    split
    · exact Or.inl rfl
    · exact Or.inr rfl
  rw [compress, parsePubkey, if_pos ⟨toBytesBig_length 32 _, known⟩]
  dsimp only at xReduced yReduced ⊢
  rw [beValue_coordinate xReduced, if_neg (not_not_intro root), ordinate,
    Int.toNat_of_nonneg xReduced.nonneg, Int.toNat_of_nonneg yReduced.nonneg]

theorem parsePubkey_uncompressed {p : Int × Int} {point : Point}
    (represents : Represents (some p) point) : parsePubkey (uncompressed p) = some p := by
  obtain ⟨x, y⟩ := p
  have square := cast_ordinate_sq represents
  obtain ⟨xReduced, yReduced, -⟩ := represents
  dsimp only at xReduced yReduced
  have length : (toBytesBig 32 x.toNat ++ toBytesBig 32 y.toNat).length = 64 := by
    rw [List.length_append, toBytesBig_length, toBytesBig_length]
  have px : (toBytesBig 32 x.toNat ++ toBytesBig 32 y.toNat).take 32 = toBytesBig 32 x.toNat :=
    List.take_left' (toBytesBig_length 32 _)
  have py : (toBytesBig 32 x.toNat ++ toBytesBig 32 y.toNat).drop 32 = toBytesBig 32 y.toNat :=
    List.drop_left' (toBytesBig_length 32 _)
  have onCurve : ((powMod P y.toNat 2 : Int) - (powMod P x.toNat 3 + 7)) % P = 0 := by
    apply Int.emod_eq_zero_of_dvd
    rw [← ZMod.intCast_zmod_eq_zero_iff_dvd]
    rw [ZMod.natCast_mod] at square
    push_cast at square ⊢
    rw [square, cast_powMod (by decide) dvd_rfl, yReduced.cast_toNat, sub_self]
  rw [uncompressed, parsePubkey, if_neg (by rw [length]; decide), if_pos ⟨length, rfl⟩]
  dsimp only
  rw [px, py, beValue_coordinate xReduced, beValue_coordinate yReduced,
    if_neg (not_not_intro onCurve), Int.toNat_of_nonneg xReduced.nonneg,
    Int.toNat_of_nonneg yReduced.nonneg]

/-! ## The equation of a signature -/

instance : Fact N.Prime := ⟨prime_N⟩

theorem cast_toNat_emod (a : Int) : (((a % N).toNat : Nat) : ZMod N) = a := by
  rw [← Int.cast_natCast, Int.toNat_of_nonneg (Int.emod_nonneg a (by decide)), ZMod.intCast_mod]

theorem toNat_emod_lt (a : Int) : (a % N).toNat < N := by
  have positive : (0 : Int) < N := by decide
  have nonneg := Int.emod_nonneg a positive.ne'
  have below := Int.emod_lt_of_pos a positive
  omega

theorem scalar_ne_zero {s : Nat} (positive : 1 ≤ s) (below : s < N) : (s : ZMod N) ≠ 0 := by
  rw [Ne, ZMod.natCast_eq_zero_iff]
  intro divides
  exact absurd (Nat.le_of_dvd positive divides) (by omega)

theorem modInverse_N_mul {s : Nat} (positive : 1 ≤ s) (below : s < N) :
    (modInverse s N : ZMod N) * s = 1 := by
  have coprime : Nat.Coprime s N :=
    (Nat.coprime_of_lt_prime (by omega) below prime_N).symm
  have inverse := modInverse_mul (by decide : 0 < N) (by simpa [Int.gcd] using coprime :
    Int.gcd (s : Int) N = 1)
  rwa [Int.cast_natCast] at inverse

/-- `s * k = z + r * d` for a nonce whose point has the abscissa `r`. -/
def SignatureEquation (generator : Point) (z d r s : Nat) : Prop :=
  ∃ (k : Nat) (pt : Int × Int), Represents (some pt) (k • generator) ∧ signatureR pt = r ∧
    (s : ZMod N) * k = z + r * d

section Equation

variable {generator : Point} (atG : IsAt generator (Gx : ZMod P) (Gy : ZMod P))

include atG in
theorem nsmul_generator_congr {j k : Nat} (same : (j : ZMod N) = k) :
    j • generator = k • generator := by
  rw [nsmul_eq_nsmul_iff_modEq, addOrderOf_generator atG]
  exact (ZMod.natCast_eq_natCast_iff j k N).mp same

theorem Secp256k1.Represents.neg {x y : Int} {point : Point}
    (represents : Represents (some (x, y)) point) :
    Represents (some (x, -y % P)) (-point) := by
  obtain ⟨xReduced, -, isAt⟩ := represents
  refine ⟨xReduced, reduced_emod _, ?_⟩
  dsimp only
  rw [cast_emod, Int.cast_neg]
  exact isAt.neg

include atG in
/-- The opposite point has the same abscissa, so that the opposite number solves the same
equation. -/
theorem SignatureEquation.neg {z d r s s' : Nat} (equation : SignatureEquation generator z d r s)
    (opposite : (s' : ZMod N) = -s) : SignatureEquation generator z d r s' := by
  obtain ⟨k, ⟨x, y⟩, represents, sameR, solved⟩ := equation
  have cast : (((N - 1) * k : Nat) : ZMod N) = -k := by
    rw [Nat.cast_mul, Nat.cast_sub (by decide), ZMod.natCast_self, Nat.cast_one, zero_sub,
      neg_one_mul]
  have multiple : ((N - 1) * k) • generator = -(k • generator) := by
    rw [eq_neg_iff_add_eq_zero, ← add_nsmul, nsmul_generator_eq_zero_iff atG,
      ← ZMod.natCast_eq_zero_iff, Nat.cast_add, cast, neg_add_cancel]
  refine ⟨(N - 1) * k, (x, -y % P), ?_, sameR, ?_⟩
  · rw [multiple]
    exact Secp256k1.Represents.neg represents
  · rw [opposite, cast, neg_mul_neg, solved]

variable (represents : Represents (some G) generator)

include represents in
/-- With the key of a scalar the verifier finds the nonce. -/
theorem recoverPoint_represents {p : Int × Int} {z d r s : Nat}
    (key : Represents (some p) (d • generator)) (positive : 1 ≤ s) (below : s < N) :
    ∃ k : Nat, Represents (recoverPoint z r s p) (k • generator) ∧
      (s : ZMod N) * k = z + r * d := by
  have first := pointMul_represents represents (z * modInverse s N % N).toNat
  have second := pointMul_represents key (r * modInverse s N % N).toNat
  have sum := pointAdd_represents first second
  rw [Nat.mod_eq_of_lt (toNat_emod_lt _), Nat.mod_eq_of_lt (toNat_emod_lt _), ← mul_nsmul',
    ← add_nsmul] at sum
  refine ⟨_, sum, ?_⟩
  have inverse := modInverse_N_mul positive below
  rw [Nat.cast_add, Nat.cast_mul, cast_toNat_emod, cast_toNat_emod]
  push_cast
  linear_combination (z + r * d : ZMod N) * inverse

theorem ecdsaVerify_eq_true_iff {msgHash pubkey : Bytes} {p : Int × Int} {r s : Nat}
    (parsed : parsePubkey pubkey = some p) :
    ecdsaVerify msgHash pubkey r s = true ↔ msgHash.length = 32 ∧ (1 ≤ r ∧ r < N) ∧
      (1 ≤ s ∧ s < N) ∧
        ∃ pt, recoverPoint (beValue msgHash) r s p = some pt ∧ signatureR pt = r := by
  rw [ecdsaVerify, parsed]
  by_cases length : msgHash.length = 32
  · by_cases inRange : (1 ≤ r ∧ r < N) ∧ 1 ≤ s ∧ s < N
    · rw [if_neg (not_not_intro length), if_neg (not_not_intro inRange)]
      simp [length, inRange, Option.any_eq_true]
    · rw [if_neg (not_not_intro length), if_pos inRange]
      simp only [Bool.false_eq_true, false_iff]
      rintro ⟨-, rRange, sRange, -⟩
      exact inRange ⟨rRange, sRange⟩
  · rw [if_pos length]
    simp [length]

include atG represents in
/-- What the verifier decides for the public key of a scalar. -/
theorem ecdsaVerify_iff {msgHash pubkey : Bytes} {p : Int × Int} {d r s : Nat}
    (parsed : parsePubkey pubkey = some p) (key : Represents (some p) (d • generator)) :
    ecdsaVerify msgHash pubkey r s = true ↔ msgHash.length = 32 ∧ (1 ≤ r ∧ r < N) ∧
      (1 ≤ s ∧ s < N) ∧ SignatureEquation generator (beValue msgHash) d r s := by
  rw [ecdsaVerify_eq_true_iff parsed]
  refine and_congr_right fun _ => and_congr_right fun _ => and_congr_right fun sRange => ?_
  obtain ⟨k, found, solved⟩ :=
    @recoverPoint_represents generator represents p (beValue msgHash) d r s key sRange.1
      sRange.2
  constructor
  · rintro ⟨pt, recovered, sameR⟩
    rw [recovered] at found
    exact ⟨k, pt, found, sameR, solved⟩
  · rintro ⟨k', pt, found', sameR, solved'⟩
    -- two solutions of the equation are the same nonce
    have same : (k : ZMod N) = k' :=
      mul_left_cancel₀ (scalar_ne_zero sRange.1 sRange.2) (solved.trans solved'.symm)
    rw [nsmul_generator_congr atG same] at found
    exact ⟨pt, found.unique found', sameR⟩

/-! ## Signatures are accepted -/

include atG represents in
/-- The public keys of a scalar stand for its multiple of the generator. -/
theorem exists_pubkey {privkeyBytes : Bytes} (length : privkeyBytes.length = 32)
    (positive : 1 ≤ beValue privkeyBytes) (below : beValue privkeyBytes < N)
    (isCompressed : Bool) :
    ∃ pubkey p, privkeyToPubkey privkeyBytes isCompressed = .ok pubkey ∧
      parsePubkey pubkey = some p ∧
        Represents (some p) (beValue privkeyBytes • generator) := by
  obtain ⟨p, multiple, key⟩ := exists_pointMul_G atG represents positive below
  refine ⟨_, p, privkeyToPubkey_of_pointMul length positive below multiple isCompressed, ?_, key⟩
  cases isCompressed with
  | false => exact parsePubkey_uncompressed key
  | true => exact parsePubkey_compress key

variable {sha256 : Bytes → Bytes} {nonce : Bytes → Bytes → Nat}

theorem signatureS_mul {k z r d : Nat} (positive : 1 ≤ k) (below : k < N) :
    (signatureS k z r d : ZMod N) * k = z + r * d := by
  have inverse := modInverse_N_mul positive below
  rw [signatureS, cast_toNat_emod]
  push_cast
  linear_combination (z + r * d : ZMod N) * inverse

include atG represents in
/-- The signer solves the equation, with the smaller of the two solutions. -/
theorem ecdsaSign_equation {msgHash privkeyBytes : Bytes} (hashLength : msgHash.length = 32)
    (keyLength : privkeyBytes.length = 32) (positive : 1 ≤ beValue privkeyBytes)
    (below : beValue privkeyBytes < N)
    (nonceRange : 1 ≤ nonce msgHash privkeyBytes ∧ nonce msgHash privkeyBytes < N)
    (nonzero : ∀ pt, pointMul (nonce msgHash privkeyBytes) G = some pt → signatureR pt ≠ 0 ∧
      signatureS (nonce msgHash privkeyBytes) (beValue msgHash) (signatureR pt)
        (beValue privkeyBytes) ≠ 0) (depth : Nat) :
    ∃ r s, ecdsaSign sha256 nonce (depth + 1) msgHash privkeyBytes = .ok (r, s) ∧
      (1 ≤ r ∧ r < N) ∧ (1 ≤ s ∧ s ≤ N / 2) ∧
        SignatureEquation generator (beValue msgHash) (beValue privkeyBytes) r s := by
  obtain ⟨pt, multiple, isAt⟩ := exists_pointMul_G atG represents nonceRange.1 nonceRange.2
  obtain ⟨rNonzero, sNonzero⟩ := nonzero pt multiple
  have solved := @signatureS_mul _ (beValue msgHash) (signatureR pt) (beValue privkeyBytes)
    nonceRange.1 nonceRange.2
  have sBelow : signatureS (nonce msgHash privkeyBytes) (beValue msgHash) (signatureR pt)
      (beValue privkeyBytes) < N := toNat_emod_lt _
  have equation : SignatureEquation generator (beValue msgHash) (beValue privkeyBytes)
      (signatureR pt) _ := ⟨_, pt, isAt, rfl, solved⟩
  rw [ecdsaSign, if_neg (by omega), if_neg (by omega)]
  dsimp only
  rw [multiple]
  dsimp only
  rw [if_neg rNonzero, if_neg sNonzero]
  generalize signatureS (nonce msgHash privkeyBytes) (beValue msgHash) (signatureR pt)
    (beValue privkeyBytes) = s at sNonzero sBelow equation ⊢
  refine ⟨signatureR pt, _, rfl, ⟨by omega, toNat_emod_lt _⟩, ?_, ?_⟩
  · split_ifs <;> omega
  · split_ifs with high
    · apply equation.neg atG
      rw [Nat.cast_sub sBelow.le, ZMod.natCast_self, zero_sub]
    · exact equation

end Equation

/-- Signatures are accepted with both forms of the public key, and `s` is low. -/
theorem ecdsaSign_accepted {sha256 : Bytes → Bytes} {nonce : Bytes → Bytes → Nat}
    {msgHash privkeyBytes : Bytes} (hashLength : msgHash.length = 32)
    (keyLength : privkeyBytes.length = 32) (positive : 1 ≤ beValue privkeyBytes)
    (below : beValue privkeyBytes < N)
    (nonceRange : 1 ≤ nonce msgHash privkeyBytes ∧ nonce msgHash privkeyBytes < N)
    (nonzero : ∀ pt, pointMul (nonce msgHash privkeyBytes) G = some pt → signatureR pt ≠ 0 ∧
      signatureS (nonce msgHash privkeyBytes) (beValue msgHash) (signatureR pt)
        (beValue privkeyBytes) ≠ 0) (depth : Nat) :
    ∃ r s, ecdsaSign sha256 nonce (depth + 1) msgHash privkeyBytes = .ok (r, s) ∧
      s ≤ N / 2 ∧ ∀ isCompressed, ∃ pubkey,
        privkeyToPubkey privkeyBytes isCompressed = .ok pubkey ∧
          ecdsaVerify msgHash pubkey r s = true := by
  obtain ⟨generator, atG, represents⟩ := exists_represents_G
  obtain ⟨r, s, signed, rRange, sRange, equation⟩ := ecdsaSign_equation atG represents hashLength
    keyLength positive below nonceRange nonzero depth
  have low : s < N := lt_of_le_of_lt sRange.2 (by decide)
  refine ⟨r, s, signed, sRange.2, ?_⟩
  intro isCompressed
  obtain ⟨pubkey, p, derived, parsed, key⟩ :=
    exists_pubkey atG represents keyLength positive below isCompressed
  exact ⟨pubkey, derived, (ecdsaVerify_iff atG represents parsed key).mpr
    ⟨hashLength, rRange, ⟨sRange.1, low⟩, equation⟩⟩

/-- The key and the nonce one sign the hash zero. -/
theorem ecdsaSign_one :
    ∃ r s, ecdsaSign (fun _ => List.replicate 32 0) (fun _ _ => 1) 1 (List.replicate 32 0)
        (toBytesBig 32 1) = .ok (r, s) ∧
      s ≤ N / 2 ∧ ∀ isCompressed, ∃ pubkey,
        privkeyToPubkey (toBytesBig 32 1) isCompressed = .ok pubkey ∧
          ecdsaVerify (List.replicate 32 0) pubkey r s = true := by
  refine ecdsaSign_accepted rfl rfl (by decide) (by decide) (by decide) ?_ 0
  intro pt found
  have atG : pt = G := (Option.some.inj found).symm
  rw [atG]
  decide

end QuantyCoin
