import QuantyCoin.Secp256k1Group

/-!
# Hierarchical key derivation

`HDKey` from `crypto/bip32_44.py`: a private node adds scalars modulo `_N`, a
public node decompresses its point and adds points.  For indices that are not
hardened both lead to the same public child, or both raise.
-/

namespace QuantyCoin

open ByteDecoder PrimeCertificate Secp256k1 ShortWeierstrass

structure HDKey where
  key : Bytes
  chainCode : Bytes
  depth : Nat
  index : Int
  parentFingerprint : Bytes
  isPrivate : Bool
  deriving DecidableEq

/-- `index.to_bytes(4, 'big')`. -/
def indexBytes (index : Int) : Except PyException Bytes :=
  if index < 0 then .error (.overflowError "can't convert negative int to unsigned")
  else if index ≥ 2 ^ 32 then .error (.overflowError "int too big to convert")
  else .ok (toBytesBig 4 index.toNat)

namespace HDKey

def getPublicKey (node : HDKey) : Except PyException Bytes :=
  if node.isPrivate then privkeyToPubkey node.key true else .ok node.key

/-- The root of the square of an ordinate, with the parity the prefix asks for. -/
def decompressOrdinate (px : Nat) (first : Nat) : Nat :=
  let ySq := (powMod P px 3 + 7) % P
  let py := powMod P ySq ((P + 1) / 4)
  if (py % 2 = 0 ∧ first ≠ 0x02) ∨ (py % 2 ≠ 0 ∧ first ≠ 0x03) then P - py else py

section Derivation

variable (hmacSha512 : Bytes → Bytes → Bytes) (hash160 : Bytes → Bytes)

def getFingerprint (node : HDKey) : Except PyException Bytes :=
  node.getPublicKey.map fun pubkey => (hash160 pubkey).take 4

/-- The branch of `derive_child` for a private node. -/
def derivePrivate (node : HDKey) (index : Int) : Except PyException HDKey := do
  let start ← if index ≥ 0x80000000 then .ok (0x00 :: node.key) else node.getPublicKey
  let suffix ← indexBytes index
  let digest := hmacSha512 node.chainCode (start ++ suffix)
  let childKeyInt := (beValue (digest.take 32) + beValue node.key) % N
  if childKeyInt = 0 then
    .error (.valueError "Derived key scalar is zero, try next index")
  else
    let fingerprint ← node.getFingerprint hash160
    .ok ⟨toBytesBig 32 childKeyInt, digest.drop 32, node.depth + 1, index, fingerprint, true⟩

/-- The branch of `derive_child` for a public node. -/
def derivePublic (node : HDKey) (index : Int) : Except PyException HDKey :=
  if index ≥ 0x80000000 then
    .error (.valueError "Cannot derive hardened child from public key")
  else do
    let suffix ← indexBytes index
    let digest := hmacSha512 node.chainCode (node.key ++ suffix)
    let pIl := pointMul (beValue (digest.take 32)) G
    let px := beValue (node.key.drop 1)
    let first ← byteAt node.key 0
    let py := decompressOrdinate px first
    match pointAdd pIl (some (px, py)) with
    | none => .error (.assertionError "")
    | some (x, y) =>
        let fingerprint ← node.getFingerprint hash160
        .ok ⟨parityPrefix y :: toBytesBig 32 x.toNat, digest.drop 32, node.depth + 1, index,
          fingerprint, false⟩

def deriveChild (node : HDKey) (index : Int) : Except PyException HDKey :=
  if node.isPrivate then node.derivePrivate hmacSha512 hash160 index
  else node.derivePublic hmacSha512 hash160 index

end Derivation

/-- The public node of a node: the compressed key in place of the private one. -/
def toPublic (node : HDKey) : Except PyException HDKey :=
  node.getPublicKey.map fun pubkey => { node with key := pubkey, isPrivate := false }

end HDKey

/-! ## Compressed points -/

/-- The compressed form of a point. -/
def compress (p : Int × Int) : Bytes := parityPrefix p.2 :: toBytesBig 32 p.1.toNat

theorem Secp256k1.Reduced.toNat_lt {x : Int} (reduced : Reduced x) : x.toNat < P := by
  have lt := reduced.lt
  have nonneg := reduced.nonneg
  omega

theorem Secp256k1.Reduced.cast_toNat {x : Int} (reduced : Reduced x) :
    ((x.toNat : Nat) : ZMod P) = (x : ZMod P) := by
  rw [← Int.cast_natCast, Int.toNat_of_nonneg reduced.nonneg]

/-- A square root modulo `_P`, which is three modulo four. -/
theorem root_eq_or_neg (y : ZMod P) :
    (y ^ 2) ^ ((P + 1) / 4) = y ∨ (y ^ 2) ^ ((P + 1) / 4) = -y := by
  rw [← sq_eq_sq_iff_eq_or_eq_neg]
  have fermat := ZMod.pow_card y
  rw [← pow_mul, ← pow_mul, show 2 * ((P + 1) / 4 * 2) = P + 1 by decide, pow_succ, fermat, sq]

theorem cast_ordinate_sq {x y : Int} {point : Point}
    (represents : Represents (some (x, y)) point) :
    (((powMod P x.toNat 3 + 7) % P : Nat) : ZMod P) = (y : ZMod P) ^ 2 := by
  obtain ⟨xReduced, -, isAt⟩ := represents
  dsimp only at xReduced isAt
  rw [ZMod.natCast_mod, Nat.cast_add, cast_powMod (by decide) dvd_rfl, xReduced.cast_toNat,
    isAt.equation]
  rfl

theorem decompressOrdinate_eq {x y : Int} {point : Point}
    (represents : Represents (some (x, y)) point) :
    HDKey.decompressOrdinate x.toNat (parityPrefix y).toNat = y.toNat := by
  have square := cast_ordinate_sq represents
  obtain ⟨xReduced, yReduced, isAt⟩ := represents
  dsimp only at xReduced yReduced isAt
  have rootLt : powMod P ((powMod P x.toNat 3 + 7) % P) ((P + 1) / 4) < P := by
    rw [powMod_eq (by decide)]
    exact Nat.mod_lt _ (by decide)
  have root := @cast_powMod P P (by decide) dvd_rfl ((powMod P x.toNat 3 + 7) % P) ((P + 1) / 4)
  rw [square] at root
  rw [HDKey.decompressOrdinate]
  generalize powMod P ((powMod P x.toNat 3 + 7) % P) ((P + 1) / 4) = py at rootLt root ⊢
  have nonneg := yReduced.nonneg
  have lt := yReduced.lt
  have rootReduced : Reduced (py : Int) := ⟨by omega, by omega⟩
  have nonzero : y ≠ 0 := by
    rintro rfl
    exact ordinate_ne_zero isAt Int.cast_zero
  have odd : P % 2 = 1 := by decide
  have choices : (py : Int) = y ∨ (py : Int) = P - y := by
    rcases root_eq_or_neg (y : ZMod P) with same | opposite
    · left
      apply (rootReduced.cast_inj yReduced).mp
      rw [Int.cast_natCast, root, same]
    · right
      apply (rootReduced.cast_inj ⟨by omega, by omega⟩).mp
      rw [Int.cast_natCast, root, opposite, Int.cast_sub, Int.cast_natCast, ZMod.natCast_self,
        zero_sub]
  have first : (parityPrefix y).toNat = if y % 2 = 0 then 0x02 else 0x03 := by
    rw [parityPrefix]
    split <;> rfl
  rw [first]
  split_ifs <;> omega

/-! ## Both derivations -/

section Agreement

variable {generator : Point} (atG : IsAt generator (Gx : ZMod P) (Gy : ZMod P))
  (represents : Represents (some G) generator)

include atG in
theorem nsmul_generator_eq_zero_iff (k : Nat) : k • generator = 0 ↔ N ∣ k := by
  rw [← addOrderOf_generator atG, addOrderOf_dvd_iff_nsmul_eq_zero]

include atG in
theorem mod_nsmul_generator (k : Nat) : (k % N) • generator = k • generator := by
  rw [← addOrderOf_generator atG, mod_addOrderOf_nsmul]

include atG represents in
theorem exists_pointMul_G {k : Nat} (positive : 1 ≤ k) (below : k < N) :
    ∃ p, pointMul k G = some p ∧ Represents (some p) (k • generator) := by
  have multiple := pointMul_represents represents k
  rw [Nat.mod_eq_of_lt below] at multiple
  cases found : pointMul k G with
  | none =>
      rw [found] at multiple
      have divides := (nsmul_generator_eq_zero_iff atG k).mp multiple
      exact absurd (Nat.le_of_dvd positive divides) (by omega)
  | some p =>
      rw [found] at multiple
      exact ⟨p, rfl, multiple⟩

end Agreement

namespace HDKey

/-- A private node whose scalar is in the range of the group. -/
structure ValidPrivate (node : HDKey) : Prop where
  isPrivate : node.isPrivate = true
  length : node.key.length = 32
  positive : 1 ≤ beValue node.key
  below : beValue node.key ≤ N - 1

theorem getPublicKey_of_pointMul {node : HDKey} (valid : node.ValidPrivate) {p : Int × Int}
    (multiple : pointMul (beValue node.key) G = some p) :
    node.getPublicKey = .ok (compress p) := by
  have positive := valid.positive
  have below := valid.below
  have order : 0 < N := by decide
  rw [getPublicKey, if_pos valid.isPrivate, privkeyToPubkey,
    if_neg (fun wrong => wrong valid.length), if_neg (by omega), multiple]
  rfl

variable {hmacSha512 : Bytes → Bytes → Bytes} {hash160 : Bytes → Bytes}

/-- The point of a public node is read back from its compressed form. -/
theorem derivePublic_compress {node : HDKey} {p : Int × Int} {point : Point}
    (represents : Represents (some p) point) (isKey : node.key = compress p)
    (isPublic : node.isPrivate = false) {index : Int} (normal : index < 0x80000000)
    {suffix : Bytes} (written : indexBytes index = .ok suffix) :
    node.derivePublic hmacSha512 hash160 index =
      match pointAdd (pointMul
          (beValue ((hmacSha512 node.chainCode (compress p ++ suffix)).take 32)) G) (some p) with
      | none => .error (.assertionError "")
      | some sum =>
          .ok ⟨compress sum, (hmacSha512 node.chainCode (compress p ++ suffix)).drop 32,
            node.depth + 1, index, (hash160 (compress p)).take 4, false⟩ := by
  obtain ⟨x, y⟩ := p
  have xReduced : Reduced x := represents.1
  have yReduced : Reduced y := represents.2.1
  have abscissa : beValue ((compress (x, y)).drop 1) = x.toNat := by
    apply beValue_toBytesBig
    have lt := xReduced.toNat_lt
    have fits : P < 256 ^ 32 := by decide
    omega
  have ordinate := decompressOrdinate_eq represents
  have point : (((x.toNat : Nat) : Int), ((y.toNat : Nat) : Int)) = (x, y) := by
    rw [Int.toNat_of_nonneg xReduced.nonneg, Int.toNat_of_nonneg yReduced.nonneg]
  have first : byteAt (compress (x, y)) 0 = .ok (parityPrefix y).toNat := rfl
  have fingerprint : node.getFingerprint hash160 = .ok ((hash160 (compress (x, y))).take 4) := by
    rw [getFingerprint, getPublicKey, isPublic, isKey]
    rfl
  rw [derivePublic, if_neg (Int.not_le.mpr normal), written, isKey, fingerprint]
  simp only [bind, Except.bind, first, abscissa, ordinate, point]
  cases pointAdd (pointMul
    (beValue ((hmacSha512 node.chainCode (compress (x, y) ++ suffix)).take 32)) G) (some (x, y)) with
  | none => rfl
  | some sum => rfl

theorem derivePrivate_eq {node : HDKey} {pubkey : Bytes}
    (isPublicKey : node.getPublicKey = .ok pubkey) {index : Int} (normal : index < 0x80000000)
    {suffix : Bytes} (written : indexBytes index = .ok suffix) :
    node.derivePrivate hmacSha512 hash160 index =
      if (beValue ((hmacSha512 node.chainCode (pubkey ++ suffix)).take 32) +
          beValue node.key) % N = 0 then
        .error (.valueError "Derived key scalar is zero, try next index")
      else
        .ok ⟨toBytesBig 32 ((beValue ((hmacSha512 node.chainCode (pubkey ++ suffix)).take 32) +
            beValue node.key) % N), (hmacSha512 node.chainCode (pubkey ++ suffix)).drop 32,
          node.depth + 1, index, (hash160 pubkey).take 4, true⟩ := by
  have fingerprint : node.getFingerprint hash160 = .ok ((hash160 pubkey).take 4) := by
    rw [getFingerprint, isPublicKey]
    rfl
  rw [derivePrivate, if_neg (Int.not_le.mpr normal), isPublicKey, written, fingerprint]
  rfl

theorem validPrivate_child {scalar : Nat} (nonzero : scalar % N ≠ 0) (chainCode : Bytes)
    (depth : Nat) (index : Int) (parentFingerprint : Bytes) :
    ValidPrivate ⟨toBytesBig 32 (scalar % N), chainCode, depth, index, parentFingerprint,
      true⟩ ∧ beValue (toBytesBig 32 (scalar % N)) = scalar % N := by
  have below : scalar % N < N := Nat.mod_lt _ (by decide)
  have fits : N < 256 ^ 32 := by decide
  have restored : beValue (toBytesBig 32 (scalar % N)) = scalar % N :=
    beValue_toBytesBig (by omega)
  refine ⟨⟨rfl, ?_, ?_, ?_⟩, restored⟩
  · rw [toBytesBig, List.length_reverse, leBytes_length]
  · rw [restored]
    omega
  · rw [restored]
    omega

/-- Private and public derivation agree: the public key of the private child is
the public child, or both raise. -/
theorem deriveChild_agree (hmacSha512 : Bytes → Bytes → Bytes) (hash160 : Bytes → Bytes)
    (node : HDKey) (valid : node.ValidPrivate) (index : Int) (normal : index < 0x80000000) :
    ∃ publicNode, node.toPublic = .ok publicNode ∧
      ((∃ child publicChild, node.deriveChild hmacSha512 hash160 index = .ok child ∧
          child.toPublic = .ok publicChild ∧
          publicNode.deriveChild hmacSha512 hash160 index = .ok publicChild) ∨
        ∃ exception exception', node.deriveChild hmacSha512 hash160 index = .error exception ∧
          publicNode.deriveChild hmacSha512 hash160 index = .error exception') := by
  obtain ⟨generator, atG, representsG⟩ := exists_represents_G
  have below := valid.below
  have order : 0 < N := by decide
  obtain ⟨p, multiple, represents⟩ := exists_pointMul_G atG representsG valid.positive
    (by omega)
  have pubkey := getPublicKey_of_pointMul valid multiple
  refine ⟨{ node with key := compress p, isPrivate := false }, by rw [toPublic, pubkey]; rfl, ?_⟩
  rw [deriveChild, deriveChild, if_pos valid.isPrivate, if_neg (by simp)]
  cases written : indexBytes index with
  | error exception =>
      right
      refine ⟨exception, exception, ?_, ?_⟩
      · rw [derivePrivate, if_neg (Int.not_le.mpr normal), pubkey, written]
        rfl
      · rw [derivePublic, if_neg (Int.not_le.mpr normal), written]
        rfl
  | ok suffix =>
      rw [derivePrivate_eq pubkey normal written,
        derivePublic_compress represents rfl rfl normal written]
      generalize hmacSha512 node.chainCode (compress p ++ suffix) = digest
      have sum := pointAdd_represents (pointMul_represents representsG (beValue (digest.take 32)))
        represents
      rw [mod_nsmul_generator atG, ← add_nsmul, ← mod_nsmul_generator atG] at sum
      split_ifs with zero
      · -- The scalars cancel exactly if the points do.
        right
        rw [zero, zero_nsmul] at sum
        rw [sum.unique (show Represents none 0 from rfl)]
        exact ⟨_, _, rfl, rfl⟩
      · left
        obtain ⟨childValid, restored⟩ := validPrivate_child zero (digest.drop 32) (node.depth + 1)
          index ((hash160 (compress p)).take 4)
        have childBelow := childValid.below
        obtain ⟨q, childMultiple, childRepresents⟩ := exists_pointMul_G atG representsG
          childValid.positive (by omega)
        have childPubkey := getPublicKey_of_pointMul childValid childMultiple
        rw [restored] at childRepresents
        rw [sum.unique childRepresents]
        exact ⟨_, _, rfl, by rw [toPublic, childPubkey]; rfl, rfl⟩

def sampleNode : HDKey where
  key := toBytesBig 32 5
  chainCode := List.replicate 32 0x11
  depth := 0
  index := 0
  parentFingerprint := List.replicate 4 0
  isPrivate := true

/-- HMAC-SHA512 of the public key and index 7 under the chain code of the node. -/
def sampleHmac (_ _ : Bytes) : Bytes :=
  toBytesBig 32 0x67baca4f007c818953608cca2aeb633a9f2465dd6eaeee802faa89ea64c73e79 ++
    toBytesBig 32 0xf629d0190629efcb996d11ed4af3e1bd24e99d8fb8a7b79ec5c97966e788166c

/-- The hash of the public key of the node. -/
def sampleHash160 (_ : Bytes) : Bytes := toBytesBig 20 0x4747e8746cddb33b0f7f95a90f89f89fb387cbb6

theorem sampleNode_derives :
    ∃ publicNode child publicChild, sampleNode.toPublic = .ok publicNode ∧
      sampleNode.deriveChild sampleHmac sampleHash160 7 = .ok child ∧
      child.toPublic = .ok publicChild ∧
      publicNode.deriveChild sampleHmac sampleHash160 7 = .ok publicChild := by
  have derived : (sampleNode.deriveChild sampleHmac sampleHash160 7).isOk = true := by
    decide +kernel
  have valid : sampleNode.ValidPrivate := ⟨rfl, by decide, by decide, by decide⟩
  obtain ⟨publicNode, isPublic, agree⟩ :=
    deriveChild_agree sampleHmac sampleHash160 sampleNode valid 7 (by decide)
  rcases agree with ⟨child, publicChild, derivations⟩ | ⟨exception, exception', raised, -⟩
  · exact ⟨publicNode, child, publicChild, isPublic, derivations⟩
  · rw [raised] at derived
    cases derived

end HDKey

end QuantyCoin
