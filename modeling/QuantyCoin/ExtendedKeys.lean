import QuantyCoin.DecoderExactness

/-!
# Dilithium extended keys

`CDilithiumExtKey` of `crypto/dilithium_key.cpp`.  The 73 bytes of an encoded key
hold its position, its chain code and its seed, and decoding expands the seed
again.  A key that was derived from a master key comes back with its expanded
pair, since every function that stores a seed stores its expansion too.
-/

namespace QuantyCoin

open ByteDecoder

/-! ## Byte arrays -/

/-- An array of bytes. -/
abbrev Octets (size : Nat) := {bytes : Bytes // bytes.length = size}

/-- `memcpy` from a position of an array. -/
def octetsAt {size : Nat} (data : Octets size) (start width : Nat)
    (inside : start + width ≤ size) : Octets width :=
  ⟨(data.val.drop start).take width, by
    rw [List.length_take, List.length_drop, data.property]
    omega⟩

@[simp]
theorem octetsAt_val {size : Nat} (data : Octets size) (start width : Nat)
    (inside : start + width ≤ size) :
    (octetsAt data start width inside).val = (data.val.drop start).take width := rfl

def zeroOctets (size : Nat) : Octets size := ⟨List.replicate size 0, List.length_replicate⟩

/-- `WriteBE32`. -/
def writeBE32 (x : UInt32) : Octets 4 := ⟨(leBytes 4 x.toNat).reverse, by simp⟩

@[simp]
theorem writeBE32_val (x : UInt32) : (writeBE32 x).val = (leBytes 4 x.toNat).reverse := rfl

/-- `ReadBE32`. -/
def readBE32 (ptr : Octets 4) : UInt32 := UInt32.ofNat (leValue ptr.val.reverse)

/-- `ReadLE32`. -/
def readLE32 (ptr : Octets 4) : UInt32 := UInt32.ofNat (leValue ptr.val)

/-! ## Keys -/

def dilithiumPublicKeySize : Nat := 1312
def dilithiumSecretKeySize : Nat := 2560
def dilithiumExtkeySize : Nat := 73
def dilithiumHardenedBit : UInt32 := 0x80000000

/-- The functions outside of the file: the key generation of the Dilithium library
gives a public and a secret key. -/
structure ExtKeyPrimitives where
  hmacSha512 : Bytes → Bytes → Octets 64
  hash160 : Octets dilithiumPublicKeySize → Octets 20
  keypairFromSeed : Octets 32 →
    Option (Octets dilithiumPublicKeySize × Octets dilithiumSecretKeySize)

/-- `CDilithiumKey`, with nothing for an invalid key. -/
abbrev ExpandedKey := Option (Octets (dilithiumSecretKeySize + dilithiumPublicKeySize))

/-- `CDilithiumKey::GetPubKey` of a valid key. -/
def getPubKey (keydata : Octets (dilithiumSecretKeySize + dilithiumPublicKeySize)) :
    Octets dilithiumPublicKeySize :=
  octetsAt keydata dilithiumSecretKeySize dilithiumPublicKeySize (by decide)

structure CDilithiumExtKey where
  nDepth : UInt8
  vchFingerprint : Octets 4
  nChild : UInt32
  chaincode : Octets 32
  seed : Octets 32
  key : ExpandedKey

section Functions

variable (prims : ExtKeyPrimitives)

/-- `DilithiumExpandSeedIntoKeydata`. -/
def expandSeedIntoKeydata (seed : Octets 32) : ExpandedKey :=
  (prims.keypairFromSeed seed).map fun (pk, sk) =>
    ⟨sk.val ++ pk.val, by rw [List.length_append, sk.property, pk.property]⟩

/-- `CDilithiumKey::GenerateFromEntropy`. -/
def generateFromEntropy (entropy : Bytes) : ExpandedKey :=
  if sized : entropy.length ≠ 32 then none
  else expandSeedIntoKeydata prims ⟨entropy, not_not.mp sized⟩

namespace CDilithiumExtKey

/-- `CDilithiumExtKey::Encode`. -/
def encode (extKey : CDilithiumExtKey) : Octets dilithiumExtkeySize :=
  ⟨extKey.nDepth :: (extKey.vchFingerprint.val ++ ((writeBE32 extKey.nChild).val ++
      (extKey.chaincode.val ++ extKey.seed.val))), by
    simp [dilithiumExtkeySize, extKey.vchFingerprint.property, extKey.chaincode.property,
      extKey.seed.property]⟩

theorem encode_val (extKey : CDilithiumExtKey) :
    extKey.encode.val = extKey.nDepth :: (extKey.vchFingerprint.val ++
      ((writeBE32 extKey.nChild).val ++ (extKey.chaincode.val ++ extKey.seed.val))) :=
  rfl

/-- The state that `Decode` leaves behind a code it rejects. -/
def wiped : CDilithiumExtKey := ⟨0, zeroOctets 4, 0, zeroOctets 32, zeroOctets 32, none⟩

/-- `master_ok && child_metadata_ok`. -/
def metadataOk (nDepth : UInt8) (vchFingerprint : Octets 4) (nChild : UInt32) : Bool :=
  (nDepth ≠ 0 || (nChild = 0 && readLE32 vchFingerprint = 0)) &&
    (nDepth = 0 || nChild &&& dilithiumHardenedBit ≠ 0)

/-- The fields that `Decode` reads, before it looks at them. -/
def ofCode (code : Octets dilithiumExtkeySize) : CDilithiumExtKey where
  nDepth := code.val.headD 0
  vchFingerprint := octetsAt code 1 4 (by decide)
  nChild := readBE32 (octetsAt code 5 4 (by decide))
  chaincode := octetsAt code 9 32 (by decide)
  seed := octetsAt code 41 32 (by decide)
  key := none

/-- The codes that `Decode` rejects. -/
def Wipes (code : Octets dilithiumExtkeySize) : Prop :=
  let extKey := ofCode code
  metadataOk extKey.nDepth extKey.vchFingerprint extKey.nChild = false

/-- `CDilithiumExtKey::Decode`. -/
def decode (code : Octets dilithiumExtkeySize) : CDilithiumExtKey :=
  let extKey := ofCode code
  if metadataOk extKey.nDepth extKey.vchFingerprint extKey.nChild then
    { extKey with key := generateFromEntropy prims extKey.seed.val }
  else wiped

/-- `CDilithiumExtKey::Derive`. -/
def derive (extKey : CDilithiumExtKey) (childIndex : UInt32) : Option CDilithiumExtKey :=
  if extKey.nDepth = 255 then none
  else
    match extKey.key with
    | none => none
    | some keydata =>
        if childIndex &&& dilithiumHardenedBit = 0 then none
        else
          let digest := prims.hmacSha512 extKey.chaincode.val
            (0x00 :: extKey.seed.val ++ (writeBE32 childIndex).val)
          let parentId := prims.hash160 (getPubKey keydata)
          let seed := octetsAt digest 0 32 (by decide)
          let key := generateFromEntropy prims seed.val
          if key.isSome then
            some ⟨extKey.nDepth + 1, octetsAt parentId 0 4 (by decide), childIndex,
              octetsAt digest 32 32 (by decide), seed, key⟩
          else none

/-- The bytes of `"Dilithium seed"`. -/
def hashkey : Bytes :=
  [0x44, 0x69, 0x6c, 0x69, 0x74, 0x68, 0x69, 0x75, 0x6d, 0x20, 0x73, 0x65, 0x65, 0x64]

/-- `CDilithiumExtKey::SetSeed`. -/
def setSeed (hdSeed : Bytes) : CDilithiumExtKey :=
  let digest := prims.hmacSha512 hashkey hdSeed
  let seed := octetsAt digest 0 32 (by decide)
  ⟨0, zeroOctets 4, 0, octetsAt digest 32 32 (by decide), seed,
    generateFromEntropy prims seed.val⟩

/-- The keys of the derivation tree of a seed. -/
inductive Reached : CDilithiumExtKey → Prop
  | setSeed (hdSeed : Bytes) : Reached (setSeed prims hdSeed)
  | derive {parent child : CDilithiumExtKey} {childIndex : UInt32} (reached : Reached parent)
      (derived : parent.derive prims childIndex = some child) : Reached child

end CDilithiumExtKey

end Functions

/-! ## Words and slices -/

theorem readBE32_writeBE32 (x : UInt32) : readBE32 (writeBE32 x) = x := by
  rw [readBE32, writeBE32_val, List.reverse_reverse, leValue_leBytes x.toNat_lt, UInt32.ofNat_toNat]

theorem writeBE32_readBE32 (ptr : Octets 4) : writeBE32 (readBE32 ptr) = ptr := by
  have sized : ptr.val.reverse.length = 4 := by rw [List.length_reverse, ptr.property]
  have small : leValue ptr.val.reverse < 2 ^ 32 := by
    calc
      leValue ptr.val.reverse < 256 ^ ptr.val.reverse.length := leValue_lt _
      _ = 2 ^ 32 := by rw [sized]; rfl
  have back := leBytes_leValue ptr.val.reverse
  rw [sized] at back
  apply Subtype.ext
  rw [writeBE32_val, readBE32, UInt32.toNat_ofNat_of_lt' small, back, List.reverse_reverse]

theorem leValue_eq_zero_iff {bytes : Bytes} :
    leValue bytes = 0 ↔ bytes = List.replicate bytes.length 0 := by
  induction bytes with
  | nil => simp [leValue]
  | cons byte bytes ih =>
      have zero : byte.toNat = 0 ↔ byte = 0 := by
        rw [← UInt8.toNat_inj]
        rfl
      rw [leValue, List.length_cons, List.replicate_succ, List.cons.injEq, ← ih, ← zero]
      omega

theorem readLE32_eq_zero_iff {ptr : Octets 4} : readLE32 ptr = 0 ↔ ptr = zeroOctets 4 := by
  have small : leValue ptr.val < 2 ^ 32 := by
    have bound := leValue_lt ptr.val
    rw [ptr.property] at bound
    exact bound
  rw [readLE32, ← UInt32.toNat_inj, UInt32.toNat_ofNat_of_lt' small]
  have zeros := @leValue_eq_zero_iff ptr.val
  rw [ptr.property] at zeros
  rw [Subtype.ext_iff]
  exact zeros

/-- A slice between its neighbours. -/
theorem octetsAt_eq {size width : Nat} {data : Octets size} {start : Nat}
    {inside : start + width ≤ size} (before after : Bytes) (middle : Octets width)
    (parts : data.val = before ++ (middle.val ++ after)) (here : before.length = start) :
    octetsAt data start width inside = middle := by
  apply Subtype.ext
  rw [octetsAt_val, parts, ← here, List.drop_left, List.take_left' middle.property]

/-- The end of an array is a slice and what follows it. -/
theorem octetsAt_append_drop {size : Nat} (data : Octets size) (start width : Nat)
    (inside : start + width ≤ size) :
    (octetsAt data start width inside).val ++ data.val.drop (start + width) =
      data.val.drop start := by
  rw [octetsAt_val, ← List.drop_drop, List.take_append_drop]

namespace CDilithiumExtKey

/-! ## Positions -/

/-- The metadata of a key in a derivation tree. -/
structure Positioned (extKey : CDilithiumExtKey) : Prop where
  master_iff : extKey.nDepth = 0 ↔ extKey.nChild = 0 ∧ extKey.vchFingerprint = zeroOctets 4
  hardened : extKey.nDepth ≠ 0 → extKey.nChild &&& dilithiumHardenedBit ≠ 0

/-- `Decode` accepts these metadata and no others. -/
theorem metadataOk_iff {extKey : CDilithiumExtKey} :
    metadataOk extKey.nDepth extKey.vchFingerprint extKey.nChild = true ↔ extKey.Positioned := by
  have unhardened : (0 : UInt32) &&& dilithiumHardenedBit = 0 := by decide
  rw [metadataOk]
  constructor
  · intro ok
    simp only [Bool.and_eq_true, Bool.or_eq_true, decide_eq_true_eq, readLE32_eq_zero_iff] at ok
    obtain ⟨master, child⟩ := ok
    refine ⟨⟨fun top => master.resolve_left (not_not.mpr top), fun ⟨first, _⟩ => ?_⟩,
      fun below => child.resolve_left below⟩
    by_contra below
    exact child.resolve_left below (by rw [first, unhardened])
  · intro positioned
    simp only [Bool.and_eq_true, Bool.or_eq_true, decide_eq_true_eq, readLE32_eq_zero_iff]
    by_cases top : extKey.nDepth = 0
    · exact ⟨.inr (positioned.master_iff.mp top), .inl top⟩
    · exact ⟨.inl top, .inr (positioned.hardened top)⟩

/-! ## Encoding and decoding -/

/-- The key that a code stands for has its seed expanded. -/
def Expanded (prims : ExtKeyPrimitives) (extKey : CDilithiumExtKey) : Prop :=
  extKey.key = generateFromEntropy prims extKey.seed.val

theorem ofCode_encode (extKey : CDilithiumExtKey) :
    ofCode extKey.encode = { extKey with key := none } := by
  obtain ⟨nDepth, vchFingerprint, nChild, chaincode, seed, key⟩ := extKey
  have code := encode_val ⟨nDepth, vchFingerprint, nChild, chaincode, seed, key⟩
  generalize encode _ = encoded at code ⊢
  have fingerprintHere : octetsAt encoded 1 4 (by decide) = vchFingerprint :=
    octetsAt_eq [nDepth] ((writeBE32 nChild).val ++ (chaincode.val ++ seed.val)) vchFingerprint
      code rfl
  have childHere : octetsAt encoded 5 4 (by decide) = writeBE32 nChild :=
    octetsAt_eq (nDepth :: vchFingerprint.val) (chaincode.val ++ seed.val) (writeBE32 nChild)
      (by simp [code]) (by simp [vchFingerprint.property])
  have chaincodeHere : octetsAt encoded 9 32 (by decide) = chaincode :=
    octetsAt_eq (nDepth :: (vchFingerprint.val ++ (writeBE32 nChild).val)) seed.val chaincode
      (by simp [code]) (by simp [vchFingerprint.property])
  have seedHere : octetsAt encoded 41 32 (by decide) = seed :=
    octetsAt_eq (nDepth :: (vchFingerprint.val ++ ((writeBE32 nChild).val ++ chaincode.val))) []
      seed (by simp [code]) (by simp [vchFingerprint.property, chaincode.property])
  have depthHere : encoded.val.headD 0 = nDepth := by rw [code, List.headD_cons]
  rw [ofCode, fingerprintHere, childHere, chaincodeHere, seedHere, depthHere, readBE32_writeBE32]

theorem encode_ofCode (code : Octets dilithiumExtkeySize) : (ofCode code).encode = code := by
  have whole : code.val.headD 0 :: code.val.drop 1 = code.val := by
    have sized : code.val ≠ [] := by
      rw [← List.length_pos_iff, code.property]
      decide
    rw [List.drop_one, List.headD_eq_head?_getD, List.head?_eq_some_head sized, Option.getD_some,
      List.cons_head_tail]
  apply Subtype.ext
  rw [encode_val]
  calc
    (ofCode code).nDepth :: ((ofCode code).vchFingerprint.val ++
        ((writeBE32 (ofCode code).nChild).val ++
          ((ofCode code).chaincode.val ++ (ofCode code).seed.val))) =
        code.val.headD 0 :: ((octetsAt code 1 4 (by decide)).val ++
          ((octetsAt code 5 4 (by decide)).val ++
            ((octetsAt code 9 32 (by decide)).val ++ code.val.drop 41))) := by
      have last : (octetsAt code 41 32 (by decide)).val = code.val.drop 41 := by
        rw [octetsAt_val, List.take_of_length_le]
        rw [List.length_drop, code.property]
        decide
      rw [← last, ofCode, writeBE32_readBE32]
    _ = code.val := by
      rw [octetsAt_append_drop code 9, octetsAt_append_drop code 5, octetsAt_append_drop code 1,
        whole]

/-- A code that is not rejected is the encoding of its key. -/
theorem encode_decode {prims : ExtKeyPrimitives} {code : Octets dilithiumExtkeySize}
    (kept : ¬ Wipes code) : (decode prims code).encode = code := by
  have ok : metadataOk (ofCode code).nDepth (ofCode code).vchFingerprint (ofCode code).nChild =
      true := Bool.not_eq_false _ ▸ kept
  rw [decode, if_pos ok]
  exact encode_ofCode code

/-- A rejected code leaves a key behind that derives nothing. -/
theorem derive_decode_of_wipes {prims : ExtKeyPrimitives} {code : Octets dilithiumExtkeySize}
    (rejected : Wipes code) (childIndex : UInt32) :
    (decode prims code).derive prims childIndex = none := by
  have bad : ¬ metadataOk (ofCode code).nDepth (ofCode code).vchFingerprint
      (ofCode code).nChild = true := Bool.not_eq_true _ ▸ rejected
  rw [decode, if_neg bad]
  rfl

section Reachable

variable {prims : ExtKeyPrimitives} {extKey : CDilithiumExtKey}

theorem decode_encode (positioned : extKey.Positioned) (expanded : extKey.Expanded prims) :
    decode prims extKey.encode = extKey := by
  have ok := metadataOk_iff.mpr positioned
  rw [decode, ofCode_encode, if_pos ok, ← expanded]

theorem setSeed_positioned (hdSeed : Bytes) : (setSeed prims hdSeed).Positioned :=
  ⟨⟨fun _ => ⟨rfl, rfl⟩, fun _ => rfl⟩, fun below => absurd rfl below⟩

/-- What a successful derivation did. -/
theorem derive_cases {child : CDilithiumExtKey} {childIndex : UInt32}
    (derived : extKey.derive prims childIndex = some child) :
    extKey.nDepth ≠ 255 ∧ childIndex &&& dilithiumHardenedBit ≠ 0 ∧
      child.nDepth = extKey.nDepth + 1 ∧ child.nChild = childIndex ∧ child.Expanded prims := by
  rw [derive] at derived
  cases valid : extKey.key with
  | none =>
      rw [valid] at derived
      split_ifs at derived
  | some keydata =>
      simp only [valid] at derived
      split_ifs at derived with deepest plain
      cases derived
      exact ⟨deepest, plain, rfl, rfl, rfl⟩

theorem derive_positioned {child : CDilithiumExtKey} {childIndex : UInt32}
    (derived : extKey.derive prims childIndex = some child) : child.Positioned := by
  obtain ⟨shallow, hardened, depth, index, -⟩ := derive_cases derived
  have below : child.nDepth ≠ 0 := by
    rw [depth]
    intro wrapped
    apply shallow
    rw [← UInt8.toNat_inj] at wrapped ⊢
    have small := extKey.nDepth.toNat_lt
    simp at wrapped ⊢
    omega
  have indexed : child.nChild ≠ 0 := by
    rintro zero
    rw [← index, zero] at hardened
    exact hardened (by decide)
  exact ⟨⟨fun top => absurd top below, fun master => absurd master.1 indexed⟩,
    fun _ => by rwa [index]⟩

/-- The invariants of a derivation tree. -/
theorem Reached.invariants (reached : Reached prims extKey) :
    extKey.Positioned ∧ extKey.Expanded prims := by
  induction reached with
  | setSeed hdSeed => exact ⟨setSeed_positioned hdSeed, rfl⟩
  | derive _ derived _ =>
      obtain ⟨-, -, -, -, expanded⟩ := derive_cases derived
      exact ⟨derive_positioned derived, expanded⟩

end Reachable

/-- The keys of a derivation tree come back from their codes, and a code that is not
rejected comes back from its key. -/
theorem extKey_roundTrip (prims : ExtKeyPrimitives) :
    (∀ extKey, Reached prims extKey →
      extKey.Positioned ∧ decode prims extKey.encode = extKey ∧
        ∀ childIndex, (decode prims extKey.encode).derive prims childIndex =
          extKey.derive prims childIndex) ∧
      ∀ code, ¬ Wipes code → (decode prims code).encode = code := by
  refine ⟨fun extKey reached => ?_, fun code kept => encode_decode kept⟩
  obtain ⟨positioned, expanded⟩ := reached.invariants
  have back := decode_encode positioned expanded
  exact ⟨positioned, back, fun childIndex => by rw [back]⟩

end CDilithiumExtKey

end QuantyCoin
