import QuantyCoin.BitRegrouping
import QuantyCoin.Primitives

/-!
# Bech32 and Bech32m

The checksummed text of witness programs in `crypto/bip32_44.py`.  The checksum
is a shift register over the five-bit values, linear in exclusive or; the bytes
of the program are regrouped into five-bit values and back.
-/

namespace QuantyCoin

open ByteDecoder BitRegrouping

/-- `CHARSET`. -/
def charset : List Char := "qpzry9x8gf2tvdw0s3jn54khce6mua7l".toList

def bech32Const : Nat := 1
def bech32mConst : Nat := 0x2bc830a3

/-- `GEN`. -/
def polymodGenerators : List Nat :=
  [0x3b6a57b2, 0x26508e6d, 0x1ea119fa, 0x3d4233dd, 0x2a1462b3]

/-- One value of the loop of `_bech32_polymod`. -/
def polymodStep (chk value : Nat) : Nat :=
  let b := chk >>> 25
  polymodGenerators.zipIdx.foldl
    (fun chk entry => chk ^^^ if (b >>> entry.2) &&& 1 ≠ 0 then entry.1 else 0)
    (((chk &&& 0x1ffffff) <<< 5) ^^^ value)

/-- `_bech32_polymod`. -/
def bech32Polymod (values : List Nat) : Nat := values.foldl polymodStep 1

/-- `_bech32_hrp_expand`. -/
def bech32HrpExpand (hrp : List Char) : List Nat :=
  hrp.map (fun x => x.toNat >>> 5) ++ [0] ++ hrp.map (fun x => x.toNat &&& 31)

/-- `_bech32_verify_checksum`. -/
def bech32VerifyChecksum (hrp : List Char) (data : List Nat) : Option Nat :=
  let check := bech32Polymod (bech32HrpExpand hrp ++ data)
  if check = bech32Const then some bech32Const
  else if check = bech32mConst then some bech32mConst
  else none

/-- `_bech32_create_checksum`. -/
def bech32CreateChecksum (hrp : List Char) (data : List Nat) (spec : Nat) : List Nat :=
  let values := bech32HrpExpand hrp ++ data
  let polymod := bech32Polymod (values ++ [0, 0, 0, 0, 0, 0]) ^^^ spec
  (List.range 6).map fun i => (polymod >>> (5 * (5 - i))) &&& 31

/-- `CHARSET[d]`. -/
def charsetAt (d : Nat) : Except PyException Char :=
  match charset[d]? with
  | some character => .ok character
  | none => .error (.indexError "string index out of range")

def bech32Encode (hrp : List Char) (data : List Nat) (spec : Nat) :
    Except PyException (List Char) := do
  let combined := data ++ bech32CreateChecksum hrp data spec
  let characters ← combined.mapM charsetAt
  return hrp ++ '1' :: characters

/-- `text.rfind(wanted)`, `none` for -1. -/
def rfind (wanted : Char) : List Char → Option Nat
  | [] => none
  | character :: text =>
      match rfind wanted text with
      | some pos => some (pos + 1)
      | none => if character = wanted then some 0 else none

/-- `bech32_decode`, `none` for three times `None`.  The case is only looked at
for texts in printable ASCII, where Python's mappings are those of `Char`. -/
def bech32Decode (bech : List Char) : Option (List Char × List Nat × Nat) :=
  if bech.any (fun x => x.toNat < 33 || x.toNat > 126) ||
      (bech.map Char.toLower != bech && bech.map Char.toUpper != bech) then none
  else
    let bech := bech.map Char.toLower
    match rfind '1' bech with
    | none => none
    | some pos =>
        if pos < 1 ∨ pos + 7 > bech.length ∨ bech.length > 90 then none
        else if ¬(bech.drop (pos + 1)).all (charset.contains ·) then none
        else
          let hrp := bech.take pos
          let data := (bech.drop (pos + 1)).map (charset.idxOf ·)
          match bech32VerifyChecksum hrp data with
          | none => none
          | some spec => some (hrp, data.take (data.length - 6), spec)

/-- The `while bits >= tobits` loop: the bits left over and the groups cut off.
Every round takes `tobits` from `bits`, so the fuel never runs out. -/
def cutGroups (tobits acc : Nat) : Nat → Nat → Nat × List Nat
  | 0, bits => (bits, [])
  | fuel + 1, bits =>
      if bits ≥ tobits then
        let rest := cutGroups tobits acc fuel (bits - tobits)
        (rest.1, ((acc >>> (bits - tobits)) &&& (2 ^ tobits - 1)) :: rest.2)
      else (bits, [])

/-- The `for value in data` loop: `acc`, `bits` and what was appended to `ret`. -/
def convertLoop (frombits tobits : Nat) :
    List Nat → Nat → Nat → Option (Nat × Nat × List Nat)
  | [], acc, bits => some (acc, bits, [])
  | value :: data, acc, bits =>
      if value >>> frombits ≠ 0 then none
      else
        let maxAcc := 2 ^ (frombits + tobits - 1) - 1
        let acc := ((acc <<< frombits) ||| value) &&& maxAcc
        let cut := cutGroups tobits acc (bits + frombits) (bits + frombits)
        (convertLoop frombits tobits data acc cut.1).map fun result =>
          (result.1, result.2.1, cut.2 ++ result.2.2)

def convertbits (data : List Nat) (frombits tobits : Nat) (pad : Bool) : Option (List Nat) :=
  match convertLoop frombits tobits data 0 0 with
  | none => none
  | some (acc, bits, ret) =>
      let filled := (acc <<< (tobits - bits)) &&& (2 ^ tobits - 1)
      if pad then some (if bits ≠ 0 then ret ++ [filled] else ret)
      else if bits ≥ frombits ∨ filled ≠ 0 then none
      else some ret

def encodeSegwitAddress (hrp : List Char) (witnessVersion : Nat) (witnessProgram : Bytes) :
    Except PyException (List Char) :=
  match convertbits (witnessProgram.map UInt8.toNat) 8 5 true with
  | none => .error (.valueError "Failed to convert bits for SegWit address")
  | some conv =>
      let spec := if witnessVersion = 0 then bech32Const else bech32mConst
      bech32Encode hrp (witnessVersion :: conv) spec

/-- `decode_segwit_address`, `none` for `(None, None)`. -/
def decodeSegwitAddress (hrp addr : List Char) : Option (Nat × Bytes) :=
  match bech32Decode addr with
  | none => none
  | some (decHrp, data, spec) =>
      if decHrp ≠ hrp then none
      else
        match data with
        | [] => none
        | version :: data =>
            if version = 0 ∧ spec ≠ bech32Const then none
            else if version > 0 ∧ spec ≠ bech32mConst then none
            else
              match convertbits data 5 8 false with
              | none => none
              | some decoded =>
                  if decoded.length < 2 ∨ decoded.length > 40 then none
                  else some (version, decoded.map UInt8.ofNat)

/-! ## The checksum -/

/-- What the generators add for the bits shifted out. -/
def generatorSum (b : Nat) : Nat :=
  polymodGenerators.zipIdx.foldl
    (fun sum entry => sum ^^^ if b.testBit entry.2 then entry.1 else 0) 0

theorem polymodStep_eq (chk value : Nat) :
    polymodStep chk value =
      ((chk &&& 0x1ffffff) <<< 5) ^^^ value ^^^ generatorSum (chk >>> 25) := by
  have bit (b i : Nat) : ((b >>> i) &&& 1 ≠ 0) = (b.testBit i = true) := by
    rw [Nat.testBit, Nat.and_comm, bne_iff_ne]
  simp only [polymodStep, generatorSum, polymodGenerators, List.zipIdx_cons, List.zipIdx_nil,
    List.foldl_cons, List.foldl_nil, bit, Nat.zero_xor, Nat.xor_assoc]

theorem generatorSum_xor (first second : Nat) :
    generatorSum (first ^^^ second) = generatorSum first ^^^ generatorSum second := by
  have term (generator i : Nat) :
      (if (first ^^^ second).testBit i = true then generator else 0) =
        (if first.testBit i = true then generator else 0) ^^^
          (if second.testBit i = true then generator else 0) := by
    rw [Nat.testBit_xor]
    cases first.testBit i <;> cases second.testBit i <;> simp
  simp only [generatorSum, polymodGenerators, List.zipIdx_cons, List.zipIdx_nil,
    List.foldl_cons, List.foldl_nil, term, Nat.zero_xor]
  ac_rfl

theorem generatorSum_zero : generatorSum 0 = 0 := by decide

/-- The register is linear. -/
theorem polymodStep_xor (chk chk' value value' : Nat) :
    polymodStep (chk ^^^ chk') (value ^^^ value') =
      polymodStep chk value ^^^ polymodStep chk' value' := by
  rw [polymodStep_eq, polymodStep_eq, polymodStep_eq, Nat.shiftRight_xor_distrib,
    generatorSum_xor, Nat.and_xor_distrib_right, Nat.shiftLeft_xor_distrib]
  ac_rfl

theorem generatorSum_lt (b : Nat) : generatorSum b < 2 ^ 30 := by
  have term {generator : Nat} (bounded : generator < 2 ^ 30) (i : Nat) :
      (if b.testBit i = true then generator else 0) < 2 ^ 30 := by
    split
    · exact bounded
    · decide
  simp only [generatorSum, polymodGenerators, List.zipIdx_cons, List.zipIdx_nil,
    List.foldl_cons, List.foldl_nil, Nat.zero_xor]
  repeat apply Nat.xor_lt_two_pow
  all_goals exact term (by decide) _

theorem polymodStep_lt {chk value : Nat} (small : value < 32) :
    polymodStep chk value < 2 ^ 30 := by
  rw [polymodStep_eq]
  apply Nat.xor_lt_two_pow _ (generatorSum_lt _)
  apply Nat.xor_lt_two_pow _ (by omega)
  have masked : chk &&& 0x1ffffff < 2 ^ 25 := Nat.and_lt_two_pow _ (by decide)
  rw [Nat.shiftLeft_eq]
  omega

/-- As long as nothing is shifted out the register only takes in values. -/
theorem polymodStep_of_lt {chk : Nat} (small : chk < 2 ^ 25) (value : Nat) :
    polymodStep chk value = (chk <<< 5) ^^^ value := by
  rw [polymodStep_eq, Nat.shiftRight_eq_zero _ _ small, generatorSum_zero, Nat.xor_zero]
  congr 2
  exact Nat.and_two_pow_sub_one_of_lt_two_pow small

theorem foldl_polymodStep_xor (values : List Nat) (chk chk' : Nat) :
    values.foldl polymodStep (chk ^^^ chk') =
      (List.replicate values.length 0).foldl polymodStep chk ^^^
        values.foldl polymodStep chk' := by
  induction values generalizing chk chk' with
  | nil => rfl
  | cons value values ih =>
      have step := polymodStep_xor chk chk' 0 value
      rw [Nat.zero_xor] at step
      rw [List.foldl_cons, step, ih, List.length_cons, List.replicate_succ, List.foldl_cons,
        List.foldl_cons]

/-- Taking in the next five bits of a number. -/
theorem polymodStep_shiftRight {number : Nat} (small : number < 2 ^ 30) (shift : Nat) :
    polymodStep (number >>> (shift + 5)) ((number >>> shift) &&& 31) = number >>> shift := by
  have high : number >>> (shift + 5) < 2 ^ 25 := by
    rw [Nat.shiftRight_add, Nat.shiftRight_eq_div_pow _ 5]
    have less : number >>> shift ≤ number := Nat.shiftRight_le number shift
    omega
  rw [polymodStep_of_lt high]
  apply Nat.eq_of_testBit_eq
  intro place
  have mask : (31 : Nat) = 2 ^ 5 - 1 := rfl
  rw [mask, Nat.testBit_xor, Nat.testBit_shiftLeft, Nat.testBit_and,
    Nat.testBit_two_pow_sub_one, Nat.testBit_shiftRight, Nat.testBit_shiftRight]
  rcases Nat.lt_or_ge place 5 with below | above
  · simp [below, Nat.not_le.mpr below]
  · rw [show shift + 5 + (place - 5) = shift + place by omega]
    simp [above, Nat.not_lt.mpr above]

theorem foldl_polymodStep_digits {number : Nat} (small : number < 2 ^ 30) :
    ((List.range 6).map fun i => (number >>> (5 * (5 - i))) &&& 31).foldl polymodStep 0 =
      number := by
  have step := polymodStep_shiftRight small
  have first := step 25
  rw [Nat.shiftRight_eq_zero number (25 + 5) small] at first
  have range : List.range 6 = [0, 1, 2, 3, 4, 5] := rfl
  simp only [range, List.map_cons, List.map_nil, List.foldl_cons, List.foldl_nil, Nat.sub_zero,
    Nat.reduceMul, Nat.reduceSub]
  rw [first, step 20, step 15, step 10, step 5, step 0, Nat.shiftRight_zero]

/-- A text with its checksum leaves the chosen constant in the register. -/
theorem bech32Polymod_createChecksum (hrp : List Char) (data : List Nat) {spec : Nat}
    (small : spec < 2 ^ 30) :
    bech32Polymod (bech32HrpExpand hrp ++ (data ++ bech32CreateChecksum hrp data spec)) =
      spec := by
  rw [← List.append_assoc]
  unfold bech32CreateChecksum bech32Polymod
  generalize bech32HrpExpand hrp ++ data = values
  simp only [List.foldl_append]
  generalize values.foldl polymodStep 1 = chk
  have zeros : (List.foldl polymodStep chk [0, 0, 0, 0, 0, 0]) < 2 ^ 30 :=
    polymodStep_lt (by decide)
  have linear := foldl_polymodStep_xor
    ((List.range 6).map fun i =>
      ((List.foldl polymodStep chk [0, 0, 0, 0, 0, 0] ^^^ spec) >>> (5 * (5 - i))) &&& 31) chk 0
  rw [Nat.xor_zero, foldl_polymodStep_digits (Nat.xor_lt_two_pow zeros small), List.length_map,
    List.length_range] at linear
  rw [linear]
  change List.foldl polymodStep chk [0, 0, 0, 0, 0, 0] ^^^
    (List.foldl polymodStep chk [0, 0, 0, 0, 0, 0] ^^^ spec) = spec
  rw [← Nat.xor_assoc, Nat.xor_self, Nat.zero_xor]

theorem bech32VerifyChecksum_createChecksum (hrp : List Char) (data : List Nat) {spec : Nat}
    (known : spec = bech32Const ∨ spec = bech32mConst) :
    bech32VerifyChecksum hrp (data ++ bech32CreateChecksum hrp data spec) = some spec := by
  have small : spec < 2 ^ 30 := by
    rcases known with rfl | rfl <;> decide
  rw [bech32VerifyChecksum, bech32Polymod_createChecksum hrp data small]
  rcases known with rfl | rfl
  · rfl
  · rfl

/-! ## Regrouping -/

theorem cutGroups_bits {tobits : Nat} (positive : 0 < tobits) (acc : Nat) {fuel bits : Nat}
    (enough : bits ≤ fuel) :
    (cutGroups tobits acc fuel bits).1 < tobits ∧
      (∀ group ∈ (cutGroups tobits acc fuel bits).2, group < 2 ^ tobits) ∧
      bitsOf bits acc = (cutGroups tobits acc fuel bits).2.flatMap (bitsOf tobits) ++
        bitsOf (cutGroups tobits acc fuel bits).1 acc := by
  induction fuel generalizing bits with
  | zero =>
      have none : bits = 0 := by omega
      subst none
      exact ⟨positive, by simp [cutGroups], by simp [cutGroups]⟩
  | succ fuel ih =>
      rw [cutGroups]
      split_ifs with full
      · obtain ⟨short, bounded, spelled⟩ := @ih (bits - tobits) (by omega)
        refine ⟨short, ?_, ?_⟩
        · intro group member
          rcases List.mem_cons.mp member with rfl | member
          · exact mask_lt _ _
          · exact bounded group member
        · have split := bitsOf_add tobits (bits - tobits) acc
          rw [Nat.add_sub_cancel' full] at split
          rw [split, List.flatMap_cons, bitsOf_mask, List.append_assoc, ← spelled]
      · exact ⟨Nat.not_le.mp full, by simp, by simp⟩

/-- The loop spells the bits of the data in groups of the new width and keeps
the rest. -/
theorem exists_convertLoop {frombits tobits : Nat} (positive : 0 < tobits) {data : List Nat}
    {acc bits : Nat} (small : ∀ value ∈ data, value < 2 ^ frombits) (short : bits < tobits) :
    ∃ acc' bits' ret, convertLoop frombits tobits data acc bits = some (acc', bits', ret) ∧
      bits' < tobits ∧ (∀ group ∈ ret, group < 2 ^ tobits) ∧
      bitsOf bits acc ++ data.flatMap (bitsOf frombits) =
        ret.flatMap (bitsOf tobits) ++ bitsOf bits' acc' := by
  induction data generalizing acc bits with
  | nil => exact ⟨acc, bits, [], rfl, short, by simp, by simp⟩
  | cons value data ih =>
      have fits : value < 2 ^ frombits := small value List.mem_cons_self
      have valid : ¬value >>> frombits ≠ 0 := by
        rw [Nat.shiftRight_eq_zero _ _ fits]
        exact fun nonzero => nonzero rfl
      have taken := @bitsOf_accumulate bits frombits (frombits + tobits - 1) acc value fits
        (by omega)
      rw [convertLoop, if_neg valid]
      dsimp only
      generalize ((acc <<< frombits) ||| value) &&& (2 ^ (frombits + tobits - 1) - 1) = next
        at taken ⊢
      obtain ⟨cutShort, cutBounded, cutSpelled⟩ :=
        cutGroups_bits positive next (Nat.le_refl (bits + frombits))
      generalize cutGroups tobits next (bits + frombits) (bits + frombits) = cut
        at cutShort cutBounded cutSpelled ⊢
      obtain ⟨acc', bits', ret, found, shorter, bounded, spelled⟩ := @ih next cut.1
        (fun other member => small other (List.mem_cons_of_mem _ member)) cutShort
      refine ⟨acc', bits', cut.2 ++ ret, by rw [found]; rfl, shorter, ?_, ?_⟩
      · intro group member
        rcases List.mem_append.mp member with member | member
        · exact cutBounded group member
        · exact bounded group member
      · rw [List.flatMap_cons, ← List.append_assoc, ← taken, cutSpelled, List.flatMap_append,
          List.append_assoc, List.append_assoc, spelled]

/-- With padding the groups spell the bits of the data and fewer zeros than a
group has bits. -/
theorem exists_convertbits_pad {frombits tobits : Nat} (positive : 0 < tobits)
    {data : List Nat} (small : ∀ value ∈ data, value < 2 ^ frombits) :
    ∃ ret count, convertbits data frombits tobits true = some ret ∧ count < tobits ∧
      (∀ group ∈ ret, group < 2 ^ tobits) ∧
      ret.flatMap (bitsOf tobits) =
        data.flatMap (bitsOf frombits) ++ List.replicate count false := by
  obtain ⟨acc, bits, ret, found, short, bounded, spelled⟩ :=
    @exists_convertLoop frombits tobits positive data 0 0 small positive
  rw [bitsOf, List.nil_append] at spelled
  rw [convertbits, found]
  by_cases none : bits = 0
  · subst none
    refine ⟨ret, 0, by simp, positive, bounded, ?_⟩
    rw [spelled, bitsOf, List.replicate_zero, List.append_nil, List.append_nil]
  · refine ⟨ret ++ [acc <<< (tobits - bits) &&& (2 ^ tobits - 1)], tobits - bits,
      by simp [none], by omega, ?_, ?_⟩
    · intro group member
      rcases List.mem_append.mp member with member | member
      · exact bounded group member
      · rw [List.mem_singleton.mp member]
        exact mask_lt _ _
    · rw [List.flatMap_append, List.flatMap_singleton, bitsOf_shiftLeft_mask short.le, spelled,
        List.append_assoc]

/-- Without padding groups are given back exactly when the data spells them and
a few zeros. -/
theorem convertbits_of_bits {frombits tobits : Nat} {data groups : List Nat} {count : Nat}
    (small : ∀ value ∈ data, value < 2 ^ frombits)
    (bounded : ∀ group ∈ groups, group < 2 ^ tobits) (few : count < frombits)
    (short : count < tobits)
    (spelled : data.flatMap (bitsOf frombits) =
      groups.flatMap (bitsOf tobits) ++ List.replicate count false) :
    convertbits data frombits tobits false = some groups := by
  obtain ⟨acc, bits, ret, found, shorter, retBounded, retSpelled⟩ :=
    @exists_convertLoop frombits tobits (Nat.zero_lt_of_lt short) data 0 0 small
      (Nat.zero_lt_of_lt short)
  rw [bitsOf, List.nil_append, spelled] at retSpelled
  obtain ⟨rfl, rest⟩ := groups_unique bounded retBounded (by simpa using short)
    (by simpa using shorter) retSpelled
  have sameCount : bits = count := by
    simpa using (congrArg List.length rest).symm
  subst sameCount
  have filled : acc <<< (tobits - bits) &&& (2 ^ tobits - 1) = 0 := by
    apply eq_of_bitsOf_eq (mask_lt _ _) (Nat.two_pow_pos tobits)
    rw [bitsOf_shiftLeft_mask shorter.le, ← rest, List.replicate_append_replicate,
      Nat.add_sub_cancel' shorter.le, bitsOf_zero]
  rw [convertbits, found]
  simp [filled, few]

/-- Bytes as five-bit values, and back. -/
theorem exists_convertbits_bytes (bytes : Bytes) :
    ∃ conv, convertbits (bytes.map UInt8.toNat) 8 5 true = some conv ∧
      (∀ value ∈ conv, value < 32) ∧ conv.length = (8 * bytes.length + 4) / 5 ∧
      convertbits conv 5 8 false = some (bytes.map UInt8.toNat) := by
  have small : ∀ value ∈ bytes.map UInt8.toNat, value < 2 ^ 8 := by
    intro value member
    obtain ⟨byte, -, rfl⟩ := List.mem_map.mp member
    exact byte.toNat_lt
  obtain ⟨conv, count, found, few, bounded, spelled⟩ :=
    @exists_convertbits_pad 8 5 (by decide) _ small
  refine ⟨conv, found, bounded, ?_, ?_⟩
  · have lengths := congrArg List.length spelled
    rw [List.length_append, length_flatMap_bitsOf, length_flatMap_bitsOf, List.length_replicate,
      List.length_map] at lengths
    omega
  · exact convertbits_of_bits bounded small few (by omega) spelled

/-! ## Texts -/

/-- A printable character that is not in upper case. -/
structure IsPlain (character : Char) : Prop where
  above : 33 ≤ character.toNat
  below : character.toNat ≤ 126
  lower : character.toLower = character

instance (character : Char) : Decidable (IsPlain character) :=
  decidable_of_iff (33 ≤ character.toNat ∧ character.toNat ≤ 126 ∧
    character.toLower = character)
    ⟨fun checks => ⟨checks.1, checks.2.1, checks.2.2⟩,
      fun plain => ⟨plain.above, plain.below, plain.lower⟩⟩

theorem length_charset : charset.length = 32 := by decide

theorem isPlain_of_mem_charset {character : Char} (member : character ∈ charset) :
    IsPlain character := by
  have checked : charset.all (fun character => IsPlain character) = true := by decide
  exact of_decide_eq_true (List.all_eq_true.mp checked character member)

theorem one_notMem_charset : '1' ∉ charset := by decide

theorem exists_charsetAt {d : Nat} (small : d < 32) :
    ∃ character, charsetAt d = .ok character ∧ character ∈ charset ∧
      charset.idxOf character = d := by
  rw [← length_charset] at small
  refine ⟨charset[d], ?_, List.getElem_mem small, ?_⟩
  · rw [charsetAt, List.getElem?_eq_getElem small]
  · exact (show charset.Nodup by decide).idxOf_getElem d small

theorem exists_mapM_charsetAt {values : List Nat} (small : ∀ value ∈ values, value < 32) :
    ∃ characters, values.mapM charsetAt = .ok characters ∧
      (∀ character ∈ characters, character ∈ charset) ∧
      characters.map (charset.idxOf ·) = values := by
  induction values with
  | nil => exact ⟨[], rfl, by simp, rfl⟩
  | cons value values ih =>
      obtain ⟨character, found, member, index⟩ := exists_charsetAt
        (small value List.mem_cons_self)
      obtain ⟨characters, others, members, indices⟩ := ih fun other otherMember =>
        small other (List.mem_cons_of_mem _ otherMember)
      refine ⟨character :: characters, ?_, ?_, ?_⟩
      · rw [List.mapM_cons, found, others]
        rfl
      · intro other otherMember
        rcases List.mem_cons.mp otherMember with rfl | otherMember
        · exact member
        · exact members other otherMember
      · rw [List.map_cons, index, indices]

theorem rfind_eq_none {wanted : Char} {text : List Char} (absent : wanted ∉ text) :
    rfind wanted text = none := by
  induction text with
  | nil => rfl
  | cons character text ih =>
      rw [List.mem_cons, not_or] at absent
      rw [rfind, ih absent.2, if_neg (Ne.symm absent.1)]

theorem rfind_append_cons {wanted : Char} (before : List Char) {after : List Char}
    (absent : wanted ∉ after) :
    rfind wanted (before ++ wanted :: after) = some before.length := by
  induction before with
  | nil => rw [List.nil_append, rfind, rfind_eq_none absent, if_pos rfl, List.length_nil]
  | cons character before ih => rw [List.cons_append, rfind, ih, List.length_cons]

theorem eq_append_of_rfind {wanted : Char} {text : List Char} {pos : Nat}
    (found : rfind wanted text = some pos) :
    text = text.take pos ++ wanted :: text.drop (pos + 1) := by
  induction text generalizing pos with
  | nil => simp [rfind] at found
  | cons character text ih =>
      rw [rfind] at found
      cases later : rfind wanted text with
      | some other =>
          rw [later] at found
          cases found
          rw [List.take_succ_cons, List.drop_succ_cons, List.cons_append, ← ih later]
      | none =>
          rw [later] at found
          dsimp only at found
          split_ifs at found with same
          cases found
          rw [same]
          rfl

theorem map_toLower_of_plain {text : List Char}
    (plain : ∀ character ∈ text, IsPlain character) : text.map Char.toLower = text := by
  induction text with
  | nil => rfl
  | cons character text ih =>
      rw [List.map_cons, (plain character List.mem_cons_self).lower]
      rw [ih fun other member => plain other (List.mem_cons_of_mem _ member)]

/-- Decoding a text in lower case comes down to its checksum. -/
theorem bech32Decode_plain {hrp characters : List Char} (nonempty : hrp ≠ [])
    (plain : ∀ character ∈ hrp, IsPlain character)
    (coded : ∀ character ∈ characters, character ∈ charset) (long : 6 ≤ characters.length)
    (short : hrp.length + 1 + characters.length ≤ 90) :
    bech32Decode (hrp ++ '1' :: characters) =
      (bech32VerifyChecksum hrp (characters.map (charset.idxOf ·))).map fun spec =>
        (hrp, (characters.map (charset.idxOf ·)).take (characters.length - 6), spec) := by
  have allPlain : ∀ character ∈ hrp ++ '1' :: characters, IsPlain character := by
    intro character member
    rcases List.mem_append.mp member with member | member
    · exact plain character member
    · rcases List.mem_cons.mp member with rfl | member
      · decide
      · exact isPlain_of_mem_charset (coded character member)
  have inRange : (hrp ++ '1' :: characters).any
      (fun x => x.toNat < 33 || x.toNat > 126) = false := by
    rw [List.any_eq_false]
    intro character member
    have above := (allPlain character member).above
    have below := (allPlain character member).below
    simp only [Bool.or_eq_true, decide_eq_true_eq]
    omega
  have found : rfind '1' (hrp ++ '1' :: characters) = some hrp.length :=
    rfind_append_cons hrp fun member => one_notMem_charset (coded _ member)
  have positive : 0 < hrp.length := List.length_pos_iff.mpr nonempty
  have lengths : (hrp ++ '1' :: characters).length = hrp.length + 1 + characters.length := by
    rw [List.length_append, List.length_cons]
    omega
  have after : (hrp ++ '1' :: characters).drop (hrp.length + 1) = characters := by
    rw [List.drop_append, List.drop_eq_nil_of_le (Nat.le_succ _), List.nil_append]
    simp
  have allCoded : characters.all (charset.contains ·) = true := by
    rw [List.all_eq_true]
    intro character member
    rw [List.contains_iff_mem]
    exact coded character member
  unfold bech32Decode
  simp only [inRange, map_toLower_of_plain allPlain, bne_self_eq_false, Bool.false_and,
    Bool.or_false, Bool.false_eq_true, if_false, found, after, allCoded, not_true_eq_false,
    lengths, List.length_map, List.take_left]
  rw [if_neg (by omega)]
  cases bech32VerifyChecksum hrp (characters.map (charset.idxOf ·)) with
  | none => rfl
  | some spec => rfl

/-- What an accepted text looks like. -/
theorem exists_of_bech32Decode {bech hrp : List Char} {data : List Nat} {spec : Nat}
    (decoded : bech32Decode bech = some (hrp, data, spec)) :
    ∃ characters, bech.map Char.toLower = hrp ++ '1' :: characters ∧
      (∀ character ∈ characters, character ∈ charset) ∧
      data = (characters.map (charset.idxOf ·)).take (characters.length - 6) ∧
      bech32VerifyChecksum hrp (characters.map (charset.idxOf ·)) = some spec ∧
      6 ≤ characters.length := by
  unfold bech32Decode at decoded
  split at decoded
  · cases decoded
  · dsimp only at decoded
    split at decoded
    · cases decoded
    · next pos found =>
        split_ifs at decoded with bounds coded
        split at decoded
        · cases decoded
        · next verified =>
            cases decoded
            refine ⟨(bech.map Char.toLower).drop (pos + 1), eq_append_of_rfind found, ?_, ?_,
              verified, ?_⟩
            · intro character member
              rw [List.all_eq_true] at coded
              exact List.contains_iff_mem.mp (coded character member)
            · rw [List.length_map]
            · rw [List.length_drop]
              omega

theorem lt_of_mem_bech32Decode {bech hrp : List Char} {data : List Nat} {spec value : Nat}
    (decoded : bech32Decode bech = some (hrp, data, spec)) (member : value ∈ data) :
    value < 32 := by
  obtain ⟨characters, -, coded, rfl, -⟩ := exists_of_bech32Decode decoded
  obtain ⟨character, inText, rfl⟩ := List.mem_map.mp (List.mem_of_mem_take member)
  rw [← length_charset]
  exact List.idxOf_lt_length_iff.mpr (coded character inText)

theorem length_bech32CreateChecksum (hrp : List Char) (data : List Nat) (spec : Nat) :
    (bech32CreateChecksum hrp data spec).length = 6 := by
  rw [bech32CreateChecksum, List.length_map, List.length_range]

/-- Five-bit values survive encoding and decoding. -/
theorem exists_bech32Encode {hrp : List Char} {data : List Nat} {spec : Nat}
    (nonempty : hrp ≠ []) (plain : ∀ character ∈ hrp, IsPlain character)
    (small : ∀ value ∈ data, value < 32) (short : hrp.length + 7 + data.length ≤ 90)
    (known : spec = bech32Const ∨ spec = bech32mConst) :
    ∃ characters, bech32Encode hrp data spec = .ok (hrp ++ '1' :: characters) ∧
      bech32Decode (hrp ++ '1' :: characters) = some (hrp, data, spec) := by
  have combinedSmall : ∀ value ∈ data ++ bech32CreateChecksum hrp data spec, value < 32 := by
    intro value member
    rcases List.mem_append.mp member with member | member
    · exact small value member
    · obtain ⟨i, -, rfl⟩ := List.mem_map.mp member
      exact mask_lt 5 _
  obtain ⟨characters, encoded, coded, indices⟩ := exists_mapM_charsetAt combinedSmall
  have length : characters.length = data.length + 6 := by
    rw [← length_bech32CreateChecksum hrp data spec, ← List.length_append, ← indices,
      List.length_map]
  refine ⟨characters, ?_, ?_⟩
  · rw [bech32Encode, encoded]
    rfl
  · rw [bech32Decode_plain nonempty plain coded (by omega) (by omega), indices,
      bech32VerifyChecksum_createChecksum hrp data known, length]
    simp

/-- A witness program survives encoding and decoding. -/
theorem exists_encodeSegwitAddress {hrp : List Char} {witnessVersion : Nat}
    {witnessProgram : Bytes} (nonempty : hrp ≠ [])
    (plain : ∀ character ∈ hrp, IsPlain character) (version : witnessVersion < 32)
    (long : 2 ≤ witnessProgram.length) (short : witnessProgram.length ≤ 40)
    (total : hrp.length + 8 + (8 * witnessProgram.length + 4) / 5 ≤ 90) :
    ∃ characters, encodeSegwitAddress hrp witnessVersion witnessProgram =
        .ok (hrp ++ '1' :: characters) ∧
      decodeSegwitAddress hrp (hrp ++ '1' :: characters) =
        some (witnessVersion, witnessProgram) := by
  obtain ⟨conv, converted, small, length, restored⟩ := exists_convertbits_bytes witnessProgram
  have known : (if witnessVersion = 0 then bech32Const else bech32mConst) = bech32Const ∨
      (if witnessVersion = 0 then bech32Const else bech32mConst) = bech32mConst := by
    split
    · exact Or.inl rfl
    · exact Or.inr rfl
  have allSmall : ∀ value ∈ witnessVersion :: conv, value < 32 := by
    intro value member
    rcases List.mem_cons.mp member with rfl | member
    · exact version
    · exact small value member
  obtain ⟨characters, encoded, decoded⟩ := exists_bech32Encode nonempty plain allSmall
    (by rw [List.length_cons, length]; omega) known
  refine ⟨characters, ?_, ?_⟩
  · rw [encodeSegwitAddress, converted]
    exact encoded
  · have bytes : (witnessProgram.map UInt8.toNat).map UInt8.ofNat = witnessProgram := by
      simp [Function.comp_def]
    have spec : ¬(witnessVersion = 0 ∧
        (if witnessVersion = 0 then bech32Const else bech32mConst) ≠ bech32Const) := by
      rintro ⟨zero, wrong⟩
      exact wrong (if_pos zero)
    have spec' : ¬(witnessVersion > 0 ∧
        (if witnessVersion = 0 then bech32Const else bech32mConst) ≠ bech32mConst) := by
      rintro ⟨positive, wrong⟩
      exact wrong (if_neg (by omega))
    rw [decodeSegwitAddress, decoded]
    dsimp only
    rw [if_neg (fun wrong => wrong rfl), if_neg spec, if_neg spec', restored]
    dsimp only
    rw [List.length_map, if_neg (by omega), bytes]

/-- What an accepted address looks like. -/
theorem exists_of_decodeSegwitAddress {hrp addr : List Char} {version : Nat} {program : Bytes}
    (accepted : decodeSegwitAddress hrp addr = some (version, program)) :
    ∃ data spec decoded, bech32Decode addr = some (hrp, version :: data, spec) ∧
      convertbits data 5 8 false = some decoded ∧ program = decoded.map UInt8.ofNat ∧
      2 ≤ decoded.length ∧ decoded.length ≤ 40 ∧
      spec = if version = 0 then bech32Const else bech32mConst := by
  unfold decodeSegwitAddress at accepted
  split at accepted
  · cases accepted
  · next decHrp data spec found =>
      split_ifs at accepted with sameHrp
      split at accepted
      · cases accepted
      · next first rest =>
          split_ifs at accepted with plainSpec modifiedSpec
          have chosen : spec = if first = 0 then bech32Const else bech32mConst := by
            split_ifs with zero
            · by_contra wrong
              exact plainSpec ⟨zero, wrong⟩
            · by_contra wrong
              exact modifiedSpec ⟨Nat.pos_of_ne_zero zero, wrong⟩
          split at accepted
          · cases accepted
          · next decoded converted =>
              split_ifs at accepted with lengths
              cases accepted
              rw [not_not] at sameHrp
              subst sameHrp
              exact ⟨rest, spec, decoded, found, converted, rfl, by omega, by omega, chosen⟩

theorem version_lt_of_decodeSegwitAddress {hrp addr : List Char} {version : Nat}
    {program : Bytes} (accepted : decodeSegwitAddress hrp addr = some (version, program)) :
    version < 32 := by
  obtain ⟨data, spec, decoded, found, -⟩ := exists_of_decodeSegwitAddress accepted
  exact lt_of_mem_bech32Decode found List.mem_cons_self

/-- An address is accepted under one prefix only. -/
theorem decodeSegwitAddress_unique {hrp hrp' addr : List Char} {result result' : Nat × Bytes}
    (accepted : decodeSegwitAddress hrp addr = some result)
    (accepted' : decodeSegwitAddress hrp' addr = some result') : result = result' := by
  obtain ⟨data, spec, decoded, found, -⟩ := exists_of_decodeSegwitAddress accepted
  obtain ⟨data', spec', decoded', found', -⟩ := exists_of_decodeSegwitAddress accepted'
  rw [found] at found'
  obtain ⟨rfl, -⟩ := Prod.mk.inj (Option.some.inj found')
  rw [accepted] at accepted'
  exact Option.some.inj accepted'

end QuantyCoin
