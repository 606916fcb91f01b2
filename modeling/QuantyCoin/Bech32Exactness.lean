import QuantyCoin.Bech32

/-!
# Exactness of Bech32 addresses

Every accepted address in lower case is the one that the encoder writes, and an
address with one wrong character is not accepted.
-/

namespace QuantyCoin

open ByteDecoder BitRegrouping

/-! ## One checksum -/

theorem polymodStep_eq_add {chk value : Nat} (low : chk < 2 ^ 25) (small : value < 32) :
    polymodStep chk value = chk * 32 + value := by
  have disjoint : (chk <<< 5) ^^^ value = (chk <<< 5) ||| value := by
    apply Nat.eq_of_testBit_eq
    intro place
    rw [Nat.testBit_xor, Nat.testBit_or, Nat.testBit_shiftLeft]
    rcases Nat.lt_or_ge place 5 with below | above
    · simp [Nat.not_le.mpr below]
    · have clear : value.testBit place = false :=
        Nat.testBit_lt_two_pow
          (Nat.lt_of_lt_of_le small (Nat.pow_le_pow_right (by decide : 2 > 0) above))
      simp [clear]
  have packed : chk <<< 5 + value = (chk <<< 5) ||| value :=
    @Nat.shiftLeft_add_eq_or_of_lt 5 value small chk
  rw [polymodStep_of_lt low, disjoint, ← packed, Nat.shiftLeft_eq]

/-- Six five-bit values are the digits of what they leave in an empty register. -/
theorem eq_digits_of_foldl {values : List Nat} (length : values.length = 6)
    (small : ∀ value ∈ values, value < 32) :
    values = (List.range 6).map fun i =>
      (values.foldl polymodStep 0 >>> (5 * (5 - i))) &&& 31 := by
  obtain ⟨a, b, c, d, e, f, rfl⟩ : ∃ a b c d e f, values = [a, b, c, d, e, f] := by
    match values, length with
    | [a, b, c, d, e, f], _ => exact ⟨a, b, c, d, e, f, rfl⟩
  have smallA := small a (by simp)
  have smallB := small b (by simp)
  have smallC := small c (by simp)
  have smallD := small d (by simp)
  have smallE := small e (by simp)
  have smallF := small f (by simp)
  have number : [a, b, c, d, e, f].foldl polymodStep 0 =
      ((((a * 32 + b) * 32 + c) * 32 + d) * 32 + e) * 32 + f := by
    simp only [List.foldl_cons, List.foldl_nil]
    rw [polymodStep_eq_add (by decide) smallA, Nat.zero_mul, Nat.zero_add,
      polymodStep_eq_add (by omega) smallB, polymodStep_eq_add (by omega) smallC,
      polymodStep_eq_add (by omega) smallD, polymodStep_eq_add (by omega) smallE,
      polymodStep_eq_add (by omega) smallF]
  have range : List.range 6 = [0, 1, 2, 3, 4, 5] := rfl
  have mask (value : Nat) : value &&& 31 = value % 2 ^ 5 := Nat.and_two_pow_sub_one_eq_mod value 5
  rw [number, range]
  simp only [List.map_cons, List.map_nil, mask, Nat.shiftRight_eq_div_pow, List.cons.injEq,
    and_true]
  refine ⟨?_, ?_, ?_, ?_, ?_, ?_⟩ <;> omega

/-- The checksum is the only continuation by six values that verifies. -/
theorem eq_createChecksum_of_polymod {hrp : List Char} {data last : List Nat} {spec : Nat}
    (length : last.length = 6) (small : ∀ value ∈ last, value < 32)
    (verified : bech32Polymod (bech32HrpExpand hrp ++ (data ++ last)) = spec) :
    last = bech32CreateChecksum hrp data spec := by
  unfold bech32CreateChecksum
  rw [← List.append_assoc] at verified
  unfold bech32Polymod at verified ⊢
  generalize bech32HrpExpand hrp ++ data = values at verified ⊢
  simp only [List.foldl_append] at verified ⊢
  generalize values.foldl polymodStep 1 = chk at verified ⊢
  have linear := foldl_polymodStep_xor last chk 0
  rw [Nat.xor_zero, verified, length] at linear
  have rest : last.foldl polymodStep 0 =
      List.foldl polymodStep chk [0, 0, 0, 0, 0, 0] ^^^ spec := by
    rw [linear, ← Nat.xor_assoc]
    change _ = List.foldl polymodStep chk [0, 0, 0, 0, 0, 0] ^^^
      List.foldl polymodStep chk [0, 0, 0, 0, 0, 0] ^^^ _
    rw [Nat.xor_self, Nat.zero_xor]
  rw [← rest]
  exact eq_digits_of_foldl length small

/-! ## One regrouping -/

/-- What regrouping without padding accepts is what regrouping with padding writes. -/
theorem convertbits_pad_of_convertbits {data decoded : List Nat}
    (small : ∀ value ∈ data, value < 2 ^ 5) (converted : convertbits data 5 8 false = some decoded) :
    (∀ value ∈ decoded, value < 2 ^ 8) ∧ convertbits decoded 8 5 true = some data := by
  obtain ⟨acc, bits, ret, found, short, bounded, spelled⟩ :=
    @exists_convertLoop 5 8 (by decide) data 0 0 small (by decide)
  rw [bitsOf, List.nil_append] at spelled
  rw [convertbits, found] at converted
  dsimp only at converted
  rw [if_neg (by decide)] at converted
  split_ifs at converted with rejected
  cases converted
  rw [not_or, not_not, Nat.not_le] at rejected
  refine ⟨bounded, ?_⟩
  -- the bits that are left over are zeros
  have zeros : bitsOf bits acc = List.replicate bits false := by
    have filled := @bitsOf_shiftLeft_mask bits 8 acc short.le
    rw [rejected.2, bitsOf_zero, ← Nat.add_sub_cancel' short.le, ← List.replicate_append_replicate,
      Nat.add_sub_cancel_left] at filled
    exact (List.append_cancel_right filled).symm
  obtain ⟨groups, count, padded, few, groupsBounded, groupsSpelled⟩ :=
    @exists_convertbits_pad 8 5 (by decide) decoded bounded
  have lengths := congrArg List.length groupsSpelled
  have lengths' := congrArg List.length spelled
  rw [List.length_append, length_flatMap_bitsOf, length_flatMap_bitsOf,
    List.length_replicate] at lengths
  rw [List.length_append, length_flatMap_bitsOf, length_flatMap_bitsOf, length_bitsOf] at lengths'
  obtain rfl : count = bits := by omega
  rw [zeros, ← groupsSpelled] at spelled
  have same := @groups_unique 5 data groups [] [] small groupsBounded (by decide) (by decide)
    (by rw [List.append_nil, List.append_nil, spelled])
  rw [padded, same.1]

/-! ## One address -/

theorem mapM_charsetAt_idxOf {characters : List Char}
    (coded : ∀ character ∈ characters, character ∈ charset) :
    (characters.map (charset.idxOf ·)).mapM charsetAt = .ok characters := by
  induction characters with
  | nil => rfl
  | cons character characters ih =>
      have inside := List.idxOf_lt_length_iff.mpr (coded character List.mem_cons_self)
      have first : charsetAt (charset.idxOf character) = .ok character := by
        rw [charsetAt, List.getElem?_eq_getElem inside, List.getElem_idxOf]
      rw [List.map_cons, List.mapM_cons, first,
        ih fun other member => coded other (List.mem_cons_of_mem _ member)]
      rfl

/-- The values of an accepted text end with their checksum. -/
theorem eq_append_checksum {hrp : List Char} {values : List Nat} {spec : Nat}
    (small : ∀ value ∈ values, value < 32) (long : 6 ≤ values.length)
    (verified : bech32VerifyChecksum hrp values = some spec) :
    values = values.take (values.length - 6) ++
      bech32CreateChecksum hrp (values.take (values.length - 6)) spec := by
  have check : bech32Polymod (bech32HrpExpand hrp ++ values) = spec := by
    rw [bech32VerifyChecksum] at verified
    split_ifs at verified with plain modified
    · cases verified
      exact plain
    · cases verified
      exact modified
  have length : (values.drop (values.length - 6)).length = 6 := by
    rw [List.length_drop]
    omega
  rw [← eq_createChecksum_of_polymod length
    (fun value member => small value (List.mem_of_mem_drop member))
    (by rw [List.take_append_drop]; exact check), List.take_append_drop]

theorem lt_of_mem_map_idxOf {characters : List Char}
    (coded : ∀ character ∈ characters, character ∈ charset) :
    ∀ value ∈ characters.map (charset.idxOf ·), value < 32 := by
  intro value member
  obtain ⟨character, inside, rfl⟩ := List.mem_map.mp member
  rw [← length_charset]
  exact List.idxOf_lt_length_iff.mpr (coded character inside)

theorem bech32Encode_of_decode {addr hrp : List Char} {data : List Nat} {spec : Nat}
    (lower : addr.map Char.toLower = addr)
    (decoded : bech32Decode addr = some (hrp, data, spec)) :
    bech32Encode hrp data spec = .ok addr := by
  obtain ⟨characters, text, coded, rfl, verified, long⟩ := exists_of_bech32Decode decoded
  have whole := eq_append_checksum (lt_of_mem_map_idxOf coded) (by simpa using long) verified
  rw [List.length_map] at whole
  rw [bech32Encode, ← whole, mapM_charsetAt_idxOf coded, ← lower, text]
  rfl

/-- An accepted address in lower case is the one that its contents are written as. -/
theorem encodeSegwitAddress_of_decode {hrp addr : List Char} {version : Nat} {program : Bytes}
    (lower : addr.map Char.toLower = addr)
    (accepted : decodeSegwitAddress hrp addr = some (version, program)) :
    encodeSegwitAddress hrp version program = .ok addr := by
  obtain ⟨data, spec, decoded, found, converted, rfl, -, -, chosen⟩ :=
    exists_of_decodeSegwitAddress accepted
  have small : ∀ value ∈ data, value < 2 ^ 5 := fun value member =>
    lt_of_mem_bech32Decode found (List.mem_cons_of_mem _ member)
  obtain ⟨bytes, padded⟩ := convertbits_pad_of_convertbits small converted
  rw [encodeSegwitAddress, map_toNat_map_ofNat bytes, padded]
  dsimp only
  rw [← chosen]
  exact bech32Encode_of_decode lower found

theorem map_toLower_of_not_isUpper {text : List Char}
    (noUpper : ∀ character ∈ text, character.isUpper = false) :
    text.map Char.toLower = text :=
  map_eq_self fun character member => dif_neg (of_decide_eq_false (noUpper character member))

/-- The constant that goes with a version. -/
def versionSpec (version : Nat) : Nat := if version = 0 then bech32Const else bech32mConst

/-- The values of a text under a prefix: they begin with the version and leave its constant
in the register. -/
structure SpellsVersion (hrp : List Char) (version : Nat) (characters : List Char)
    (rest : List Nat) : Prop where
  coded : ∀ character ∈ characters, character ∈ charset
  values : characters.map (charset.idxOf ·) = version :: rest
  check : bech32Polymod (bech32HrpExpand hrp ++ version :: rest) = versionSpec version

/-- The encoder never raises. -/
theorem exists_encodeSegwitAddress_spells (hrp : List Char) {version : Nat} (small : version < 32)
    (program : Bytes) :
    ∃ characters rest, encodeSegwitAddress hrp version program = .ok (hrp ++ '1' :: characters) ∧
      SpellsVersion hrp version characters rest ∧
      rest.length = 6 + (8 * program.length + 4) / 5 := by
  obtain ⟨conv, converted, convSmall, length, -⟩ := exists_convertbits_bytes program
  rw [encodeSegwitAddress, converted]
  dsimp only
  change ∃ characters rest, bech32Encode hrp (version :: conv) (versionSpec version) = _ ∧ _
  have specSmall : versionSpec version < 2 ^ 30 := by
    rw [versionSpec]
    split_ifs <;> decide
  have valuesSmall : ∀ value ∈ version :: conv ++
      bech32CreateChecksum hrp (version :: conv) (versionSpec version), value < 32 := by
    intro value member
    rcases List.mem_append.mp member with member | member
    · rcases List.mem_cons.mp member with rfl | member
      · exact small
      · exact convSmall value member
    · obtain ⟨i, -, rfl⟩ := List.mem_map.mp member
      exact mask_lt 5 _
  obtain ⟨characters, encoded, coded, indices⟩ := exists_mapM_charsetAt valuesSmall
  refine ⟨characters, conv ++ bech32CreateChecksum hrp (version :: conv) (versionSpec version),
    by rw [bech32Encode, encoded]; rfl, ⟨coded, indices, ?_⟩, ?_⟩
  · exact bech32Polymod_createChecksum hrp (version :: conv) specSmall
  · rw [List.length_append, length_bech32CreateChecksum, length, Nat.add_comm]

theorem SpellsVersion.length {hrp characters : List Char} {version : Nat} {rest : List Nat}
    (spells : SpellsVersion hrp version characters rest) :
    characters.length = rest.length + 1 := by
  rw [← List.length_map (charset.idxOf ·), spells.values, List.length_cons]

/-- Witness programs and addresses in lower case correspond. -/
theorem segwitAddresses_bijective :
    (∀ (hrp : List Char) (version : Nat) (program : Bytes), hrp ≠ [] →
      (∀ character ∈ hrp, IsPlain character) → version < 32 → 2 ≤ program.length →
      program.length ≤ 40 → ∃ address, encodeSegwitAddress hrp version program = .ok address ∧
        (address.length ≤ 90 →
          decodeSegwitAddress hrp address = some (version, program))) ∧
    ∀ (hrp address : List Char) (version : Nat) (program : Bytes),
      (∀ character ∈ address, character.isUpper = false) →
      decodeSegwitAddress hrp address = some (version, program) →
        encodeSegwitAddress hrp version program = .ok address := by
  constructor
  · intro hrp version program nonempty plain small long short
    obtain ⟨characters, rest, encoded, spells, length⟩ :=
      exists_encodeSegwitAddress_spells hrp small program
    refine ⟨hrp ++ '1' :: characters, encoded, fun total => ?_⟩
    rw [List.length_append, List.length_cons, spells.length, length] at total
    replace total : hrp.length + 8 + (8 * program.length + 4) / 5 ≤ 90 := by omega
    obtain ⟨characters', encoded', decoded⟩ :=
      exists_encodeSegwitAddress nonempty plain small long short total
    rw [encoded] at encoded'
    rw [Except.ok.inj encoded']
    exact decoded
  · intro hrp address version program noUpper accepted
    exact encodeSegwitAddress_of_decode (map_toLower_of_not_isUpper noUpper) accepted

theorem segwitAddresses_bijective_short :
    (∃ address, encodeSegwitAddress ['q', 'q'] 1 [0, 1] = .ok address ∧
        (address.length ≤ 90 → decodeSegwitAddress ['q', 'q'] address = some (1, [0, 1]))) ∧
      encodeSegwitAddress ['q', 'q'] 1 [0, 1] = .ok "qq1pqqqsm2lhf6".toList := by
  have plain : IsPlain 'q' := by decide
  have noUpper : "qq1pqqqsm2lhf6".toList.all (fun character => character.isUpper = false) := by
    decide +kernel
  constructor
  · exact segwitAddresses_bijective.1 _ _ _ (by decide)
      (List.forall_mem_cons.mpr ⟨plain, List.forall_mem_singleton.mpr plain⟩) (by decide)
      (by decide) (by decide)
  · exact segwitAddresses_bijective.2 _ _ _ _
      (fun character member => of_decide_eq_true (List.all_eq_true.mp noUpper character member))
      (by decide +kernel)

/-! ## One wrong value -/

/-- Only an empty register stays empty. -/
theorem polymodStep_zero_ne_zero {chk : Nat} (small : chk < 2 ^ 30) (nonzero : chk ≠ 0) :
    polymodStep chk 0 ≠ 0 := by
  intro zero
  rw [polymodStep_eq, Nat.xor_zero, Nat.xor_eq_zero_iff] at zero
  have generators : ∀ b < 32, generatorSum b % 32 = 0 → b = 0 := by decide +kernel
  have low : generatorSum (chk >>> 25) % 32 = 0 := by
    rw [← zero, Nat.shiftLeft_eq]
    exact Nat.mul_mod_left _ _
  have high : chk >>> 25 = 0 := by
    refine generators _ ?_ low
    rw [Nat.shiftRight_eq_div_pow]
    omega
  rw [high, generatorSum_zero, Nat.shiftLeft_eq] at zero
  have mask : chk &&& 0x1ffffff = chk % 2 ^ 25 := Nat.and_two_pow_sub_one_eq_mod chk 25
  rw [mask] at zero
  rw [Nat.shiftRight_eq_div_pow] at high
  omega

theorem foldl_zeros_ne_zero {chk : Nat} (small : chk < 2 ^ 30) (nonzero : chk ≠ 0) (count : Nat) :
    (List.replicate count 0).foldl polymodStep chk ≠ 0 := by
  induction count generalizing chk with
  | zero => exact nonzero
  | succ count ih =>
      rw [List.replicate_succ, List.foldl_cons]
      exact ih (polymodStep_lt (by decide)) (polymodStep_zero_ne_zero small nonzero)

/-- Two texts that differ in one value leave registers that differ by that difference,
shifted through the rest. -/
theorem bech32Polymod_xor (before after : List Nat) (value value' : Nat) :
    bech32Polymod (before ++ value :: after) ^^^ bech32Polymod (before ++ value' :: after) =
      (List.replicate after.length 0).foldl polymodStep (value ^^^ value') := by
  unfold bech32Polymod
  simp only [List.foldl_append, List.foldl_cons]
  generalize before.foldl polymodStep 1 = chk
  have difference : polymodStep chk value ^^^ polymodStep chk value' = value ^^^ value' := by
    rw [← polymodStep_xor, Nat.xor_self, polymodStep_of_lt (by decide), Nat.zero_shiftLeft,
      Nat.zero_xor]
  have linear := foldl_polymodStep_xor after (value ^^^ value') (polymodStep chk value')
  rw [← difference, Nat.xor_assoc, Nat.xor_self, Nat.xor_zero] at linear
  rw [linear, Nat.xor_assoc, Nat.xor_self, Nat.xor_zero, difference]

/-- Whether the register never shows a value while zeros are taken in. -/
def avoids (wanted : Nat) : Nat → Nat → Bool
  | 0, chk => chk != wanted
  | count + 1, chk => chk != wanted && avoids wanted count (polymodStep chk 0)

theorem ne_of_avoids {wanted count chk : Nat} (avoided : avoids wanted count chk = true)
    {fewer : Nat} (le : fewer ≤ count) :
    (List.replicate fewer 0).foldl polymodStep chk ≠ wanted := by
  induction count generalizing chk fewer with
  | zero =>
      obtain rfl : fewer = 0 := by omega
      exact bne_iff_ne.mp avoided
  | succ count ih =>
      rw [avoids, Bool.and_eq_true, bne_iff_ne] at avoided
      cases fewer with
      | zero => exact avoided.1
      | succ fewer =>
          rw [List.replicate_succ, List.foldl_cons]
          exact ih avoided.2 (by omega)

/-- No single difference in an address turns one constant into the other. -/
theorem foldl_zeros_ne_constants {difference count : Nat} (small : difference < 32)
    (short : count ≤ 70) :
    (List.replicate count 0).foldl polymodStep difference ≠ bech32Const ^^^ bech32mConst := by
  have checked : (List.range 32).all (avoids (bech32Const ^^^ bech32mConst) 70) = true := by
    decide +kernel
  exact ne_of_avoids (List.all_eq_true.mp checked _ (List.mem_range.mpr small)) short

/-! ## One wrong character -/

theorem exists_spells_of_decode {hrp addr : List Char} {version : Nat} {program : Bytes}
    (accepted : decodeSegwitAddress hrp addr = some (version, program)) :
    ∃ characters rest, addr.map Char.toLower = hrp ++ '1' :: characters ∧
      SpellsVersion hrp version characters rest := by
  obtain ⟨data, spec, decoded, found, -, -, -, -, chosen⟩ := exists_of_decodeSegwitAddress accepted
  obtain ⟨characters, text, coded, front, verified, -⟩ := exists_of_bech32Decode found
  have values : characters.map (charset.idxOf ·) =
      version :: (data ++ (characters.map (charset.idxOf ·)).drop (characters.length - 6)) := by
    rw [← List.cons_append, front, List.take_append_drop]
  refine ⟨characters, _, text, coded, values, ?_⟩
  rw [← values, versionSpec, ← chosen]
  rw [bech32VerifyChecksum] at verified
  split_ifs at verified with plain modified
  · cases verified
    exact plain
  · cases verified
    exact modified

theorem case_of_bech32Decode {bech : List Char} {result : List Char × List Nat × Nat}
    (decoded : bech32Decode bech = some result) :
    bech.map Char.toLower = bech ∨ bech.map Char.toUpper = bech := by
  unfold bech32Decode at decoded
  split at decoded
  · cases decoded
  · next accepted =>
      rw [Bool.or_eq_true, not_or, Bool.and_eq_true, not_and_or, bne_iff_ne, bne_iff_ne, not_not,
        not_not] at accepted
      exact accepted.2

/-- The letters of the known prefixes keep a text with one change in lower case. -/
theorem map_toUpper_set_ne {hrp text : List Char}
    (known : hrp = "qty".toList ∨ hrp = "quan".toList) (position : Nat) (replacement : Char) :
    ((hrp ++ text).set position replacement).map Char.toUpper ≠
      (hrp ++ text).set position replacement := by
  intro upper
  have kept : ∀ index letter, position ≠ index → (hrp ++ text)[index]? = some letter →
      letter.toUpper = letter := by
    intro index letter other found
    have same := congrArg (·[index]?) upper
    simp only [List.getElem?_map, List.getElem?_set_ne other, found, Option.map_some,
      Option.some.injEq] at same
    exact same
  have first : (hrp ++ text)[0]? = some 'q' := by
    rcases known with rfl | rfl <;> rfl
  by_cases zero : position = 0
  · have second : (hrp ++ text)[1]? = some 't' ∨ (hrp ++ text)[1]? = some 'u' := by
      rcases known with rfl | rfl
      · exact Or.inl rfl
      · exact Or.inr rfl
    rcases second with found | found
    · exact absurd (kept 1 't' (by omega) found) (by decide)
    · exact absurd (kept 1 'u' (by omega) found) (by decide)
  · exact absurd (kept 0 'q' zero first) (by decide)

/-- Values that differ in one place do not both leave the constant of their version. -/
theorem not_spells_both {hrp before after : List Char} {letter letter' : Char}
    {version version' : Nat} {rest rest' : List Nat} (different : letter ≠ letter')
    (short : rest.length ≤ 70)
    (spells : SpellsVersion hrp version (before ++ letter :: after) rest)
    (spells' : SpellsVersion hrp version' (before ++ letter' :: after) rest') : False := by
  have inside : letter ∈ charset := spells.coded letter (by simp)
  have inside' : letter' ∈ charset := spells'.coded letter' (by simp)
  have small := List.idxOf_lt_length_iff.mpr inside
  have small' := List.idxOf_lt_length_iff.mpr inside'
  rw [length_charset] at small small'
  have nonzero : charset.idxOf letter ^^^ charset.idxOf letter' ≠ 0 := by
    rw [Ne, Nat.xor_eq_zero_iff]
    intro same
    exact different (List.idxOf_inj inside |>.mp same)
  have xorSmall : charset.idxOf letter ^^^ charset.idxOf letter' < 32 :=
    Nat.xor_lt_two_pow (n := 5) small small'
  have registers := bech32Polymod_xor
    (bech32HrpExpand hrp ++ before.map (charset.idxOf ·)) (after.map (charset.idxOf ·))
    (charset.idxOf letter) (charset.idxOf letter')
  have values := spells.values
  have values' := spells'.values
  rw [List.map_append, List.map_cons] at values values'
  rw [List.append_assoc, List.append_assoc, values, values', spells.check, spells'.check,
    List.length_map] at registers
  have sameSpec : versionSpec version = versionSpec version' → False := by
    intro same
    rw [same, Nat.xor_self] at registers
    exact foldl_zeros_ne_zero (by omega) nonzero after.length registers.symm
  cases before with
  | cons first before =>
      -- the version is the first value, before the difference
      rw [List.map_cons, List.cons_append] at values values'
      apply sameSpec
      rw [← (List.cons.inj values).1, ← (List.cons.inj values').1]
  | nil =>
      have count : after.length ≤ 70 := by
        have lengths := spells.length
        rw [List.nil_append, List.length_cons] at lengths
        omega
      have avoided := foldl_zeros_ne_constants xorSmall count
      rw [← registers] at avoided
      unfold versionSpec at avoided sameSpec
      split_ifs at avoided sameSpec with zero zero' zero'
      · exact sameSpec rfl
      · exact avoided rfl
      · exact avoided (Nat.xor_comm _ _)
      · exact sameSpec rfl

/-- An address with one wrong character is rejected. -/
theorem decodeSegwitAddress_set_eq_none {hrp : List Char}
    (known : hrp = "qty".toList ∨ hrp = "quan".toList) {version : Nat} (small : version < 32)
    {program : Bytes} (short : program.length ≤ 40)
    {address : List Char} (encoded : encodeSegwitAddress hrp version program = .ok address)
    {position : Nat} (inside : position < address.length) {replacement : Char}
    (different : replacement ≠ address[position]) :
    decodeSegwitAddress hrp (address.set position replacement) = none := by
  by_contra accepted
  obtain ⟨⟨version', program'⟩, accepted⟩ := Option.ne_none_iff_exists'.mp accepted
  obtain ⟨characters, rest, encoded', spells, length⟩ :=
    exists_encodeSegwitAddress_spells hrp small program
  rw [encoded] at encoded'
  obtain rfl := Except.ok.inj encoded'
  obtain ⟨characters', rest', text, spells'⟩ := exists_spells_of_decode accepted
  obtain ⟨data, spec, decoded, found, -⟩ := exists_of_decodeSegwitAddress accepted
  rw [(case_of_bech32Decode found).resolve_right (map_toUpper_set_ne known position replacement)]
    at text
  obtain ⟨front, cut⟩ : ∃ front, ∀ tail : List Char, hrp ++ '1' :: tail = front ++ tail :=
    ⟨hrp ++ ['1'], fun tail => by simp⟩
  simp only [cut] at text inside different
  by_cases early : position < front.length
  · -- the prefix and the separator are as they were
    rw [List.set_append_left _ _ early] at text
    have same := (List.append_inj text List.length_set).1
    have changed : front[position]? = some replacement := by
      rw [← same, List.getElem?_set_self early]
    rw [List.getElem_append_left early] at different
    rw [List.getElem?_eq_getElem early] at changed
    exact different (Option.some.inj changed).symm
  · have late := Nat.le_of_not_lt early
    have bound : position - front.length < characters.length := by
      rw [List.length_append] at inside
      omega
    rw [List.set_append_right _ _ late] at text
    obtain rfl := List.append_cancel_left text
    rw [List.getElem_append_right late] at different
    rw [← List.take_append_drop (position - front.length) characters,
      List.drop_eq_getElem_cons bound] at spells
    rw [List.set_eq_take_append_cons_drop, if_pos bound] at spells'
    exact not_spells_both different.symm (by omega) spells spells'

/-- Another version in front of the same values. -/
theorem decodeSegwitAddress_set_version :
    decodeSegwitAddress "qty".toList ("qty1qqypq3lzgnt".toList.set 4 'p') = none := by
  have encoded : encodeSegwitAddress "qty".toList 0 [0x01, 0x02] =
      .ok "qty1qqypq3lzgnt".toList := by
    decide +kernel
  exact decodeSegwitAddress_set_eq_none (Or.inl rfl) (by decide) (by decide) encoded (by decide)
    (by decide)

end QuantyCoin
