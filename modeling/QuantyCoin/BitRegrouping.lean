import Mathlib.Data.List.Induction
import Mathlib.Data.Nat.Bitwise

/-!
# Groups of bits

A number as the string of its lowest bits, most significant first, and a list
of numbers as the concatenation of groups of one width.  Two lists of groups
with short remainders that spell the same bits are the same: this is what makes
a conversion between widths reversible.
-/

namespace BitRegrouping

/-- The lowest bits of a number, most significant first. -/
def bitsOf : Nat → Nat → List Bool
  | 0, _ => []
  | width + 1, value => value.testBit width :: bitsOf width value

@[simp]
theorem length_bitsOf (width value : Nat) : (bitsOf width value).length = width := by
  induction width with
  | zero => rfl
  | succ width ih => rw [bitsOf, List.length_cons, ih]

theorem bitsOf_congr {width first second : Nat}
    (same : ∀ place < width, first.testBit place = second.testBit place) :
    bitsOf width first = bitsOf width second := by
  induction width with
  | zero => rfl
  | succ width ih =>
      rw [bitsOf, bitsOf, same width (Nat.lt_succ_self width)]
      rw [ih fun place below => same place (Nat.lt_succ_of_lt below)]

theorem testBit_eq_of_bitsOf_eq {width first second : Nat}
    (equal : bitsOf width first = bitsOf width second) {place : Nat} (below : place < width) :
    first.testBit place = second.testBit place := by
  induction width with
  | zero => omega
  | succ width ih =>
      rw [bitsOf, bitsOf] at equal
      injection equal with highest others
      rcases Nat.lt_succ_iff_lt_or_eq.mp below with lower | rfl
      · exact ih others lower
      · exact highest

theorem eq_of_bitsOf_eq {width first second : Nat} (firstSmall : first < 2 ^ width)
    (secondSmall : second < 2 ^ width) (equal : bitsOf width first = bitsOf width second) :
    first = second := by
  apply Nat.eq_of_testBit_eq
  intro place
  rcases Nat.lt_or_ge place width with below | above
  · exact testBit_eq_of_bitsOf_eq equal below
  · have larger := Nat.pow_le_pow_right Nat.two_pos above
    rw [Nat.testBit_lt_two_pow (by omega), Nat.testBit_lt_two_pow (by omega)]

theorem bitsOf_zero (width : Nat) : bitsOf width 0 = List.replicate width false := by
  induction width with
  | zero => rfl
  | succ width ih => rw [bitsOf, ih, Nat.zero_testBit, List.replicate_succ]

theorem bitsOf_add (high low value : Nat) :
    bitsOf (high + low) value = bitsOf high (value >>> low) ++ bitsOf low value := by
  induction high with
  | zero => simp [bitsOf]
  | succ high ih =>
      rw [Nat.add_right_comm, bitsOf, bitsOf, ih, Nat.testBit_shiftRight, List.cons_append,
        Nat.add_comm low high]

theorem mask_lt (width value : Nat) : value &&& (2 ^ width - 1) < 2 ^ width :=
  Nat.and_lt_two_pow _ (Nat.sub_one_lt (Nat.two_pow_pos width).ne')

theorem bitsOf_mask (width value : Nat) :
    bitsOf width (value &&& (2 ^ width - 1)) = bitsOf width value := by
  apply bitsOf_congr
  intro place below
  simp [below]

/-- Appending the bits of a number below the accumulated ones, where a mask may
cut off what has been read already. -/
theorem bitsOf_accumulate {held width mask acc value : Nat} (small : value < 2 ^ width)
    (room : held + width ≤ mask) :
    bitsOf (held + width) ((acc <<< width ||| value) &&& (2 ^ mask - 1)) =
      bitsOf held acc ++ bitsOf width value := by
  rw [bitsOf_add]
  congr 1
  · apply bitsOf_congr
    intro place below
    have above : value.testBit (width + place) = false := by
      apply Nat.testBit_lt_two_pow
      have larger := Nat.pow_le_pow_right Nat.two_pos (Nat.le_add_right width place)
      omega
    have inside : width + place < mask := by omega
    simp [Nat.testBit_shiftRight, Nat.testBit_or, Nat.testBit_shiftLeft, above, inside]
  · apply bitsOf_congr
    intro place below
    have inside : place < mask := by omega
    simp [Nat.testBit_or, Nat.testBit_shiftLeft, below, inside]

/-- Shifting the held bits to the top of a group fills it up with zeros. -/
theorem bitsOf_shiftLeft_mask {held width acc : Nat} (fits : held ≤ width) :
    bitsOf width (acc <<< (width - held) &&& (2 ^ width - 1)) =
      bitsOf held acc ++ List.replicate (width - held) false := by
  have split := bitsOf_add held (width - held) (acc <<< (width - held) &&& (2 ^ width - 1))
  rw [Nat.add_sub_cancel' fits] at split
  rw [split, ← bitsOf_zero]
  congr 1
  · apply bitsOf_congr
    intro place below
    have inside : width - held + place < width := by omega
    simp [Nat.testBit_shiftRight, Nat.testBit_shiftLeft, inside]
  · apply bitsOf_congr
    intro place below
    have outside : ¬width - held ≤ place := by omega
    rw [Nat.testBit_and, Nat.testBit_shiftLeft, decide_eq_false outside, Nat.zero_testBit,
      Bool.false_and, Bool.false_and]

/-! ## Lists of groups -/

theorem length_flatMap_bitsOf (width : Nat) (values : List Nat) :
    (values.flatMap (bitsOf width)).length = width * values.length := by
  induction values with
  | nil => rfl
  | cons value values ih =>
      rw [List.flatMap_cons, List.length_append, ih, length_bitsOf, List.length_cons,
        Nat.mul_succ, Nat.add_comm]

/-- Groups and a remainder shorter than a group are determined by the bits they
spell. -/
theorem groups_unique {width : Nat} {first second : List Nat} {rest rest' : List Bool}
    (firstSmall : ∀ value ∈ first, value < 2 ^ width)
    (secondSmall : ∀ value ∈ second, value < 2 ^ width)
    (short : rest.length < width) (short' : rest'.length < width)
    (equal : first.flatMap (bitsOf width) ++ rest = second.flatMap (bitsOf width) ++ rest') :
    first = second ∧ rest = rest' := by
  induction first generalizing second with
  | nil =>
      cases second with
      | nil => exact ⟨rfl, equal⟩
      | cons value second =>
          have lengths := congrArg List.length equal
          simp only [List.flatMap_nil, List.nil_append, List.flatMap_cons, List.length_append,
            length_bitsOf] at lengths
          omega
  | cons value first ih =>
      cases second with
      | nil =>
          have lengths := congrArg List.length equal
          simp only [List.flatMap_nil, List.nil_append, List.flatMap_cons, List.length_append,
            length_bitsOf] at lengths
          omega
      | cons value' second =>
          rw [List.flatMap_cons, List.flatMap_cons, List.append_assoc, List.append_assoc] at equal
          obtain ⟨group, others⟩ := List.append_inj equal (by simp)
          obtain ⟨rfl, sameRest⟩ := ih
            (fun other member => firstSmall other (List.mem_cons_of_mem _ member))
            (fun other member => secondSmall other (List.mem_cons_of_mem _ member)) others
          have sameValue := eq_of_bitsOf_eq (firstSmall value List.mem_cons_self)
            (secondSmall value' List.mem_cons_self) group
          exact ⟨by rw [sameValue], sameRest⟩

/-! ## Reading groups -/

/-- The number that a string of bits stands for. -/
def ofBits (bits : List Bool) : Nat := bits.foldl (fun value bit => 2 * value + bit.toNat) 0

/-- Consecutive strings of one width, the last one possibly shorter. -/
def slices (width : Nat) (bits : List Bool) : List (List Bool) :=
  (List.range ((bits.length + width - 1) / width)).map fun i => (bits.drop (width * i)).take width

/-- The numbers of consecutive groups. -/
def regroup (width : Nat) (bits : List Bool) : List Nat := (slices width bits).map ofBits

theorem ofBits_append_singleton (bits : List Bool) (bit : Bool) :
    ofBits (bits ++ [bit]) = 2 * ofBits bits + bit.toNat := by
  rw [ofBits, List.foldl_append]
  rfl

theorem ofBits_lt (bits : List Bool) : ofBits bits < 2 ^ bits.length := by
  induction bits using List.reverseRecOn with
  | nil => decide
  | append_singleton bits bit ih =>
      rw [ofBits_append_singleton, List.length_append, List.length_singleton, pow_succ]
      have bound : bit.toNat ≤ 1 := Bool.toNat_le bit
      omega

theorem bitsOf_ofBits (bits : List Bool) : bitsOf bits.length (ofBits bits) = bits := by
  induction bits using List.reverseRecOn with
  | nil => rfl
  | append_singleton bits bit ih =>
      have half : (2 * ofBits bits + bit.toNat) >>> 1 = ofBits bits := by
        rw [Nat.shiftRight_eq_div_pow]
        have bound : bit.toNat ≤ 1 := Bool.toNat_le bit
        omega
      have last : bitsOf 1 (2 * ofBits bits + bit.toNat) = [bit] := by
        cases bit <;> simp [bitsOf]
      rw [ofBits_append_singleton, List.length_append, List.length_singleton, bitsOf_add, half, ih,
        last]

theorem ofBits_bitsOf {width value : Nat} (small : value < 2 ^ width) :
    ofBits (bitsOf width value) = value := by
  have bound := ofBits_lt (bitsOf width value)
  have same := bitsOf_ofBits (bitsOf width value)
  rw [length_bitsOf] at bound same
  exact eq_of_bitsOf_eq bound small same

theorem slices_append {width : Nat} {first : List Bool} (rest : List Bool)
    (length : first.length = width) (positive : 0 < width) :
    slices width (first ++ rest) = first :: slices width rest := by
  have count : ((first ++ rest).length + width - 1) / width =
      (rest.length + width - 1) / width + 1 := by
    rw [List.length_append, length, ← Nat.add_div_right _ positive]
    congr 1
    omega
  rw [slices, count, List.range_succ_eq_map, List.map_cons, List.map_map]
  congr 1
  · rw [Nat.mul_zero, List.drop_zero, ← length, List.take_left]
  · refine List.map_congr_left fun i _ => ?_
    rw [Function.comp_apply, Nat.mul_succ, Nat.add_comm, ← List.drop_drop, ← length,
      List.drop_left]

/-- Reading groups gives back the numbers that were written. -/
theorem regroup_flatMap {width : Nat} (positive : 0 < width) {values : List Nat}
    (small : ∀ value ∈ values, value < 2 ^ width) :
    regroup width (values.flatMap (bitsOf width)) = values := by
  induction values with
  | nil =>
      have none : (0 + width - 1) / width = 0 := Nat.div_eq_of_lt (by omega)
      rw [regroup, List.flatMap_nil, slices, List.length_nil, none]
      rfl
  | cons value values ih =>
      rw [List.flatMap_cons, regroup, slices_append _ (length_bitsOf width value) positive,
        List.map_cons, ofBits_bitsOf (small value List.mem_cons_self)]
      rw [← regroup, ih fun other member => small other (List.mem_cons_of_mem _ member)]

/-- Groups that fill a string spell it. -/
theorem flatMap_regroup {width count : Nat} (positive : 0 < width) {bits : List Bool}
    (length : bits.length = width * count) :
    (regroup width bits).flatMap (bitsOf width) = bits ∧ (regroup width bits).length = count ∧
      ∀ value ∈ regroup width bits, value < 2 ^ width := by
  induction count generalizing bits with
  | zero =>
      obtain rfl := List.eq_nil_of_length_eq_zero length
      have none : (0 + width - 1) / width = 0 := Nat.div_eq_of_lt (by omega)
      rw [regroup, slices, List.length_nil, none]
      exact ⟨rfl, rfl, fun _ member => nomatch member⟩
  | succ count ih =>
      rw [Nat.mul_succ] at length
      have firstLength : (bits.take width).length = width := by
        rw [List.length_take]
        omega
      have restLength : (bits.drop width).length = width * count := by
        rw [List.length_drop]
        omega
      obtain ⟨spelled, counted, small⟩ := ih restLength
      have split : regroup width bits =
          ofBits (bits.take width) :: regroup width (bits.drop width) := by
        conv_lhs => rw [← List.take_append_drop width bits]
        rw [regroup, slices_append _ firstLength positive, List.map_cons, ← regroup]
      have first := bitsOf_ofBits (bits.take width)
      have firstSmall := ofBits_lt (bits.take width)
      rw [firstLength] at first firstSmall
      rw [split]
      refine ⟨?_, by rw [List.length_cons, counted], ?_⟩
      · rw [List.flatMap_cons, spelled, first, List.take_append_drop]
      · intro value member
        rcases List.mem_cons.mp member with rfl | member
        · exact firstSmall
        · exact small value member

end BitRegrouping
