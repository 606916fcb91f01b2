import Mathlib.Data.Nat.Digits.Lemmas

/-!
# Positional digits with leading zeros

Numbers in a base, most significant digit first, and the conversion of a string
of digits from one base to another.  The number behind a string says nothing
about its leading zeros, so a conversion counts them and writes as many in the
new base.  Converting back gives the string again.
-/

namespace PositionalDigits

/-- The number that a string of digits stands for. -/
def valueOf (base : Nat) (digits : List Nat) : Nat :=
  digits.foldl (fun value digit => value * base + digit) 0

/-- Divide by the base until nothing is left, the last digit first. -/
def digitsLoop (base : Nat) : Nat → Nat → List Nat
  | 0, _ => []
  | fuel + 1, value =>
      if value = 0 then [] else value % base :: digitsLoop base fuel (value / base)

/-- The digits of a number, none for zero. -/
def digitsOf (base value : Nat) : List Nat :=
  (digitsLoop base (value.log2 + 1) value).reverse

def leadingZeros (digits : List Nat) : Nat := (digits.takeWhile (· == 0)).length

/-- Write a string of digits of one base in another. -/
def recode (source target : Nat) (digits : List Nat) : List Nat :=
  List.replicate (leadingZeros digits) 0 ++ digitsOf target (valueOf source digits)

/-! ## Digits and values -/

theorem valueOf_append (base : Nat) (first second : List Nat) :
    valueOf base (first ++ second) =
      valueOf base first * base ^ second.length + valueOf base second := by
  induction second using List.reverseRecOn with
  | nil => simp [valueOf]
  | append_singleton second digit ih =>
      simp only [valueOf, List.foldl_append, List.foldl_cons, List.foldl_nil] at ih ⊢
      rw [← List.foldl_append] at ih ⊢
      rw [ih, List.length_append, List.length_singleton, pow_succ, Nat.add_mul]
      rw [Nat.mul_assoc, Nat.add_assoc]

theorem valueOf_eq_ofDigits (base : Nat) (digits : List Nat) :
    valueOf base digits = Nat.ofDigits base digits.reverse := by
  induction digits using List.reverseRecOn with
  | nil => rfl
  | append_singleton digits digit ih =>
      rw [valueOf_append, ih, List.reverse_append]
      simp [valueOf, Nat.ofDigits_cons]
      ring

theorem digitsLoop_eq_digits {base : Nat} (two : 2 ≤ base) {fuel value : Nat}
    (enough : value < 2 ^ fuel) : digitsLoop base fuel value = Nat.digits base value := by
  induction fuel generalizing value with
  | zero =>
      have zero : value = 0 := by simpa using enough
      rw [zero, digitsLoop, Nat.digits_zero]
  | succ fuel ih =>
      rw [digitsLoop]
      split_ifs with zero
      · rw [zero, Nat.digits_zero]
      · have smaller : value / base < 2 ^ fuel := by
          rw [Nat.div_lt_iff_lt_mul (by omega)]
          calc
            value < 2 ^ fuel * 2 := by rwa [← pow_succ]
            _ ≤ 2 ^ fuel * base := Nat.mul_le_mul_left _ two
        rw [ih smaller, Nat.digits_def' (by omega) (Nat.pos_of_ne_zero zero)]

theorem digitsOf_eq_digits {base : Nat} (two : 2 ≤ base) (value : Nat) :
    digitsOf base value = (Nat.digits base value).reverse := by
  rw [digitsOf, digitsLoop_eq_digits two Nat.lt_log2_self]

theorem valueOf_digitsOf {base : Nat} (two : 2 ≤ base) (value : Nat) :
    valueOf base (digitsOf base value) = value := by
  rw [digitsOf_eq_digits two, valueOf_eq_ofDigits, List.reverse_reverse, Nat.ofDigits_digits]

theorem digitsOf_lt {base : Nat} (two : 2 ≤ base) {value digit : Nat}
    (member : digit ∈ digitsOf base value) : digit < base := by
  rw [digitsOf_eq_digits two, List.mem_reverse] at member
  exact Nat.digits_lt_base (by omega) member

/-- The first digit of a number is not zero. -/
theorem leadingZeros_digitsOf {base : Nat} (two : 2 ≤ base) (value : Nat) :
    leadingZeros (digitsOf base value) = 0 := by
  rw [digitsOf_eq_digits two]
  cases value with
  | zero => simp [leadingZeros]
  | succ value =>
      have nonempty : Nat.digits base (value + 1) ≠ [] :=
        Nat.digits_ne_nil_iff_ne_zero.mpr (by omega)
      have last := Nat.getLast_digit_ne_zero base (Nat.succ_ne_zero value)
      rw [← List.dropLast_append_getLast nonempty, List.reverse_append]
      simp [leadingZeros, last]

/-- A string without leading zeros is the digits of its number. -/
theorem digitsOf_valueOf {base : Nat} (two : 2 ≤ base) {digits : List Nat}
    (bounded : ∀ digit ∈ digits, digit < base) (trimmed : leadingZeros digits = 0) :
    digitsOf base (valueOf base digits) = digits := by
  rw [digitsOf_eq_digits two, valueOf_eq_ofDigits, Nat.digits_ofDigits base (by omega),
    List.reverse_reverse]
  · intro digit member
    exact bounded digit (List.mem_reverse.mp member)
  · intro nonempty
    cases digits with
    | nil => simp at nonempty
    | cons first digits =>
        have nonzero : first ≠ 0 := by
          rintro rfl
          simp [leadingZeros] at trimmed
        simpa using nonzero

/-- The digits of a number between two multiples of a power of the base begin
with the multiplier. -/
theorem exists_digitsOf_eq_cons {base digit power value : Nat} (two : 2 ≤ base)
    (positive : 0 < digit) (small : digit < base) (lower : digit * base ^ power ≤ value)
    (upper : value < (digit + 1) * base ^ power) :
    ∃ rest, digitsOf base value = digit :: rest := by
  have exists_digits : ∀ count number, number < base ^ count →
      ∃ digits : List Nat, digits.length = count ∧ (∀ one ∈ digits, one < base) ∧
        valueOf base digits = number := by
    intro count
    induction count with
    | zero =>
        intro number isZero
        have zero : number = 0 := by simpa using isZero
        exact ⟨[], rfl, by simp, by simp [valueOf, zero]⟩
    | succ count ih =>
        intro number bounded
        have quotient : number / base < base ^ count := by
          rw [Nat.div_lt_iff_lt_mul (by omega), ← pow_succ]
          exact bounded
        obtain ⟨digits, length, below, value⟩ := ih (number / base) quotient
        have remainder := Nat.mod_lt number (show 0 < base by omega)
        refine ⟨digits ++ [number % base], by simp [length], ?_, ?_⟩
        · intro one member
          rcases List.mem_append.mp member with member | member
          · exact below one member
          · rw [List.mem_singleton.mp member]
            exact remainder
        · rw [valueOf_append, value]
          simp only [List.length_singleton, pow_one, valueOf, List.foldl_cons, List.foldl_nil]
          have parts := Nat.div_add_mod' number base
          omega
  rw [Nat.add_mul, Nat.one_mul] at upper
  obtain ⟨digits, length, below, rest⟩ := exists_digits power (value - digit * base ^ power)
    (by omega)
  refine ⟨digits, ?_⟩
  have whole : valueOf base (digit :: digits) = value := by
    rw [← List.singleton_append, valueOf_append, rest, length]
    simp only [valueOf, List.foldl_cons, List.foldl_nil, Nat.zero_mul, Nat.zero_add]
    omega
  rw [← whole]
  apply digitsOf_valueOf two
  · intro one member
    rcases List.mem_cons.mp member with rfl | member
    · exact small
    · exact below one member
  · simp [leadingZeros, Nat.pos_iff_ne_zero.mp positive]

/-! ## Conversion -/

theorem valueOf_replicate_zero_append (base count : Nat) (digits : List Nat) :
    valueOf base (List.replicate count 0 ++ digits) = valueOf base digits := by
  have zeros : valueOf base (List.replicate count 0) = 0 := by
    induction count with
    | zero => rfl
    | succ count ih =>
        rw [List.replicate_succ', valueOf_append, ih]
        simp [valueOf]
  rw [valueOf_append, zeros, Nat.zero_mul, Nat.zero_add]

theorem leadingZeros_replicate_append (count : Nat) {digits : List Nat}
    (trimmed : leadingZeros digits = 0) :
    leadingZeros (List.replicate count 0 ++ digits) = count := by
  induction count with
  | zero => exact trimmed
  | succ count ih =>
      unfold leadingZeros at ih ⊢
      rw [List.replicate_succ, List.cons_append, List.takeWhile_cons_of_pos (by rfl),
        List.length_cons, ih]

/-- A string is its leading zeros and the rest. -/
theorem exists_trimmed (digits : List Nat) :
    ∃ rest, digits = List.replicate (leadingZeros digits) 0 ++ rest ∧ leadingZeros rest = 0 := by
  induction digits with
  | nil => exact ⟨[], rfl, rfl⟩
  | cons digit digits ih =>
      by_cases zero : digit = 0
      · obtain ⟨rest, split, trimmed⟩ := ih
        refine ⟨rest, ?_, trimmed⟩
        have count : leadingZeros (digit :: digits) = leadingZeros digits + 1 := by
          simp [leadingZeros, zero]
        rw [count, List.replicate_succ, List.cons_append, ← split, zero]
      · have trimmed : leadingZeros (digit :: digits) = 0 := by
          simp [leadingZeros, zero]
        refine ⟨digit :: digits, ?_, trimmed⟩
        rw [trimmed, List.replicate_zero, List.nil_append]

theorem recode_lt {source target : Nat} (two : 2 ≤ target) {digits : List Nat} {digit : Nat}
    (member : digit ∈ recode source target digits) : digit < target := by
  rcases List.mem_append.mp member with member | member
  · rw [List.eq_of_mem_replicate member]
    omega
  · exact digitsOf_lt two member

/-- Converting to another base and back gives the string again. -/
theorem recode_recode {source target : Nat} (sourceTwo : 2 ≤ source) (targetTwo : 2 ≤ target)
    {digits : List Nat} (bounded : ∀ digit ∈ digits, digit < source) :
    recode target source (recode source target digits) = digits := by
  obtain ⟨rest, split, trimmed⟩ := exists_trimmed digits
  have number : valueOf source digits = valueOf source rest := by
    rw [split, valueOf_replicate_zero_append]
  have zeros : leadingZeros (recode source target digits) = leadingZeros digits :=
    leadingZeros_replicate_append _ (leadingZeros_digitsOf targetTwo _)
  have value : valueOf target (recode source target digits) = valueOf source digits := by
    rw [recode, valueOf_replicate_zero_append, valueOf_digitsOf targetTwo]
  have restBounded : ∀ digit ∈ rest, digit < source := by
    intro digit member
    apply bounded digit
    rw [split]
    exact List.mem_append_right _ member
  rw [recode, zeros, value, number, digitsOf_valueOf sourceTwo restBounded trimmed, ← split]

end PositionalDigits
