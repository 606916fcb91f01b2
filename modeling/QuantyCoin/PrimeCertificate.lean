import Mathlib.FieldTheory.Finite.Basic
import Mathlib.NumberTheory.LucasPrimality
import Mathlib.Tactic.NormNum.Prime

/-!
# Certificates of primality

A number is prime if enough of its predecessor is factored into primes and one
residue has, for each of these primes, a power that is one and a power that is
not one modulo any divisor.  A certificate lists such numbers so that the primes
of an entry stand before it, and the powers are computed by squaring.
-/

namespace PrimeCertificate

/-! ## Powers modulo a number -/

/-- Multiply the powers of the base that the bits of the exponent select. -/
def powLoop (modulus : Nat) : Nat → Nat → Nat → Nat → Nat
  | 0, result, _, _ => result
  | fuel + 1, result, base, exponent =>
      if exponent = 0 then result
      else
        powLoop modulus fuel (if exponent % 2 = 1 then result * base % modulus else result)
          (base * base % modulus) (exponent / 2)

/-- `base ^ exponent % modulus`. -/
def powMod (modulus base exponent : Nat) : Nat :=
  powLoop modulus (exponent.log2 + 1) (1 % modulus) base exponent

theorem powLoop_modEq {modulus fuel exponent : Nat} (result base : Nat)
    (enough : exponent < 2 ^ fuel) :
    powLoop modulus fuel result base exponent ≡ result * base ^ exponent [MOD modulus] := by
  induction fuel generalizing result base exponent with
  | zero =>
      have zero : exponent = 0 := by simpa using enough
      rw [zero, powLoop, pow_zero, mul_one]
  | succ fuel ih =>
      rw [powLoop]
      split_ifs with zero odd
      · rw [zero, pow_zero, mul_one]
      · calc
          _ ≡ result * base % modulus * (base * base % modulus) ^ (exponent / 2) [MOD modulus] :=
            ih _ _ (by omega)
          _ ≡ result * base * (base * base) ^ (exponent / 2) [MOD modulus] :=
            (Nat.mod_modEq _ _).mul ((Nat.mod_modEq _ _).pow _)
          _ = result * base ^ exponent := by
            rw [← sq, ← pow_mul, mul_assoc, ← pow_succ']
            congr 2
            omega
      · calc
          _ ≡ result * (base * base % modulus) ^ (exponent / 2) [MOD modulus] :=
            ih _ _ (by omega)
          _ ≡ result * (base * base) ^ (exponent / 2) [MOD modulus] :=
            ((Nat.mod_modEq _ _).pow _).mul_left _
          _ = result * base ^ exponent := by
            rw [← sq, ← pow_mul]
            congr 2
            omega

theorem powLoop_lt {modulus fuel result base exponent : Nat} (bounded : result < modulus) :
    powLoop modulus fuel result base exponent < modulus := by
  induction fuel generalizing result base exponent with
  | zero => exact bounded
  | succ fuel ih =>
      rw [powLoop]
      split_ifs
      · exact bounded
      · exact ih (Nat.mod_lt _ (Nat.zero_lt_of_lt bounded))
      · exact ih bounded

theorem powMod_eq {modulus : Nat} (positive : 0 < modulus) (base exponent : Nat) :
    powMod modulus base exponent = base ^ exponent % modulus := by
  have congruent := @powLoop_modEq modulus (exponent.log2 + 1) exponent (1 % modulus) base
    exponent.lt_log2_self
  rw [powMod, ← Nat.mod_eq_of_lt (powLoop_lt (Nat.mod_lt 1 positive))]
  calc
    _ = 1 % modulus * base ^ exponent % modulus := congruent
    _ = base ^ exponent % modulus := by rw [Nat.mod_mul_mod, Nat.one_mul]

theorem cast_powMod {modulus divisor : Nat} (positive : 0 < modulus) (divides : divisor ∣ modulus)
    (base exponent : Nat) :
    (powMod modulus base exponent : ZMod divisor) = (base : ZMod divisor) ^ exponent := by
  rw [powMod_eq positive, ← Nat.cast_pow, ZMod.natCast_eq_natCast_iff]
  exact (Nat.mod_modEq _ _).of_dvd divides

/-! ## The criterion -/

section Criterion

variable {number witness : Nat}

/-- A residue whose power has the order of a prime modulo every divisor. -/
structure Witnesses (number witness factor : Nat) : Prop where
  divides : factor ∣ number - 1
  full : powMod number witness (number - 1) = 1
  coprime : (powMod number witness ((number - 1) / factor) + (number - 1)).Coprime number

instance (number witness factor : Nat) : Decidable (Witnesses number witness factor) :=
  decidable_of_iff (factor ∣ number - 1 ∧ powMod number witness (number - 1) = 1 ∧
      (powMod number witness ((number - 1) / factor) + (number - 1)).Coprime number)
    ⟨fun checks => ⟨checks.1, checks.2.1, checks.2.2⟩,
      fun witnesses => ⟨witnesses.divides, witnesses.full, witnesses.coprime⟩⟩

theorem Witnesses.dvd_sub_one {factor divisor : Nat} (witnesses : Witnesses number witness factor)
    (large : 1 < number) (prime : factor.Prime) (divisorPrime : divisor.Prime)
    (divides : divisor ∣ number) : factor ∣ divisor - 1 := by
  have : Fact divisor.Prime := ⟨divisorPrime⟩
  have : Fact factor.Prime := ⟨prime⟩
  have cast := @cast_powMod number divisor (by omega) divides witness
  have order : orderOf ((witness : ZMod divisor) ^ ((number - 1) / factor)) = factor := by
    apply orderOf_eq_prime
    · rw [← pow_mul, Nat.div_mul_cancel witnesses.divides, ← cast, witnesses.full, Nat.cast_one]
    · intro one
      apply divisorPrime.one_lt.ne'
      apply Nat.eq_one_of_dvd_coprimes witnesses.coprime _ divides
      rw [← ZMod.natCast_eq_zero_iff, Nat.cast_add, cast, one, ← Nat.cast_one, ← Nat.cast_add]
      rw [Nat.add_sub_cancel' large.le, ZMod.natCast_eq_zero_iff]
      exact divides
  rw [← order]
  apply ZMod.orderOf_dvd_card_sub_one
  intro zero
  have one := pow_orderOf_eq_one ((witness : ZMod divisor) ^ ((number - 1) / factor))
  rw [order, zero, zero_pow prime.ne_zero] at one
  exact zero_ne_one one

theorem prod_dvd_of_primes {factors : List Nat} (primes : ∀ factor ∈ factors, factor.Prime)
    (distinct : factors.Nodup) {multiple : Nat}
    (divides : ∀ factor ∈ factors, factor ∣ multiple) : factors.prod ∣ multiple := by
  have product := Finset.prod_primes_dvd multiple
    (fun factor member => (primes factor (List.mem_toFinset.mp member)).prime)
    (fun factor member => divides factor (List.mem_toFinset.mp member))
  rwa [List.prod_toFinset _ distinct, List.map_id'] at product

theorem prime_of_witnesses {factors : List Nat} (large : 1 < number)
    (primes : ∀ factor ∈ factors, factor.Prime) (distinct : factors.Nodup)
    (enough : number < factors.prod ^ 2)
    (witnesses : ∀ factor ∈ factors, Witnesses number witness factor) : number.Prime := by
  by_contra composite
  have divisorPrime : number.minFac.Prime := Nat.minFac_prime large.ne'
  have product : factors.prod ∣ number.minFac - 1 := by
    apply prod_dvd_of_primes primes distinct
    intro factor member
    exact (witnesses factor member).dvd_sub_one large (primes factor member) divisorPrime
      number.minFac_dvd
  have smaller : factors.prod ≤ number.minFac - 1 :=
    Nat.le_of_dvd (Nat.sub_pos_of_lt divisorPrime.one_lt) product
  have square : factors.prod ^ 2 ≤ number.minFac ^ 2 := Nat.pow_le_pow_left (by omega) 2
  have bounded := Nat.minFac_sq_le_self (Nat.zero_lt_of_lt large) composite
  omega

end Criterion

/-! ## Certificates -/

/-- A number, a residue, and primes of its predecessor. -/
structure Entry where
  number : Nat
  witness : Nat
  factors : List Nat

/-- The factors are known primes, and the criterion applies. -/
def Entry.check (known : List Nat) (entry : Entry) : Bool :=
  1 < entry.number && entry.factors.Nodup && entry.number < entry.factors.prod ^ 2 &&
    entry.factors.all fun factor =>
      known.contains factor && Witnesses entry.number entry.witness factor

/-- Every entry is checked with the numbers before it. -/
def check : List Nat → List Entry → Bool
  | _, [] => true
  | known, entry :: entries => entry.check known && check (entry.number :: known) entries

theorem Entry.prime_of_check {known : List Nat} {entry : Entry}
    (primes : ∀ number ∈ known, number.Prime) (checked : entry.check known = true) :
    entry.number.Prime := by
  simp only [Entry.check, Bool.and_eq_true, decide_eq_true_eq, List.all_eq_true,
    List.contains_iff_mem] at checked
  obtain ⟨⟨⟨large, distinct⟩, enough⟩, factors⟩ := checked
  exact prime_of_witnesses large (fun factor member => primes factor (factors factor member).1)
    distinct enough fun factor member => (factors factor member).2

/-- The numbers of a checked certificate are prime. -/
theorem prime_of_check {known : List Nat} {entries : List Entry}
    (primes : ∀ number ∈ known, number.Prime) (checked : check known entries = true) :
    ∀ entry ∈ entries, entry.number.Prime := by
  induction entries generalizing known with
  | nil => simp
  | cons entry entries ih =>
      rw [check, Bool.and_eq_true] at checked
      have first := Entry.prime_of_check primes checked.1
      intro other member
      rcases List.mem_cons.mp member with rfl | member
      · exact first
      · apply ih _ checked.2 other member
        intro number known
        rcases List.mem_cons.mp known with rfl | known
        · exact first
        · exact primes number known

end PrimeCertificate
