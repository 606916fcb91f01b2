import Mathlib.Data.Int.Basic
import Mathlib.Tactic.Linarith

/-!
# Arithmetic on machine integers

An operation on machine integers has an exact result, which is then stored in
an integer type.  A machine says what storing does to a result that the type
cannot hold: it wraps around, or the program is stopped.  A program whose
results all fit runs in the same way on both, and on every other machine that
stores such results as they are.
-/

namespace MachineArithmetic

/-- The integers from `lower` up to and without `upper`. -/
structure IntType where
  lower : Int
  upper : Int
  lower_lt : lower < upper

namespace IntType

def unsigned (width : Nat) : IntType where
  lower := 0
  upper := 2 ^ width
  lower_lt := by positivity

def signed (width : Nat) : IntType where
  lower := -2 ^ width
  upper := 2 ^ width
  lower_lt := by
    have positive : (0 : Int) < 2 ^ width := by positivity
    omega

def uint32 : IntType := unsigned 32
def uint64 : IntType := unsigned 64
def uint256 : IntType := unsigned 256
def int32 : IntType := signed 31
def int64 : IntType := signed 63

/-- The type can hold a value. -/
def Holds (type : IntType) (value : Int) : Prop := type.lower ≤ value ∧ value < type.upper

instance (type : IntType) (value : Int) : Decidable (type.Holds value) :=
  inferInstanceAs (Decidable (_ ∧ _))

/-- The value of the type that is congruent to a given one. -/
def wrap (type : IntType) (value : Int) : Int :=
  type.lower + (value - type.lower) % (type.upper - type.lower)

theorem wrap_of_holds {type : IntType} {value : Int} (holds : type.Holds value) :
    type.wrap value = value := by
  obtain ⟨lower, upper⟩ := holds
  rw [wrap, Int.emod_eq_of_lt] <;> omega

theorem holds_unsigned {width : Nat} {value : Int} :
    (unsigned width).Holds value ↔ 0 ≤ value ∧ value < 2 ^ width :=
  Iff.rfl

theorem holds_signed {width : Nat} {value : Int} :
    (signed width).Holds value ↔ -2 ^ width ≤ value ∧ value < 2 ^ width :=
  Iff.rfl

theorem holds_unsigned_natCast {width value : Nat} :
    (unsigned width).Holds value ↔ value < 2 ^ width := by
  rw [holds_unsigned]
  constructor
  · rintro ⟨-, upper⟩
    exact_mod_cast upper
  · intro upper
    exact ⟨Int.natCast_nonneg value, by exact_mod_cast upper⟩

end IntType

/-! ## Machines -/

/-- What happens to an exact result that is stored in a type: the value found
there afterwards, or a stop. -/
abbrev Machine := IntType → Int → Option Int

/-- Results wrap around. -/
def wrapping : Machine := fun type value => some (type.wrap value)

/-- A result that does not fit stops the program. -/
def checked : Machine := fun type value => if type.Holds value then some value else none

/-- A result that does not fit wraps around in an unsigned type, and stops the program
in a signed one. -/
def unsignedWrapping : Machine := fun type value =>
  if type.Holds value then some value
  else if 0 ≤ type.lower then some (type.wrap value)
  else none

/-- Results that fit are stored as they are. -/
def Machine.Exact (machine : Machine) : Prop :=
  ∀ {type : IntType} {value : Int}, type.Holds value → machine type value = some value

theorem wrapping_exact : Machine.Exact wrapping := by
  intro type value holds
  rw [wrapping, IntType.wrap_of_holds holds]

theorem checked_exact : Machine.Exact checked := by
  intro type value holds
  exact if_pos holds

theorem unsignedWrapping_exact : Machine.Exact unsignedWrapping := by
  intro type value holds
  exact if_pos holds

theorem unsignedWrapping_unsigned (width : Nat) (value : Int) :
    unsignedWrapping (.unsigned width) value = some (value % 2 ^ width) := by
  have wrapped : (IntType.unsigned width).wrap value = value % 2 ^ width := by
    simp [IntType.wrap, IntType.unsigned]
  have nonneg : 0 ≤ (IntType.unsigned width).lower := le_rfl
  rw [unsignedWrapping, if_pos nonneg]
  split_ifs with holds
  · rw [← wrapped, IntType.wrap_of_holds holds]
  · rw [wrapped]

theorem unsignedWrapping_signed (width : Nat) (value : Int) :
    unsignedWrapping (.signed width) value =
      if (IntType.signed width).Holds value then some value else none := by
  have negative : ¬ (0 : Int) ≤ (IntType.signed width).lower := by
    have positive : (0 : Int) < 2 ^ width := by positivity
    simp only [IntType.signed]
    omega
  rw [unsignedWrapping, if_neg negative]

/-- Division stops at a zero divisor. -/
def divide (numerator divisor : Int) : Option Int :=
  if divisor = 0 then none else some (numerator / divisor)

theorem divide_natCast (numerator : Nat) {divisor : Nat} (positive : 0 < divisor) :
    divide numerator divisor = some ((numerator / divisor : Nat) : Int) := by
  rw [divide, if_neg (by omega), Int.natCast_ediv]

/-! ## Quotients without overflow -/

/-- The average of a list from the quotients and the remainders of its
elements. -/
theorem sum_quotients_add_remainders (values : List Nat) {count : Nat} (positive : 0 < count) :
    (values.map (· / count)).sum + (values.map (· % count)).sum / count =
      values.sum / count := by
  have split : values.sum =
      (values.map (· % count)).sum + count * (values.map (· / count)).sum := by
    induction values with
    | nil => simp
    | cons value values ih =>
        have parts := Nat.mod_add_div value count
        simp only [List.map_cons, List.sum_cons, Nat.mul_add]
        omega
  rw [split, Nat.add_mul_div_left _ _ positive, Nat.add_comm]

/-- The product with a fraction from the quotient and the remainder. -/
theorem quotient_mul_add_remainder (value factor : Nat) {divisor : Nat}
    (positive : 0 < divisor) :
    value / divisor * factor + value % divisor * factor / divisor =
      value * factor / divisor := by
  have split : value * factor =
      value % divisor * factor + divisor * (value / divisor * factor) := by
    calc
      value * factor = (value % divisor + divisor * (value / divisor)) * factor := by
        rw [Nat.mod_add_div]
      _ = value % divisor * factor + divisor * (value / divisor * factor) := by
        rw [Nat.add_mul, Nat.mul_assoc]
  rw [split, Nat.add_mul_div_left _ _ positive, Nat.add_comm]

end MachineArithmetic
