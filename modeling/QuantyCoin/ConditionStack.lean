import Mathlib.Data.Nat.Basic
import Mathlib.Tactic.Common

/-!
# The condition stack

`ConditionStack` of `script/interpreter.cpp`.  The interpreter needs to know of its nested
conditionals whether there are any and whether it is in an inactive branch.  The list of
the Booleans offers this, and so do the size of the stack and the position of its first
false value.  They represent the list as long as its size fits.
-/

namespace QuantyCoin

/-- A vector of Booleans that can only be tested for emptiness and for a false value. -/
class Conditions (C : Type) where
  new : C
  empty : C → Bool
  allTrue : C → Bool
  pushBack : C → Bool → C
  popBack : C → C
  toggleTop : C → C

/-- The Booleans themselves, the last one first. -/
instance : Conditions (List Bool) where
  new := []
  empty := List.isEmpty
  allTrue conditions := conditions.all id
  pushBack conditions f := f :: conditions
  popBack := List.tail
  toggleTop
    | [] => []
    | f :: below => (!f) :: below

/-- `ConditionStack`. -/
structure ConditionStack where
  stackSize : UInt32
  firstFalsePos : UInt32

namespace ConditionStack

/-- `NO_FALSE`. -/
def noFalse : UInt32 := 0xffffffff

/-- `ConditionStack::empty`. -/
def empty (vfExec : ConditionStack) : Bool := vfExec.stackSize = 0

/-- `ConditionStack::all_true`. -/
def allTrue (vfExec : ConditionStack) : Bool := vfExec.firstFalsePos = noFalse

/-- `ConditionStack::push_back`. -/
def pushBack (vfExec : ConditionStack) (f : Bool) : ConditionStack where
  firstFalsePos :=
    if vfExec.firstFalsePos = noFalse ∧ !f then vfExec.stackSize else vfExec.firstFalsePos
  stackSize := vfExec.stackSize + 1

/-- `ConditionStack::pop_back`, of a stack that is not empty. -/
def popBack (vfExec : ConditionStack) : ConditionStack :=
  let stackSize := vfExec.stackSize - 1
  ⟨stackSize, if vfExec.firstFalsePos = stackSize then noFalse else vfExec.firstFalsePos⟩

/-- `ConditionStack::toggle_top`, of a stack that is not empty. -/
def toggleTop (vfExec : ConditionStack) : ConditionStack :=
  if vfExec.firstFalsePos = noFalse then
    { vfExec with firstFalsePos := vfExec.stackSize - 1 }
  else if vfExec.firstFalsePos = vfExec.stackSize - 1 then
    { vfExec with firstFalsePos := noFalse }
  else vfExec

instance : Conditions ConditionStack where
  new := ⟨0, noFalse⟩
  empty := empty
  allTrue := allTrue
  pushBack := pushBack
  popBack := popBack
  toggleTop := toggleTop

/-- The position of the first false value, counted from the bottom. -/
def firstFalse : List Bool → Option Nat
  | [] => none
  | f :: below => (firstFalse below).or (if f then none else some below.length)

/-- The condition stack of a list of Booleans whose size leaves `NO_FALSE` free. -/
structure Represents (vfExec : ConditionStack) (conditions : List Bool) : Prop where
  fits : conditions.length ≤ noFalse.toNat
  size : vfExec.stackSize.toNat = conditions.length
  position : vfExec.firstFalsePos.toNat = (firstFalse conditions).getD noFalse.toNat

theorem firstFalse_lt {conditions : List Bool} {position : Nat}
    (found : firstFalse conditions = some position) : position < conditions.length := by
  induction conditions generalizing position with
  | nil => cases found
  | cons f below ih =>
      rw [firstFalse] at found
      cases earlier : firstFalse below with
      | some first =>
          rw [earlier, Option.some_or] at found
          cases found
          exact Nat.lt_succ_of_lt (ih earlier)
      | none =>
          rw [earlier, Option.none_or] at found
          split_ifs at found
          cases found
          exact Nat.lt_succ_self _

theorem firstFalse_eq_none_iff {conditions : List Bool} :
    firstFalse conditions = none ↔ conditions.all id = true := by
  induction conditions with
  | nil => simp [firstFalse]
  | cons f below ih => cases f <;> simp [firstFalse, ih]

namespace Represents

variable {vfExec : ConditionStack} {conditions : List Bool}

theorem new : Represents Conditions.new (Conditions.new : List Bool) where
  fits := Nat.zero_le _
  size := rfl
  position := rfl

theorem firstFalsePos_eq_noFalse (represents : Represents vfExec conditions) :
    vfExec.firstFalsePos = noFalse ↔ firstFalse conditions = none := by
  rw [← UInt32.toNat_inj, represents.position]
  cases found : firstFalse conditions with
  | none => simp
  | some position =>
      have inside := firstFalse_lt found
      have fits := represents.fits
      simp only [Option.getD_some, reduceCtorEq, iff_false]
      omega

theorem empty (represents : Represents vfExec conditions) :
    Conditions.empty vfExec = Conditions.empty conditions := by
  change decide (vfExec.stackSize = 0) = conditions.isEmpty
  rw [Bool.eq_iff_iff, decide_eq_true_iff, ← UInt32.toNat_inj, represents.size,
    List.isEmpty_iff_length_eq_zero]
  rfl

theorem allTrue (represents : Represents vfExec conditions) :
    Conditions.allTrue vfExec = Conditions.allTrue conditions := by
  change decide (vfExec.firstFalsePos = noFalse) = conditions.all id
  rw [Bool.eq_iff_iff, decide_eq_true_iff, represents.firstFalsePos_eq_noFalse,
    firstFalse_eq_none_iff]

theorem pushBack (represents : Represents vfExec conditions) (f : Bool)
    (fits : conditions.length + 1 ≤ noFalse.toNat) :
    Represents (Conditions.pushBack vfExec f) (Conditions.pushBack conditions f) where
  fits := fits
  size := by
    have bound : noFalse.toNat < 2 ^ 32 := by decide
    change (vfExec.stackSize + 1).toNat = conditions.length + 1
    rw [UInt32.toNat_add, represents.size]
    exact Nat.mod_eq_of_lt (by change conditions.length + 1 < _; omega)
  position := by
    change (ConditionStack.pushBack vfExec f).firstFalsePos.toNat =
      (firstFalse (f :: conditions)).getD noFalse.toNat
    simp only [ConditionStack.pushBack, represents.firstFalsePos_eq_noFalse, firstFalse]
    cases found : firstFalse conditions with
    | some position => simp [represents.position, found]
    | none => cases f <;> simp [represents.position, found, represents.size]

theorem stackSize_sub_one {f : Bool} {below : List Bool}
    (represents : Represents vfExec (f :: below)) :
    (vfExec.stackSize - 1).toNat = below.length := by
  have size := represents.size
  rw [List.length_cons] at size
  have positive : (1 : UInt32) ≤ vfExec.stackSize := by
    rw [UInt32.le_iff_toNat_le, size]
    exact Nat.le_add_left 1 below.length
  rw [UInt32.toNat_sub_of_le _ _ positive, size]
  rfl

theorem firstFalsePos_eq_top {f : Bool} {below : List Bool}
    (represents : Represents vfExec (f :: below)) :
    vfExec.firstFalsePos = vfExec.stackSize - 1 ↔
      firstFalse below = none ∧ f = false := by
  have fits := represents.fits
  rw [List.length_cons] at fits
  rw [← UInt32.toNat_inj, represents.stackSize_sub_one, represents.position, firstFalse]
  cases found : firstFalse below with
  | some position =>
      have inside := firstFalse_lt found
      simp
      omega
  | none =>
      cases f
      · simp
      · simp
        omega

theorem popBack {f : Bool} {below : List Bool} (represents : Represents vfExec (f :: below)) :
    Represents (Conditions.popBack vfExec) (Conditions.popBack (f :: below)) where
  fits := Nat.le_of_succ_le represents.fits
  size := represents.stackSize_sub_one
  position := by
    change (ConditionStack.popBack vfExec).firstFalsePos.toNat =
      (firstFalse below).getD noFalse.toNat
    have position := represents.position
    rw [firstFalse] at position
    rw [ConditionStack.popBack]
    split_ifs with top
    · rw [(represents.firstFalsePos_eq_top.mp top).1]
      rfl
    · rw [represents.firstFalsePos_eq_top, not_and] at top
      cases found : firstFalse below with
      | some first => rw [position, found]; rfl
      | none =>
          have raised : f = true := by simpa using top found
          rw [position, found, raised]
          rfl

theorem toggleTop {f : Bool} {below : List Bool} (represents : Represents vfExec (f :: below)) :
    Represents (Conditions.toggleTop vfExec) (Conditions.toggleTop (f :: below)) where
  fits := represents.fits
  size := by
    change (ConditionStack.toggleTop vfExec).stackSize.toNat = below.length + 1
    rw [ConditionStack.toggleTop]
    split_ifs <;> exact represents.size
  position := by
    change (ConditionStack.toggleTop vfExec).firstFalsePos.toNat =
      (firstFalse ((!f) :: below)).getD noFalse.toNat
    have position := represents.position
    rw [firstFalse] at position
    simp only [ConditionStack.toggleTop, represents.firstFalsePos_eq_noFalse,
      represents.firstFalsePos_eq_top, firstFalse]
    cases found : firstFalse below with
    | some first => simp [position, found]
    | none => cases f <;> simp [represents.stackSize_sub_one]

end Represents

end ConditionStack

end QuantyCoin
