import Mathlib.Data.List.GetD
import Mathlib.Data.List.Sort
import Mathlib.Tactic.Common

/-!
# Order statistics and rolling medians

The element at an index of a sorted list is at least a bound exactly if no more
elements than the index are below the bound.  So the median of the last elements
of a list is compared with a bound by counting, and counting does not mind in
which order the elements are or which of them leaves the window.
-/

namespace OrderStatistics

section Windows

variable {α : Type*} {value : α} {values : List α} {window : Nat}

/-- The last elements of a list. -/
def lastWindow (window : Nat) (values : List α) : List α :=
  values.drop (values.length - window)

theorem length_lastWindow : (lastWindow window values).length = min window values.length := by
  rw [lastWindow, List.length_drop]
  omega

theorem lastWindow_ne_nil (nonempty : values ≠ []) (positive : 0 < window) :
    lastWindow window values ≠ [] := by
  have some := List.length_pos_iff.mpr nonempty
  rw [← List.length_pos_iff, length_lastWindow]
  omega

/-- A window that is not full grows, a full one loses its first element. -/
theorem lastWindow_append_singleton :
    lastWindow (window + 1) (values ++ [value]) = lastWindow window values ++ [value] := by
  have start : (values ++ [value]).length - (window + 1) = values.length - window := by
    rw [List.length_append, List.length_singleton]
    omega
  rw [lastWindow, start, List.drop_append_of_le_length (by omega)]
  rfl

/-- A full window does not reach into what lies before it. -/
theorem lastWindow_append_of_le {first second : List α} (full : window ≤ second.length) :
    lastWindow window (first ++ second) = lastWindow window second := by
  have start : (first ++ second).length - window =
      first.length + (second.length - window) := by
    rw [List.length_append]
    omega
  rw [lastWindow, start, List.drop_length_add_append]
  rfl

end Windows

variable {α : Type*} [LinearOrder α] {bound fallback value : α} {values : List α} {window : Nat}

/-- The element at the middle of the sorted list, the upper one of two. -/
def upperMedian (fallback : α) (values : List α) : α :=
  (values.insertionSort (· ≤ ·)).getD (values.length / 2) fallback

/-- In a sorted list the elements below a bound come first. -/
theorem le_getElem_iff (sorted : values.Pairwise (· ≤ ·)) {index : Nat}
    (inside : index < values.length) :
    bound ≤ values[index] ↔ values.countP (· < bound) ≤ index := by
  induction values generalizing index with
  | nil => simp at inside
  | cons first rest ih =>
      obtain ⟨least, restSorted⟩ := List.pairwise_cons.mp sorted
      rcases lt_or_ge first bound with below | above
      · cases index with
        | zero => simp [below]
        | succ index =>
            have restInside : index < rest.length := by simpa using inside
            simpa [below] using ih restSorted restInside
      · have none : (first :: rest).countP (· < bound) = 0 := by
          rw [List.countP_eq_zero]
          intro member isMember
          rcases List.mem_cons.mp isMember with rfl | later
          · simpa using above
          · simpa using above.trans (least member later)
        have least' : first ≤ (first :: rest)[index] := by
          cases index with
          | zero => exact le_rfl
          | succ index => exact least _ (List.getElem_mem _)
        simp only [none, Nat.zero_le, iff_true]
        exact above.trans least'

/-- A median is at least a bound exactly if at most half of the elements are
below it. -/
theorem le_upperMedian_iff (nonempty : values ≠ []) :
    bound ≤ upperMedian fallback values ↔
      values.countP (· < bound) ≤ values.length / 2 := by
  have positive := List.length_pos_iff.mpr nonempty
  have inside : values.length / 2 < (values.insertionSort (· ≤ ·)).length := by
    rw [List.length_insertionSort]
    omega
  rw [upperMedian, List.getD_eq_getElem _ _ inside,
    le_getElem_iff (List.pairwise_insertionSort (· ≤ ·) values) inside,
    (List.perm_insertionSort (· ≤ ·) values).countP_eq]

/-! ## Rolling medians -/

/-- The median of the last elements. -/
def rollingMedian (fallback : α) (window : Nat) (values : List α) : α :=
  upperMedian fallback (lastWindow window values)

/-- An element above the median of a window does not lower it. -/
theorem rollingMedian_le_append (nonempty : values ≠ []) (positive : 0 < window)
    (above : rollingMedian fallback window values < value) :
    rollingMedian fallback window values ≤ rollingMedian fallback window (values ++ [value]) := by
  obtain ⟨window, rfl⟩ := Nat.exists_eq_add_one.mpr positive
  have counted : (lastWindow (window + 1) values).countP
      (· < rollingMedian fallback (window + 1) values) ≤
        (lastWindow (window + 1) values).length / 2 :=
    (le_upperMedian_iff (lastWindow_ne_nil nonempty positive)).mp le_rfl
  generalize rollingMedian fallback (window + 1) values = median at *
  have notBelow : ¬ value < median := above.not_gt
  have shorter : (lastWindow window values).countP (· < median) ≤
      (lastWindow (window + 1) values).countP (· < median) := by
    have suffix : lastWindow window values <:+ lastWindow (window + 1) values :=
      List.drop_suffix_drop_left values (by omega)
    exact suffix.sublist.countP_le
  have lengths : (lastWindow (window + 1) values).length / 2 ≤
      (lastWindow window values ++ [value]).length / 2 := by
    rw [length_lastWindow, List.length_append, length_lastWindow, List.length_singleton]
    omega
  rw [rollingMedian, lastWindow_append_singleton, le_upperMedian_iff (by simp),
    List.countP_append]
  simp only [List.countP_singleton, decide_eq_true_eq, notBelow, if_false, Nat.add_zero]
  exact (shorter.trans counted).trans lengths

/-- Every element but the first is above the median of the window behind it. -/
def RisesAbove (fallback : α) (window : Nat) (values : List α) : Prop :=
  ∀ count, 0 < count → ∀ inside : count < values.length,
    rollingMedian fallback window (values.take count) < values[count]

/-- Where every element is above the median behind it, the median never goes back. -/
theorem rollingMedian_mono (positive : 0 < window)
    (rises : RisesAbove fallback window values) {shorter longer : Nat}
    (nonempty : 0 < shorter) (ordered : shorter ≤ longer) (within : longer ≤ values.length) :
    rollingMedian fallback window (values.take shorter) ≤
      rollingMedian fallback window (values.take longer) := by
  induction longer, ordered using Nat.le_induction with
  | base => exact le_rfl
  | succ longer ordered ih =>
      have inside : longer < values.length := within
      have someTaken : values.take longer ≠ [] := by
        rw [← List.length_pos_iff, List.length_take]
        omega
      have step := rollingMedian_le_append someTaken positive
        (rises longer (by omega) inside)
      rw [List.take_append_getElem inside] at step
      exact (ih (by omega)).trans step

end OrderStatistics
