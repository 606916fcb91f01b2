import Mathlib.Algebra.Order.Group.Nat
import Mathlib.Data.List.Range
import Mathlib.Tactic.Common

/-!
# Searching in strides

As many searchers as the stride is wide share the numbers below a bound: the
searcher that starts at `start` tries `start`, `start + stride`, and so on, until
it meets a hit or passes the bound.  Since its numbers are those of one residue
class, no number is tried twice, and a hit below the bound is met by the
searcher of its class, or that one has met an earlier hit.
-/

namespace StridedSearch

/-- The numbers a searcher has tried after so many steps. -/
def visits (stride start count : Nat) : List Nat :=
  (List.range count).map fun index => start + stride * index

theorem visits_succ (stride start count : Nat) :
    visits stride start (count + 1) = visits stride start count ++ [start + stride * count] := by
  rw [visits, List.range_succ, List.map_append]
  rfl

/-- The searcher of a residue class visits its members in their order. -/
theorem mem_visits_iff {stride start count number : Nat} (starts : start < stride) :
    number ∈ visits stride start count ↔ number % stride = start ∧ number / stride < count := by
  have positive : 0 < stride := by omega
  rw [visits, List.mem_map]
  constructor
  · rintro ⟨index, inside, rfl⟩
    rw [Nat.add_mul_mod_self_left, Nat.mod_eq_of_lt starts, Nat.add_mul_div_left _ _ positive,
      Nat.div_eq_of_lt starts, Nat.zero_add]
    exact ⟨rfl, List.mem_range.mp inside⟩
  · rintro ⟨rfl, inside⟩
    exact ⟨number / stride, List.mem_range.mpr inside, Nat.mod_add_div number stride⟩

section Searcher

variable (hit : Nat → Prop) (bound stride start : Nat)

/-- All numbers tried so far are below the bound and no hits. -/
def Missed (count : Nat) : Prop :=
  ∀ index < count, start + stride * index < bound ∧ ¬ hit (start + stride * index)

/-- How a search ends, with the number of steps and what was found. -/
inductive Finished : Nat → Option Nat → Prop
  | found {count : Nat} (missed : Missed hit bound stride start count)
      (inside : start + stride * count < bound) (isHit : hit (start + stride * count)) :
      Finished (count + 1) (some (start + stride * count))
  | exhausted {count : Nat} (missed : Missed hit bound stride start count)
      (passed : bound ≤ start + stride * count) : Finished count none

variable {hit bound stride start} {count : Nat} {result : Option Nat}

theorem Missed.succ (missed : Missed hit bound stride start count)
    (inside : start + stride * count < bound) (noHit : ¬ hit (start + stride * count)) :
    Missed hit bound stride start (count + 1) := by
  intro index before
  rcases Nat.lt_succ_iff_lt_or_eq.mp before with earlier | rfl
  · exact missed index earlier
  · exact ⟨inside, noHit⟩

theorem Missed.visits_lt (missed : Missed hit bound stride start count) {number : Nat}
    (member : number ∈ visits stride start count) : number < bound := by
  obtain ⟨index, inside, rfl⟩ := List.mem_map.mp member
  exact (missed index (List.mem_range.mp inside)).1

theorem Finished.sound (finished : Finished hit bound stride start count result) {number : Nat}
    (found : result = some number) : number < bound ∧ hit number := by
  cases finished with
  | found missed inside isHit =>
      cases found
      exact ⟨inside, isHit⟩
  | exhausted missed passed => cases found

/-- A finished search has tried a number below the bound exactly if it met no
hit before it. -/
theorem Finished.tried_iff (finished : Finished hit bound stride start count result)
    {index : Nat} (inside : start + stride * index < bound) :
    index < count ↔ ∀ earlier < index, ¬ hit (start + stride * earlier) := by
  cases finished with
  | @found last missed lastInside isHit =>
      constructor
      · intro tried earlier before
        exact (missed earlier (by omega)).2
      · intro noneBefore
        by_contra beyond
        exact noneBefore last (by omega) isHit
  | exhausted missed passed =>
      have tried : index < count := by
        by_contra beyond
        have later : stride * count ≤ stride * index := Nat.mul_le_mul_left _ (by omega)
        omega
      exact iff_of_true tried fun earlier before => (missed earlier (by omega)).2

/-- A finished search has found something if there is a hit for it to find. -/
theorem Finished.complete (finished : Finished hit bound stride start count result)
    {index : Nat} (inside : start + stride * index < bound)
    (isHit : hit (start + stride * index)) : result ≠ none := by
  rintro rfl
  cases finished with
  | exhausted missed passed =>
      have tried : index < count := by
        by_contra beyond
        have later : stride * count ≤ stride * index := Nat.mul_le_mul_left _ (by omega)
        omega
      exact (missed index tried).2 isHit

/-- The same for a number in the class of the searcher. -/
theorem Finished.mem_visits_iff (finished : Finished hit bound stride start count result)
    (starts : start < stride) {number : Nat} (class_eq : number % stride = start)
    (inside : number < bound) : number ∈ visits stride start count ↔
      ∀ earlier < number, earlier % stride = number % stride → ¬ hit earlier := by
  have positive : 0 < stride := by omega
  have split := Nat.mod_add_div number stride
  rw [class_eq] at split
  rw [StridedSearch.mem_visits_iff starts, class_eq, eq_self_iff_true, true_and,
    finished.tried_iff (by omega)]
  constructor
  · intro noneBefore earlier before sameClass
    have splitEarlier := Nat.mod_add_div earlier stride
    rw [sameClass] at splitEarlier
    rw [← splitEarlier]
    apply noneBefore
    exact Nat.lt_of_mul_lt_mul_left (a := stride) (by omega)
  · intro noneBefore index before
    have lower : stride * index < stride * (number / stride) :=
      Nat.mul_lt_mul_of_pos_left before positive
    apply noneBefore _ (by omega)
    rw [Nat.add_mul_mod_self_left, Nat.mod_eq_of_lt starts]

end Searcher

end StridedSearch
