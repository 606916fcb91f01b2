import Mathlib.Algebra.Order.BigOperators.Group.List
import Mathlib.Data.List.Perm.Subperm
import Mathlib.Tactic.Common

/-!
# Greedy selection

Items of some weight are taken in their order until their total reaches a target.
Where the heaviest come first, no smaller number of items reaches the target; where
the target is the total of all items, everything of positive weight is taken.
-/

namespace GreedySelection

variable {α M : Type*}

section Totals

variable [AddCommMonoid M] {weight : α → M} {items other : List α}

/-- The total weight of some items. -/
def total (weight : α → M) (items : List α) : M := (items.map weight).sum

@[simp] theorem total_nil : total weight [] = 0 := rfl

@[simp] theorem total_cons (item : α) :
    total weight (item :: items) = weight item + total weight items :=
  List.sum_cons

@[simp] theorem total_append :
    total weight (items ++ other) = total weight items + total weight other := by
  rw [total, List.map_append, List.sum_append]
  rfl

theorem total_perm (same : items.Perm other) : total weight items = total weight other :=
  (same.map weight).sum_eq

end Totals

section Selection

variable [AddCommMonoid M] [LinearOrder M] {weight : α → M} {target : M}
  {items chosen other : List α} {item : α}

/-- The items up to the first with which the total reaches the target, or else all
of them. -/
structure ReachingPrefix (weight : α → M) (target : M) (items chosen : List α) : Prop where
  isPrefix : chosen <+: items
  reached : chosen = items ∨ target ≤ total weight chosen
  needed : ∀ count < chosen.length, 0 < count → total weight (items.take count) < target

theorem ReachingPrefix.nil : ReachingPrefix weight target [] [] where
  isPrefix := List.prefix_rfl
  reached := Or.inl rfl
  needed count before _ := absurd before (Nat.not_lt_zero count)

/-- The first item is enough. -/
theorem ReachingPrefix.single (enough : target ≤ weight item) :
    ReachingPrefix weight target (item :: items) [item] where
  isPrefix := by simp
  reached := Or.inr (by simpa using enough)
  needed count before positive := absurd positive (by simpa using before)

/-- The target is reached unless it is beyond reach. -/
theorem ReachingPrefix.total_reached (selected : ReachingPrefix weight target items chosen)
    (enough : target ≤ total weight items) : target ≤ total weight chosen := by
  rcases selected.reached with rfl | reached
  · exact enough
  · exact reached

variable [IsOrderedCancelAddMonoid M]

theorem total_nonneg (nonneg : ∀ item ∈ items, 0 ≤ weight item) : 0 ≤ total weight items := by
  apply List.sum_nonneg
  intro value member
  obtain ⟨item, inside, rfl⟩ := List.mem_map.mp member
  exact nonneg item inside

/-- The first items are the heaviest. -/
theorem total_le_total_take (sorted : items.Pairwise fun first second => weight second ≤ weight first)
    (sub : other.Subperm items) : total weight other ≤ total weight (items.take other.length) := by
  obtain ⟨chosen, same, sublist⟩ := sub
  rw [← total_perm same, ← same.length_eq]
  clear same
  induction items generalizing chosen with
  | nil =>
      cases sublist
      exact le_rfl
  | cons item items ih =>
      obtain ⟨heaviest, sortedRest⟩ := List.pairwise_cons.mp sorted
      cases chosen with
      | nil => exact le_rfl
      | cons first rest =>
          have lighter : weight first ≤ weight item := by
            rcases List.mem_cons.mp (sublist.subset List.mem_cons_self) with rfl | later
            · exact le_rfl
            · exact heaviest first later
          have inRest : rest.Sublist items := List.Sublist.tail sublist
          rw [total_cons, List.length_cons, List.take_succ_cons, total_cons]
          exact add_le_add lighter (ih sortedRest rest inRest)

namespace ReachingPrefix

theorem cons {remaining : M} (split : weight item + remaining = target)
    (notEnough : weight item < target) (rest : ReachingPrefix weight remaining items chosen) :
    ReachingPrefix weight target (item :: items) (item :: chosen) where
  isPrefix := List.cons_prefix_cons.mpr ⟨rfl, rest.isPrefix⟩
  reached := by
    rcases rest.reached with whole | reached
    · exact Or.inl (congrArg _ whole)
    · right
      rw [total_cons, ← split]
      exact add_le_add_right reached _
  needed count before positive := by
    obtain ⟨count, rfl⟩ := Nat.exists_eq_add_one.mpr positive
    rw [List.take_succ_cons, total_cons]
    rcases Nat.eq_zero_or_pos count with rfl | more
    · simpa using notEnough
    · have before' : count < chosen.length := by simpa using before
      rw [← split]
      exact add_lt_add_right (rest.needed count before' more) _

theorem total_le (selected : ReachingPrefix weight target items chosen)
    (nonneg : ∀ item ∈ items, 0 ≤ weight item) : total weight chosen ≤ total weight items := by
  obtain ⟨rest, rfl⟩ := selected.isPrefix
  have rest_nonneg : 0 ≤ total weight rest :=
    total_nonneg fun item member => nonneg item (List.mem_append_right _ member)
  rw [total_append]
  exact le_add_of_nonneg_right rest_nonneg

/-- With the heaviest first, no smaller number of items reaches the target. -/
theorem length_le (selected : ReachingPrefix weight target items chosen)
    (sorted : items.Pairwise fun first second => weight second ≤ weight first)
    (positive : 0 < target) (sub : other.Subperm items) (reaches : target ≤ total weight other) :
    chosen.length ≤ other.length := by
  by_contra fewer
  have nonempty : 0 < other.length := by
    apply List.length_pos_iff.mpr
    rintro rfl
    exact absurd (positive.trans_le reaches) (lt_irrefl _)
  have short := selected.needed other.length (Nat.lt_of_not_le fewer) nonempty
  exact absurd (reaches.trans (total_le_total_take sorted sub)) short.not_ge

/-- Where everything is needed, everything of positive weight is taken. -/
theorem mem_of_pos (selected : ReachingPrefix weight target items chosen)
    (nonneg : ∀ item ∈ items, 0 ≤ weight item) (all : total weight items ≤ target)
    (reaches : target ≤ total weight chosen) (member : item ∈ items) (positive : 0 < weight item) :
    item ∈ chosen := by
  obtain ⟨rest, rfl⟩ := selected.isPrefix
  rcases List.mem_append.mp member with taken | left
  · exact taken
  · exfalso
    obtain ⟨before, after, rfl⟩ := List.append_of_mem left
    have rest_pos : 0 < total weight (before ++ item :: after) := by
      rw [total_append, total_cons]
      refine add_pos_of_nonneg_of_pos (total_nonneg fun other inside => ?_)
        (add_pos_of_pos_of_nonneg positive (total_nonneg fun other inside => ?_))
      · exact nonneg other (by simp [inside])
      · exact nonneg other (by simp [inside])
    have beyond := all.trans reaches
    rw [total_append] at beyond
    exact absurd (le_of_add_le_add_left (beyond.trans_eq (add_zero _).symm)) rest_pos.not_ge

/-- An item is taken exactly if those before it do not reach the target. -/
theorem concat_prefix_iff (selected : ReachingPrefix weight target items chosen)
    (nonneg : ∀ item ∈ items, 0 ≤ weight item) (positive : 0 < target) :
    other ++ [item] <+: chosen ↔ other ++ [item] <+: items ∧ total weight other < target := by
  constructor
  · intro taken
    refine ⟨taken.trans selected.isPrefix, ?_⟩
    rcases Nat.eq_zero_or_pos other.length with none | some
    · rw [List.length_eq_zero_iff.mp none]
      exact positive
    · have shorter := taken.length_le
      rw [List.length_append, List.length_singleton, Nat.succ_le_iff] at shorter
      have whole : items.take other.length = other := by
        obtain ⟨rest, rfl⟩ := taken.trans selected.isPrefix
        simp
      rw [← whole]
      exact selected.needed other.length shorter some
  · rintro ⟨available, short⟩
    apply List.prefix_of_prefix_length_le available selected.isPrefix
    by_contra longer
    have within : chosen.length ≤ other.length := by
      rw [List.length_append, List.length_singleton] at longer
      omega
    have inOther : chosen <+: other := List.prefix_of_prefix_length_le selected.isPrefix
      ((List.prefix_append other [item]).trans available) within
    rcases selected.reached with rfl | reached
    · exact longer (available.length_le)
    · obtain ⟨rest, rfl⟩ := inOther
      have rest_nonneg : 0 ≤ total weight rest := by
        apply total_nonneg
        intro item inside
        exact nonneg item (available.subset (by simp [inside]))
      rw [total_append] at short
      exact absurd (reached.trans (le_add_of_nonneg_right rest_nonneg)) short.not_ge

end ReachingPrefix

end Selection

end GreedySelection
