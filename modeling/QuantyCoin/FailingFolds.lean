import Mathlib.Tactic.Common

/-!
# Computations that may fail, and loops over them

`Returns` is total correctness in `Except`: the computation gives a value, and
the value is good.  The rules for a loop carry an invariant of its state and say
when the loop gives a value, when it fails and when it cannot give one.
-/

namespace FailingFolds

variable {ε α β σ : Type}

/-- The computation gives a value with the property. -/
def Returns (computation : Except ε α) (good : α → Prop) : Prop :=
  ∃ value, computation = .ok value ∧ good value

namespace Returns

variable {computation : Except ε α} {good : α → Prop}

theorem ok {value : α} (holds : good value) : Returns (.ok value : Except ε α) good :=
  ⟨value, rfl, holds⟩

theorem imp {better : α → Prop} (returns : Returns computation good)
    (weaken : ∀ value, good value → better value) : Returns computation better := by
  obtain ⟨value, given, holds⟩ := returns
  exact ⟨value, given, weaken value holds⟩

theorem of_ok {value : α} (returns : Returns computation good) (given : computation = .ok value) :
    good value := by
  obtain ⟨found, given', holds⟩ := returns
  cases given.symm.trans given'
  exact holds

theorem bind {next : α → Except ε β} {last : β → Prop} (returns : Returns computation good)
    (continues : ∀ value, good value → Returns (next value) last) :
    Returns (computation >>= next) last := by
  obtain ⟨value, rfl, holds⟩ := returns
  exact continues value holds

theorem map {f : α → β} {last : β → Prop} (returns : Returns computation good)
    (weaken : ∀ value, good value → last (f value)) : Returns (f <$> computation) last := by
  obtain ⟨value, rfl, holds⟩ := returns
  exact ⟨f value, rfl, weaken value holds⟩

end Returns

theorem bind_ne_ok {computation : Except ε α} {next : α → Except ε β}
    (stuck : ∀ value, computation ≠ .ok value) (last : β) : computation >>= next ≠ .ok last := by
  cases computation with
  | error error => exact fun equal => nomatch equal
  | ok value => exact absurd rfl (stuck value)

theorem bind_ne_error {computation : Except ε α} {next : α → Except ε β} {error : ε}
    (safe : computation ≠ .error error) (continues : ∀ value, next value ≠ .error error) :
    computation >>= next ≠ .error error := by
  cases computation with
  | error found =>
      intro equal
      cases equal
      exact safe rfl
  | ok value => exact continues value

section Loops

variable {body : σ → α → Except ε σ}

/-- The loop does not fail with an error if no item does, while the values that the items
give keep an invariant, which speaks of the items that are left. -/
theorem foldlM_ne_error (invariant : List α → σ → Prop) {items : List α} {state : σ} {error : ε}
    (holds : invariant items state)
    (keeps : ∀ item rest state next, invariant (item :: rest) state →
      body state item = .ok next → invariant rest next)
    (safe : ∀ item rest state, invariant (item :: rest) state → body state item ≠ .error error) :
    items.foldlM body state ≠ .error error := by
  induction items generalizing state with
  | nil => exact fun equal => nomatch equal
  | cons item items ih =>
      rw [List.foldlM_cons]
      cases step : body state item with
      | error found =>
          intro equal
          cases equal
          exact safe item items state holds step
      | ok next => exact ih (keeps item items state next holds step)

/-- The loop fails if it gets to an item at which its body does. -/
theorem foldlM_eq_error_of_returns {items before after : List α} {item : α} {state : σ}
    {error : ε} {reached : σ → Prop} (split : items = before ++ item :: after)
    (returns : Returns (before.foldlM body state) reached)
    (fails : ∀ state, reached state → body state item = .error error) :
    items.foldlM body state = .error error := by
  obtain ⟨middle, gives, holds⟩ := returns
  rw [split, List.foldlM_append, gives]
  change List.foldlM body middle (item :: after) = _
  rw [List.foldlM_cons, fails middle holds]
  rfl

variable (invariant : σ → Prop)

theorem returns_foldlM {items : List α} {state : σ} (holds : invariant state)
    (keeps : ∀ item ∈ items, ∀ state, invariant state → Returns (body state item) invariant) :
    Returns (items.foldlM body state) invariant := by
  induction items generalizing state with
  | nil => exact .ok holds
  | cons item items ih =>
      rw [List.foldlM_cons]
      refine Returns.bind (keeps item List.mem_cons_self state holds) fun next kept => ?_
      exact ih kept fun later member => keeps later (List.mem_cons_of_mem _ member)

theorem returns_or_error_foldlM {items : List α} {state : σ} {error : ε} (holds : invariant state)
    (keeps : ∀ item ∈ items, ∀ state, invariant state →
      Returns (body state item) invariant ∨ body state item = .error error) :
    Returns (items.foldlM body state) invariant ∨ items.foldlM body state = .error error := by
  induction items generalizing state with
  | nil => exact .inl (.ok holds)
  | cons item items ih =>
      rw [List.foldlM_cons]
      obtain ⟨next, step, kept⟩ | step := keeps item List.mem_cons_self state holds
      · rw [step]
        exact ih kept fun later member => keeps later (List.mem_cons_of_mem _ member)
      · rw [step]
        exact .inr rfl

/-- The loop fails if its body fails at one item and, at the items before it, gives
a value or fails with the same error. -/
theorem foldlM_eq_error {items before after : List α} {item : α} {state : σ} {error : ε}
    (split : items = before ++ item :: after) (holds : invariant state)
    (keeps : ∀ earlier ∈ before, ∀ state, invariant state →
      Returns (body state earlier) invariant ∨ body state earlier = .error error)
    (fails : ∀ state, invariant state → body state item = .error error) :
    items.foldlM body state = .error error := by
  obtain returns | failed := returns_or_error_foldlM invariant holds keeps
  · exact foldlM_eq_error_of_returns split returns fails
  · rw [split, List.foldlM_append, failed]
    rfl

end Loops

end FailingFolds
