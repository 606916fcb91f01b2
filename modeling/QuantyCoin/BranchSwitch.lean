import Mathlib.Tactic.Common

/-!
# Switching a replayed state between two branches

A state is built by applying items one after another; an application may
raise, and the state it leaves then is kept.  Switching from one branch to
another reverts the old items, applies the new ones and, if one of these
raises, reverts what was applied and applies the old items again.

`switchBranch_spec` shows that a switch is atomic whenever every single
application on the way can be undone: it either ends in the replay of the new
branch or leaves the state as it was, and never raises itself.
-/

namespace BranchSwitch

variable {σ β ε : Type*}

/-- Perform an action on every item, stopping at the first that raises. -/
def runAll (act : σ → β → Except ε Unit × σ) :
    σ → List β → Except ε Unit × σ
  | state, [] => (.ok (), state)
  | state, item :: items =>
      match act state item with
      | (.error error, next) => (.error error, next)
      | (.ok (), next) => runAll act next items

/-- The same, together with the items whose action did not raise. -/
def runCollecting (act : σ → β → Except ε Unit × σ) :
    σ → List β → Except ε Unit × List β × σ
  | state, [] => (.ok (), [], state)
  | state, item :: items =>
      match act state item with
      | (.error error, next) => (.error error, [], next)
      | (.ok (), next) =>
          match runCollecting act next items with
          | (result, done, last) => (result, item :: done, last)

/-- Revert `disconnect`, newest first, and apply `connect`, oldest first.  If
an application raises, revert what was applied and apply the old items again;
the error is then reported as a value.  Errors on the way back are raised. -/
def switchBranch (apply revert : σ → β → Except ε Unit × σ) (state : σ)
    (disconnect connect : List β) : Except ε (Option ε) × σ :=
  match runAll revert state disconnect with
  | (.error error, reverted) => (.error error, reverted)
  | (.ok (), reverted) =>
      match runCollecting apply reverted connect with
      | (.ok (), _, connected) => (.ok none, connected)
      | (.error error, applied, stopped) =>
          match runAll revert stopped applied.reverse with
          | (.error error', last) => (.error error', last)
          | (.ok (), cleared) =>
              match runAll apply cleared disconnect.reverse with
              | (.error error', last) => (.error error', last)
              | (.ok (), restored) => (.ok (some error), restored)

/-! ## Replays -/

theorem runAll_cons_ok {act : σ → β → Except ε Unit × σ} {state last : σ}
    {item : β} {items : List β} :
    runAll act state (item :: items) = (.ok (), last) ↔
      ∃ next, act state item = (.ok (), next) ∧
        runAll act next items = (.ok (), last) := by
  rcases acted : act state item with ⟨result, next⟩
  cases result <;> simp [runAll, acted]

theorem runAll_append {act : σ → β → Except ε Unit × σ} {state middle : σ}
    {first : List β} (firstRun : runAll act state first = (.ok (), middle))
    (second : List β) :
    runAll act state (first ++ second) = runAll act middle second := by
  induction first generalizing state with
  | nil =>
      cases firstRun
      rfl
  | cons item first ih =>
      obtain ⟨next, acted, rest⟩ := runAll_cons_ok.mp firstRun
      simp only [List.cons_append, runAll, acted]
      exact ih rest

theorem runAll_append_ok {act : σ → β → Except ε Unit × σ} {state last : σ}
    {first second : List β} :
    runAll act state (first ++ second) = (.ok (), last) ↔
      ∃ middle, runAll act state first = (.ok (), middle) ∧
        runAll act middle second = (.ok (), last) := by
  constructor
  · intro whole
    induction first generalizing state with
    | nil => exact ⟨state, rfl, whole⟩
    | cons item first ih =>
        obtain ⟨next, acted, rest⟩ := runAll_cons_ok.mp whole
        obtain ⟨middle, firstRun, secondRun⟩ := ih rest
        exact ⟨middle, runAll_cons_ok.mpr ⟨next, acted, firstRun⟩, secondRun⟩
  · rintro ⟨middle, firstRun, secondRun⟩
    rw [runAll_append firstRun]
    exact secondRun

theorem runAll_singleton (act : σ → β → Except ε Unit × σ) (state : σ) (item : β) :
    runAll act state [item] = act state item := by
  rcases acted : act state item with ⟨result, next⟩
  cases result <;> simp [runAll, acted]

theorem runCollecting_ok {act : σ → β → Except ε Unit × σ} {state last : σ}
    {items done : List β}
    (collected : runCollecting act state items = (.ok (), done, last)) :
    runAll act state items = (.ok (), last) := by
  induction items generalizing state done with
  | nil =>
      cases collected
      rfl
  | cons item items ih =>
      rcases acted : act state item with ⟨result, next⟩
      cases result with
      | error error => simp [runCollecting, acted] at collected
      | ok =>
          rcases rest : runCollecting act next items with ⟨restResult, restDone, restLast⟩
          simp only [runCollecting, acted, rest, Prod.mk.injEq] at collected
          obtain ⟨rfl, -, rfl⟩ := collected
          exact runAll_cons_ok.mpr ⟨next, acted, ih rest⟩

/-- A switch that reports no error has reverted one branch and applied the
other. -/
theorem switchBranch_ok_none {apply revert : σ → β → Except ε Unit × σ} {state last : σ}
    {disconnect connect : List β}
    (switched : switchBranch apply revert state disconnect connect = (.ok none, last)) :
    ∃ base, runAll revert state disconnect = (.ok (), base) ∧
      runAll apply base connect = (.ok (), last) := by
  rcases reverted : runAll revert state disconnect with ⟨revertResult, base⟩
  cases revertResult with
  | error error => simp [switchBranch, reverted] at switched
  | ok =>
      refine ⟨base, rfl, ?_⟩
      rcases collected : runCollecting apply base connect with ⟨applyResult, done, stopped⟩
      cases applyResult with
      | ok =>
          simp only [switchBranch, reverted, collected, Prod.mk.injEq, true_and] at switched
          rw [← switched]
          exact runCollecting_ok collected
      | error error =>
          rcases cleared : runAll revert stopped done.reverse with ⟨clearResult, back⟩
          rcases restored : runAll apply back disconnect.reverse with ⟨restoreResult, again⟩
          cases clearResult <;> cases restoreResult <;>
            simp [switchBranch, reverted, collected, cleared, restored] at switched

/-- A run completes if the success of its actions depends on the items
alone. -/
theorem runAll_ok_of_forall {act : σ → β → Except ε Unit × σ} {items : List β}
    (succeeds : ∀ item ∈ items, ∀ state, ∃ next, act state item = (.ok (), next))
    (state : σ) : ∃ last, runAll act state items = (.ok (), last) := by
  induction items generalizing state with
  | nil => exact ⟨state, rfl⟩
  | cons item items ih =>
      obtain ⟨next, acted⟩ := succeeds item (by simp) state
      obtain ⟨last, rest⟩ := ih (fun other member => succeeds other (by simp [member])) next
      exact ⟨last, runAll_cons_ok.mpr ⟨next, acted, rest⟩⟩

/-- A run relates its ends, completed or not, if every action does. -/
theorem runAll_relates {related : σ → σ → Prop} (refl : ∀ state, related state state)
    (trans : ∀ first second third, related first second → related second third →
      related first third)
    {act : σ → β → Except ε Unit × σ} (acts : ∀ state item, related state (act state item).2)
    (state : σ) (items : List β) : related state (runAll act state items).2 := by
  induction items generalizing state with
  | nil => exact refl state
  | cons item items ih =>
      have first := acts state item
      rcases acted : act state item with ⟨result, next⟩
      rw [acted] at first
      cases result with
      | error error => simpa [runAll, acted] using first
      | ok => simpa [runAll, acted] using trans _ _ _ first (ih next)

/-- Every item of a completed run was acted on without an error. -/
theorem runAll_ok_mem {act : σ → β → Except ε Unit × σ} {state last : σ}
    {items : List β} (completed : runAll act state items = (.ok (), last)) {item : β}
    (member : item ∈ items) : ∃ before after, act before item = (.ok (), after) := by
  obtain ⟨first, second, rfl⟩ := List.append_of_mem member
  obtain ⟨middle, -, rest⟩ := runAll_append_ok.mp completed
  obtain ⟨next, acted, -⟩ := runAll_cons_ok.mp rest
  exact ⟨middle, next, acted⟩

/-! ## Undoing replays -/

/-- Applying the item can be undone: reverting a successful application gives
the state back, and a failed one does not change it. -/
structure Undoable (apply revert : σ → β → Except ε Unit × σ) (state : σ)
    (item : β) : Prop where
  revert_applied : ∀ next, apply state item = (.ok (), next) →
    revert next item = (.ok (), state)
  failed_unchanged : ∀ error next, apply state item = (.error error, next) →
    next = state

/-- Every application of a replay can be undone where it happens. -/
def UndoableAlong (apply revert : σ → β → Except ε Unit × σ) :
    σ → List β → Prop
  | _, [] => True
  | state, item :: items =>
      Undoable apply revert state item ∧
        ∀ next, apply state item = (.ok (), next) →
          UndoableAlong apply revert next items

variable {apply revert : σ → β → Except ε Unit × σ}

theorem UndoableAlong.append {state : σ} {first second : List β}
    (firstUndoable : UndoableAlong apply revert state first)
    (secondUndoable : ∀ middle, runAll apply state first = (.ok (), middle) →
      UndoableAlong apply revert middle second) :
    UndoableAlong apply revert state (first ++ second) := by
  induction first generalizing state with
  | nil => exact secondUndoable state rfl
  | cons item first ih =>
      refine ⟨firstUndoable.1, ?_⟩
      intro next acted
      apply ih (firstUndoable.2 next acted)
      intro middle rest
      exact secondUndoable middle (runAll_cons_ok.mpr ⟨next, acted, rest⟩)

theorem UndoableAlong.of_append {state middle : σ} {first second : List β}
    (undoable : UndoableAlong apply revert state (first ++ second))
    (firstRun : runAll apply state first = (.ok (), middle)) :
    UndoableAlong apply revert middle second := by
  induction first generalizing state with
  | nil =>
      cases firstRun
      exact undoable
  | cons item first ih =>
      obtain ⟨next, acted, rest⟩ := runAll_cons_ok.mp firstRun
      exact ih (undoable.2 next acted) rest

theorem UndoableAlong.singleton {state : σ} {item : β}
    (undoable : Undoable apply revert state item) :
    UndoableAlong apply revert state [item] :=
  ⟨undoable, fun _ _ => trivial⟩

/-- A completed replay is taken back by reverting its items, newest first. -/
theorem runAll_revert {state last : σ} {items : List β}
    (undoable : UndoableAlong apply revert state items)
    (completed : runAll apply state items = (.ok (), last)) :
    runAll revert last items.reverse = (.ok (), state) := by
  induction items generalizing state with
  | nil =>
      cases completed
      rfl
  | cons item items ih =>
      obtain ⟨next, acted, rest⟩ := runAll_cons_ok.mp completed
      have backToNext := ih (undoable.2 next acted) rest
      rw [List.reverse_cons, runAll_append backToNext, runAll_singleton]
      exact undoable.1.revert_applied next acted

/-- Either everything is applied, or what was applied can be taken back. -/
theorem runCollecting_spec {state : σ} {items : List β}
    (undoable : UndoableAlong apply revert state items) :
    (∃ last, runAll apply state items = (.ok (), last) ∧
      runCollecting apply state items = (.ok (), items, last)) ∨
    ∃ error applied stopped, (runAll apply state items).1 = .error error ∧
      runCollecting apply state items = (.error error, applied, stopped) ∧
      runAll revert stopped applied.reverse = (.ok (), state) := by
  induction items generalizing state with
  | nil => exact Or.inl ⟨state, rfl, rfl⟩
  | cons item items ih =>
      rcases acted : apply state item with ⟨result, next⟩
      cases result with
      | error error =>
          right
          have unchanged := undoable.1.failed_unchanged error next acted
          subst unchanged
          exact ⟨error, [], next, by simp [runAll, acted],
            by simp [runCollecting, acted], rfl⟩
      | ok =>
          rcases ih (undoable.2 next acted) with
            ⟨last, rest, collected⟩ |
            ⟨error, applied, stopped, rest, collected, back⟩
          · left
            exact ⟨last, by simp [runAll, acted, rest],
              by simp [runCollecting, acted, collected]⟩
          · right
            refine ⟨error, item :: applied, stopped, by simp [runAll, acted, rest],
              by simp [runCollecting, acted, collected], ?_⟩
            rw [List.reverse_cons, runAll_append back, runAll_singleton]
            exact undoable.1.revert_applied next acted

theorem runCollecting_of_runAll {act : σ → β → Except ε Unit × σ} {state last : σ}
    {items : List β} (completed : runAll act state items = (.ok (), last)) :
    runCollecting act state items = (.ok (), items, last) := by
  induction items generalizing state with
  | nil =>
      cases completed
      rfl
  | cons item items ih =>
      obtain ⟨next, acted, rest⟩ := runAll_cons_ok.mp completed
      simp [runCollecting, acted, ih rest]

/-- A switch to a branch that applies only has to take the old one back. -/
theorem switchBranch_completes {base state last : σ} {old new : List β}
    (oldUndoable : UndoableAlong apply revert base old)
    (oldRun : runAll apply base old = (.ok (), state))
    (newRun : runAll apply base new = (.ok (), last)) :
    switchBranch apply revert state old.reverse new = (.ok none, last) := by
  have back := runAll_revert oldUndoable oldRun
  simp [switchBranch, back, runCollecting_of_runAll newRun]

/-- A switch from a replayed branch to another is atomic. -/
theorem switchBranch_spec {base state : σ} {old new : List β}
    (oldUndoable : UndoableAlong apply revert base old)
    (oldRun : runAll apply base old = (.ok (), state))
    (newUndoable : UndoableAlong apply revert base new) :
    (∃ last, runAll apply base new = (.ok (), last) ∧
      switchBranch apply revert state old.reverse new = (.ok none, last)) ∨
    ∃ error, (runAll apply base new).1 = .error error ∧
      switchBranch apply revert state old.reverse new =
        (.ok (some error), state) := by
  have back := runAll_revert oldUndoable oldRun
  rcases runCollecting_spec newUndoable with
    ⟨last, newRun, collected⟩ |
    ⟨error, applied, stopped, newRun, collected, cleared⟩
  · left
    exact ⟨last, newRun, by simp [switchBranch, back, collected]⟩
  · right
    exact ⟨error, newRun, by simp [switchBranch, back, collected, cleared, oldRun]⟩

end BranchSwitch
