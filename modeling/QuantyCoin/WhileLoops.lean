import Mathlib.Tactic.Common

/-!
# While loops

A loop runs its body as long as its guard holds.  An invariant and a variant together show
that it ends and what holds of its last state.
-/

namespace WhileLoops

variable {σ : Type} {guard : σ → Prop} {body : σ → σ}

/-- The loop that starts in one state ends in another. -/
inductive Ends (guard : σ → Prop) (body : σ → σ) : σ → σ → Prop
  | leave {state : σ} (done : ¬ guard state) : Ends guard body state state
  | round {state final : σ} (more : guard state) (rest : Ends guard body (body state) final) :
      Ends guard body state final

namespace Ends

variable {state final other : σ} {invariant : σ → Prop}

theorem not_guard (ends : Ends guard body state final) : ¬ guard final := by
  induction ends with
  | leave done => exact done
  | round more rest ih => exact ih

theorem unique (ends : Ends guard body state final) (ends' : Ends guard body state other) :
    final = other := by
  induction ends with
  | leave done =>
      cases ends' with
      | leave _ => rfl
      | round more _ => exact absurd more done
  | round more rest ih =>
      cases ends' with
      | leave done => exact absurd more done
      | round _ rest' => exact ih rest'

/-- What the body keeps holds in the last state. -/
theorem of_invariant (ends : Ends guard body state final)
    (keeps : ∀ state, invariant state → guard state → invariant (body state))
    (start : invariant state) : invariant final := by
  induction ends with
  | leave done => exact start
  | round more rest ih => exact ih (keeps _ start more)

end Ends

/-- A loop whose body decreases a variant ends. -/
theorem exists_ends {invariant : σ → Prop} (variant : σ → Nat)
    (keeps : ∀ state, invariant state → guard state → invariant (body state))
    (decreases : ∀ state, invariant state → guard state → variant (body state) < variant state)
    {state : σ} (start : invariant state) : ∃ final, Ends guard body state final := by
  induction measured : variant state using Nat.strongRecOn generalizing state with
  | ind bound ih =>
      by_cases more : guard state
      · have smaller := decreases state start more
        obtain ⟨final, ends⟩ := ih _ (measured ▸ smaller) (keeps state start more) rfl
        exact ⟨final, .round more ends⟩
      · exact ⟨state, .leave more⟩

end WhileLoops
