import Mathlib.Tactic.Common

/-!
# Runs with a trace

A system takes steps that are chosen by its environment.  Each step shows some
events, and a run keeps all events so far as its trace.  Runs may be restricted
to steps that are allowed after the trace in the state.
-/

namespace TraceRuns

variable {σ α ε : Type*}

/-- The traces and states of the runs in which every step is allowed. -/
inductive Run (transition : σ → α → Option (σ × List ε)) (initial : σ)
    (allowed : List ε → σ → α → Prop) : List ε → σ → Prop
  | start : Run transition initial allowed [] initial
  | step {trace state action next events} (run : Run transition initial allowed trace state)
      (isAllowed : allowed trace state action)
      (stepped : transition state action = some (next, events)) :
      Run transition initial allowed (trace ++ events) next

/-- Take the given steps as far as they are allowed. -/
def follow (transition : σ → α → Option (σ × List ε)) (allowed : List ε → σ → α → Prop)
    [∀ trace state action, Decidable (allowed trace state action)] :
    List ε → σ → List α → Option (List ε × σ)
  | trace, state, [] => some (trace, state)
  | trace, state, action :: actions =>
      if allowed trace state action then
        match transition state action with
        | none => none
        | some (next, events) => follow transition allowed (trace ++ events) next actions
      else none

section Run

variable {transition : σ → α → Option (σ × List ε)} {initial : σ}
  {allowed : List ε → σ → α → Prop} {trace trace' : List ε} {state state' : σ}

/-- What holds at the start and is kept by every allowed step of a run holds in
every run. -/
theorem Run.invariant {property : List ε → σ → Prop} (initially : property [] initial)
    (preserved : ∀ trace state action next events,
      Run transition initial allowed trace state → property trace state →
      allowed trace state action → transition state action = some (next, events) →
      property (trace ++ events) next)
    (run : Run transition initial allowed trace state) : property trace state := by
  induction run with
  | start => exact initially
  | step run isAllowed stepped ih => exact preserved _ _ _ _ _ run ih isAllowed stepped

theorem Run.of_follow [∀ trace state action, Decidable (allowed trace state action)]
    {actions : List α} (run : Run transition initial allowed trace state)
    (taken : follow transition allowed trace state actions = some (trace', state')) :
    Run transition initial allowed trace' state' := by
  induction actions generalizing trace state with
  | nil =>
      cases taken
      exact run
  | cons action actions ih =>
      rw [follow] at taken
      split_ifs at taken with isAllowed
      split at taken
      · cases taken
      · rename_i next events stepped
        exact ih (run.step isAllowed stepped) taken

end Run

end TraceRuns
