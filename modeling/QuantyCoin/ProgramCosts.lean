import QuantyCoin.SuccessOrder

/-!
# Costs of programs

A measure of the state grows by no more than the cost of a program, however the program
ends.  Costs add up along a composition, and the checks of conditions cost nothing.
-/

namespace StateTriples

variable {ε σ α β : Type} {measure : σ → Nat} {cost cost' : Nat}

/-- The program adds at most `cost` to the measure. -/
def Costs (measure : σ → Nat) (cost : Nat) (program : EStateM ε σ α) : Prop :=
  ∀ state, measure (finalState (program state)) ≤ measure state + cost

namespace Costs

variable {program : EStateM ε σ α} {next : α → EStateM ε σ β}

theorem mono (costs : Costs measure cost program) (le : cost ≤ cost') :
    Costs measure cost' program :=
  fun state => Nat.le_trans (costs state) (Nat.add_le_add_left le _)

theorem pure (value : α) : Costs measure cost (pure value : EStateM ε σ α) :=
  fun _ => Nat.le_add_right _ _

theorem throw (error : ε) : Costs measure cost (throw error : EStateM ε σ α) :=
  fun _ => Nat.le_add_right _ _

/-- Costs add up; what follows may depend on what the first program has returned. -/
theorem bind (first : Costs measure cost program)
    (second : ∀ state value after, program state = .ok value after →
      Costs measure cost' (next value)) :
    Costs measure (cost + cost') (program >>= next) := by
  intro state
  have spent := first state
  change measure (finalState (EStateM.bind program next state)) ≤ _
  rw [EStateM.bind]
  cases returned : program state with
  | ok value after =>
      rw [returned] at spent
      have spent : measure after ≤ measure state + cost := spent
      have rest := second state value after returned after
      dsimp only
      omega
  | error error after =>
      rw [returned] at spent
      have spent : measure after ≤ measure state + cost := spent
      change measure after ≤ _
      omega

/-- The first program pays for everything. -/
theorem then_free (first : Costs measure cost program)
    (free : ∀ value, Costs measure 0 (next value)) :
    Costs measure cost (program >>= next) :=
  first.bind fun _ value _ _ => free value

theorem require {condition : Prop} [Decidable condition] {error : ε} :
    Costs measure cost (require condition error : EStateM ε σ Unit) := by
  rw [StateTriples.require]
  split_ifs
  · exact .pure ()
  · exact .throw error

theorem require_then {condition : Prop} [Decidable condition] {error : ε}
    {next : Unit → EStateM ε σ β} (follows : condition → Costs measure cost (next ())) :
    Costs measure cost (StateTriples.require condition error >>= next) := by
  by_cases holds : condition
  · rw [require_of holds]
    exact follows holds
  · rw [require_of_not holds]
    exact .throw error

theorem ofExcept_then {outcome : Except ε α}
    (follows : ∀ value, outcome = .ok value → Costs measure cost (next value)) :
    Costs measure cost (ofExcept outcome >>= next) := by
  cases outcome with
  | ok value => exact follows value rfl
  | error error => exact .throw error

end Costs

end StateTriples
