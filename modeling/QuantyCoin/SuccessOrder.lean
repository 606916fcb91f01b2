import QuantyCoin.StateTriples

/-!
# Programs that permit more

A program with fewer checks returns wherever the program with all of them does, with the
same value and state.  This order between programs is kept by composition, so that it
has to be shown of the single checks only.
-/

namespace StateTriples

variable {ε σ α β : Type}

/-- Fail unless a condition holds. -/
def demand (condition : Prop) [Decidable condition] (error : ε) : Except ε Unit :=
  if condition then .ok () else .error error

/-- Raise unless a condition holds. -/
def require (condition : Prop) [Decidable condition] (error : ε) : EStateM ε σ Unit :=
  if condition then pure () else throw error

/-- Where the strict computation succeeds, the lenient one has the same result. -/
def Allows (strict lenient : Except ε α) : Prop :=
  ∀ value, strict = .ok value → lenient = .ok value

/-- Wherever the strict program returns, the lenient one returns the same. -/
def Permits (strict lenient : EStateM ε σ α) : Prop :=
  ∀ state value after, strict state = .ok value after → lenient state = .ok value after

theorem demand_of {condition : Prop} [Decidable condition] {error : ε} (holds : condition) :
    demand condition error = .ok () := if_pos holds

theorem demand_of_not {condition : Prop} [Decidable condition] {error : ε}
    (fails : ¬ condition) : demand condition error = .error error := if_neg fails

theorem require_of {condition : Prop} [Decidable condition] {error : ε} (holds : condition) :
    (require condition error : EStateM ε σ Unit) = pure () := if_pos holds

theorem require_of_not {condition : Prop} [Decidable condition] {error : ε}
    (fails : ¬ condition) : (require condition error : EStateM ε σ Unit) = throw error :=
  if_neg fails

/-- Wherever the strict program returns, the lenient one returns the same value. -/
def PermitsValue (strict lenient : EStateM ε σ α) : Prop :=
  ∀ state value after, strict state = .ok value after → ∃ after', lenient state = .ok value after'

/-! ## What a program that returns has done -/

section Outcomes

variable {state after : σ}

theorem pure_eq_ok {value result : α} :
    (pure value : EStateM ε σ α) state = .ok result after ↔ value = result ∧ state = after := by
  change EStateM.Result.ok value state = .ok result after ↔ _
  rw [EStateM.Result.ok.injEq]

theorem throw_ne_ok {error : ε} {value : α} :
    (throw error : EStateM ε σ α) state ≠ .ok value after := by
  intro returned
  cases returned

theorem require_eq_ok {condition : Prop} [Decidable condition] {error : ε} {value : Unit} :
    (require condition error : EStateM ε σ Unit) state = .ok value after ↔
      condition ∧ state = after := by
  rw [require]
  split_ifs with holds
  · simp [pure_eq_ok, holds]
  · exact ⟨fun returned => absurd returned throw_ne_ok, fun both => absurd both.1 holds⟩

theorem demand_eq_ok {condition : Prop} [Decidable condition] {error : ε} {value : Unit} :
    demand condition error = .ok value ↔ condition := by
  rw [demand]
  split_ifs with holds
  · simp [holds]
  · simp [holds]

theorem ofExcept_eq_ok {outcome : Except ε α} {value : α} :
    (ofExcept outcome : EStateM ε σ α) state = .ok value after ↔
      outcome = .ok value ∧ state = after := by
  cases outcome with
  | ok result => simp [ofExcept, pure_eq_ok]
  | error error =>
      exact ⟨fun returned => absurd returned throw_ne_ok, fun both => by cases both.1⟩

theorem require_bind_eq_ok {condition : Prop} [Decidable condition] {error : ε}
    {next : Unit → EStateM ε σ β} {value : β} :
    (require condition error >>= next) state = .ok value after ↔
      condition ∧ next () state = .ok value after := by
  rw [bind_eq_ok]
  constructor
  · rintro ⟨first, middle, checked, rest⟩
    obtain ⟨holds, rfl⟩ := require_eq_ok.mp checked
    exact ⟨holds, rest⟩
  · rintro ⟨holds, rest⟩
    exact ⟨(), state, require_eq_ok.mpr ⟨holds, rfl⟩, rest⟩

theorem ofExcept_bind_eq_ok {outcome : Except ε α} {next : α → EStateM ε σ β} {value : β} :
    (ofExcept outcome >>= next) state = .ok value after ↔
      ∃ first, outcome = .ok first ∧ next first state = .ok value after := by
  rw [bind_eq_ok]
  constructor
  · rintro ⟨first, middle, computed, rest⟩
    obtain ⟨same, rfl⟩ := ofExcept_eq_ok.mp computed
    exact ⟨first, same, rest⟩
  · rintro ⟨first, same, rest⟩
    exact ⟨first, state, ofExcept_eq_ok.mpr ⟨same, rfl⟩, rest⟩

end Outcomes

/-! ## The order -/

namespace Allows

variable {strict lenient : Except ε α}

theorem refl (outcome : Except ε α) : Allows outcome outcome := fun _ same => same

theorem bind {next next' : α → Except ε β} (first : Allows strict lenient)
    (second : ∀ value, Allows (next value) (next' value)) :
    Allows (strict >>= next) (lenient >>= next') := by
  intro value returned
  obtain ⟨middle, start, rest⟩ := except_bind_eq_ok.mp returned
  exact except_bind_eq_ok.mpr ⟨middle, first middle start, second middle value rest⟩

theorem demand {condition condition' : Prop} [Decidable condition] [Decidable condition']
    {error error' : ε} (weaker : condition → condition') :
    Allows (demand condition error) (demand condition' error') := by
  intro value returned
  rw [demand_eq_ok] at returned ⊢
  exact weaker returned

end Allows

namespace Permits

variable {strict lenient : EStateM ε σ α}

theorem refl (program : EStateM ε σ α) : Permits program program := fun _ _ _ returned => returned

theorem trans {middle : EStateM ε σ α} (first : Permits strict middle)
    (second : Permits middle lenient) : Permits strict lenient :=
  fun state value after returned => second _ _ _ (first state value after returned)

theorem bind {next next' : α → EStateM ε σ β} (first : Permits strict lenient)
    (second : ∀ value, Permits (next value) (next' value)) :
    Permits (strict >>= next) (lenient >>= next') := by
  intro state value after returned
  obtain ⟨middle, between, start, rest⟩ := bind_eq_ok.mp returned
  exact bind_eq_ok.mpr ⟨middle, between, first _ _ _ start, second middle _ _ _ rest⟩

/-- A program that never returns is permitted by any other. -/
theorem of_never (never : ∀ state value after, strict state ≠ .ok value after) :
    Permits strict lenient :=
  fun state value after returned => absurd returned (never state value after)

theorem of_throw {error : ε} : Permits (throw error) lenient := .of_never fun _ _ _ => throw_ne_ok

/-- What follows a check may rely on it. -/
theorem require_bind {condition : Prop} [Decidable condition] {error : ε}
    {next next' : Unit → EStateM ε σ α} (second : condition → Permits (next ()) (next' ())) :
    Permits (require condition error >>= next) (require condition error >>= next') := by
  intro state value after returned
  rw [require_bind_eq_ok] at returned ⊢
  exact ⟨returned.1, second returned.1 _ _ _ returned.2⟩

theorem require {condition condition' : Prop} [Decidable condition] [Decidable condition']
    {error error' : ε} (weaker : condition → condition') :
    Permits (require condition error : EStateM ε σ Unit) (require condition' error') := by
  intro state value after returned
  rw [require_eq_ok] at returned ⊢
  exact ⟨weaker returned.1, returned.2⟩

theorem ofExcept {outcome outcome' : Except ε α} (same : Allows outcome outcome') :
    Permits (ofExcept outcome : EStateM ε σ α) (ofExcept outcome') := by
  intro state value after returned
  rw [ofExcept_eq_ok] at returned ⊢
  exact ⟨same value returned.1, returned.2⟩

/-- The lenient program may take a branch for granted where the strict one decides. -/
theorem ite {condition condition' : Prop} [Decidable condition] [Decidable condition']
    {other other' : EStateM ε σ α} (same : condition ↔ condition')
    (holds : condition → Permits strict lenient) (fails : ¬ condition → Permits other other') :
    Permits (if condition then strict else other) (if condition' then lenient else other') := by
  by_cases decided : condition
  · rw [if_pos decided, if_pos (same.mp decided)]
    exact holds decided
  · rw [if_neg decided, if_neg fun other => decided (same.mpr other)]
    exact fails decided

end Permits

namespace PermitsValue

variable {strict lenient : EStateM ε σ α}

theorem of_permits (permits : Permits strict lenient) : PermitsValue strict lenient :=
  fun state value after returned => ⟨after, permits state value after returned⟩

theorem of_throw {error : ε} : PermitsValue (throw error) lenient := of_permits .of_throw

theorem bind {next next' : α → EStateM ε σ β} (first : Permits strict lenient)
    (second : ∀ value, PermitsValue (next value) (next' value)) :
    PermitsValue (strict >>= next) (lenient >>= next') := by
  intro state value after returned
  obtain ⟨middle, between, start, rest⟩ := bind_eq_ok.mp returned
  obtain ⟨after', rest'⟩ := second middle _ _ _ rest
  exact ⟨after', bind_eq_ok.mpr ⟨middle, between, first _ _ _ start, rest'⟩⟩

/-- What follows the lenient program may run from another state. -/
theorem bind_anywhere {next next' : α → EStateM ε σ β} (first : PermitsValue strict lenient)
    (second : ∀ value state result after, next value state = .ok result after →
      ∀ state', ∃ after', next' value state' = .ok result after') :
    PermitsValue (strict >>= next) (lenient >>= next') := by
  intro state value after returned
  obtain ⟨middle, between, start, rest⟩ := bind_eq_ok.mp returned
  obtain ⟨between', start'⟩ := first _ _ _ start
  obtain ⟨after', rest'⟩ := second middle between value after rest between'
  exact ⟨after', bind_eq_ok.mpr ⟨middle, between', start', rest'⟩⟩

/-- A program that always returns is permitted by any that returns nothing else. -/
theorem of_unit {strict : EStateM ε σ Unit} : PermitsValue strict (pure ()) :=
  fun state _ _ _ => ⟨state, rfl⟩

end PermitsValue

/-! ## Triples of the same programs -/

namespace Triple

variable {pre : σ → Prop} {raised : σ → Prop}

theorem require {condition : Prop} [Decidable condition] {error : ε}
    (keeps : ∀ state, pre state → raised state) :
    Triple pre (require condition error : EStateM ε σ Unit)
      (fun _ state => condition ∧ pre state) raised := by
  intro state start
  rw [StateTriples.require]
  split_ifs with holds
  · exact ⟨holds, start⟩
  · exact keeps state start

theorem throw {post : α → σ → Prop} {error : ε} (keeps : ∀ state, pre state → raised state) :
    Triple pre (throw error : EStateM ε σ α) post raised :=
  keeps

theorem ofExcept {outcome : Except ε α} (keeps : ∀ state, pre state → raised state) :
    Triple pre (ofExcept outcome : EStateM ε σ α)
      (fun value state => outcome = .ok value ∧ pre state) raised := by
  cases outcome with
  | ok value => exact fun state start => ⟨rfl, start⟩
  | error error => exact keeps

/-- The state after the program, however it ends. -/
theorem reaches {program : EStateM ε σ α} (triple : Triple pre program (fun _ => raised) raised)
    {state : σ} (start : pre state) : raised (finalState (program state)) := by
  have result := triple state start
  cases outcome : program state with
  | ok value after =>
      rw [outcome] at result
      exact result
  | error error after =>
      rw [outcome] at result
      exact result

end Triple

namespace Keeps

variable {invariant : σ → Prop}

theorem require {condition : Prop} [Decidable condition] {error : ε} :
    Keeps invariant (require condition error : EStateM ε σ Unit) :=
  (Triple.require fun _ holds => holds).weaken (fun _ holds => holds) fun _ _ both => both.2

theorem ofExcept {outcome : Except ε α} :
    Keeps invariant (ofExcept outcome : EStateM ε σ α) :=
  (Triple.ofExcept fun _ holds => holds).weaken (fun _ holds => holds) fun _ _ both => both.2

end Keeps

end StateTriples
