import Mathlib.Tactic.Common

/-!
# Hoare triples for programs with a state and exceptions

A program that raises keeps the state it has reached.  A triple says what holds of
the result and the state when the program returns, and of the state when it raises.
-/

namespace StateTriples

variable {ε σ α β : Type}

/-! ## Programs -/

/-- Compute from the state. -/
def reading (compute : σ → Except ε α) : EStateM ε σ α := fun state =>
  match compute state with
  | .ok value => .ok value state
  | .error error => .error error state

/-- Compute from the state a value and the next state. -/
def updating (compute : σ → Except ε (α × σ)) : EStateM ε σ α := fun state =>
  match compute state with
  | .ok (value, after) => .ok value after
  | .error error => .error error state

/-- The result of the first search, or else of the next. -/
def otherwise (first next : EStateM ε σ (Option β)) : EStateM ε σ (Option β) := do
  match ← first with
  | some result => return some result
  | none => next

/-- Search with a value that may be missing. -/
def whenSome (given : Option α) (search : α → EStateM ε σ (Option β)) :
    EStateM ε σ (Option β) :=
  match given with
  | some value => search value
  | none => pure none

/-- The first result of the visits to the items. -/
def searchFirst (visit : α → EStateM ε σ (Option β)) : List α → EStateM ε σ (Option β)
  | [] => pure none
  | item :: items => otherwise (visit item) (searchFirst visit items)

theorem otherwise_assoc (first next last : EStateM ε σ (Option β)) :
    otherwise (otherwise first next) last = otherwise first (otherwise next last) := by
  funext state
  simp only [otherwise, bind, EStateM.bind]
  cases first state with
  | error error after => rfl
  | ok value after => cases value <;> rfl

theorem searchFirst_append (visit : α → EStateM ε σ (Option β)) (items later : List α) :
    searchFirst visit (items ++ later) =
      otherwise (searchFirst visit items) (searchFirst visit later) := by
  induction items with
  | nil => rfl
  | cons item items ih =>
      rw [List.cons_append, searchFirst, searchFirst, ih, otherwise_assoc]

/-! ## Outcomes -/

instance decidableEqResult [DecidableEq ε] [DecidableEq σ] [DecidableEq α] :
    DecidableEq (EStateM.Result ε σ α)
  | .ok value state, .ok other after =>
      decidable_of_iff (value = other ∧ state = after) (by rw [EStateM.Result.ok.injEq])
  | .error error state, .error other after =>
      decidable_of_iff (error = other ∧ state = after) (by rw [EStateM.Result.error.injEq])
  | .ok _ _, .error _ _ => .isFalse nofun
  | .error _ _, .ok _ _ => .isFalse nofun

/-- The program has returned. -/
def hasReturned : EStateM.Result ε σ α → Bool
  | .ok _ _ => true
  | .error _ _ => false

/-- The state that the program has reached. -/
def finalState : EStateM.Result ε σ α → σ
  | .ok _ state | .error _ state => state

theorem exists_of_hasReturned {result : EStateM.Result ε σ α}
    (returned : hasReturned result = true) : ∃ value state, result = .ok value state := by
  cases result with
  | ok value state => exact ⟨value, state, rfl⟩
  | error error state => cases returned

/-- The value that the program has returned. -/
def returnedValue : EStateM.Result ε σ α → Option α
  | .ok value _ => some value
  | .error _ _ => none

theorem exists_of_returnedValue {result : EStateM.Result ε σ α} {value : α}
    (returned : returnedValue result = some value) : ∃ state, result = .ok value state := by
  cases result with
  | ok found state =>
      cases returned
      exact ⟨state, rfl⟩
  | error error state => cases returned

section Outcomes

variable {program : EStateM ε σ α} {next : α → EStateM ε σ β} {state after : σ} {value : β}
  {error : ε}

theorem bind_eq_ok : (program >>= next) state = .ok value after ↔
    ∃ first middle, program state = .ok first middle ∧ next first middle = .ok value after := by
  change EStateM.bind program next state = _ ↔ _
  unfold EStateM.bind
  cases program state with
  | ok first middle => simp
  | error raised middle => simp

theorem bind_eq_error : (program >>= next) state = .error error after ↔
    program state = .error error after ∨
      ∃ first middle, program state = .ok first middle ∧
        next first middle = .error error after := by
  change EStateM.bind program next state = _ ↔ _
  unfold EStateM.bind
  cases program state with
  | ok first middle => simp
  | error raised middle => simp

theorem except_bind_eq_ok {outcome : Except ε α} {following : α → Except ε β} :
    outcome >>= following = .ok value ↔
      ∃ first, outcome = .ok first ∧ following first = .ok value := by
  cases outcome with
  | ok first =>
      change following first = _ ↔ _
      simp
  | error raised =>
      change Except.error raised = _ ↔ _
      simp

theorem except_map_eq_ok {outcome : Except ε α} {image : α → β} :
    outcome.map image = .ok value ↔ ∃ first, outcome = .ok first ∧ image first = value := by
  cases outcome with
  | ok first => simp [Except.map]
  | error raised => simp [Except.map]

theorem reading_eq_ok {compute : σ → Except ε β} : reading compute state = .ok value after ↔
    compute state = .ok value ∧ after = state := by
  unfold reading
  cases compute state with
  | ok computed => simp [eq_comm]
  | error raised => simp

theorem reading_eq_error {compute : σ → Except ε β} :
    reading compute state = .error error after ↔ compute state = .error error ∧ after = state := by
  unfold reading
  cases compute state with
  | ok computed => simp
  | error raised => simp [eq_comm]

end Outcomes

/-! ## Triples -/

/-- From every state with the precondition, the program returns with the one
postcondition or raises with the other. -/
def Triple (pre : σ → Prop) (program : EStateM ε σ α) (post : α → σ → Prop)
    (raised : σ → Prop) : Prop :=
  ∀ state, pre state → match program state with
    | .ok value after => post value after
    | .error _ after => raised after

/-- The postcondition of a search. -/
def Searched (found : β → σ → Prop) (missed : σ → Prop) : Option β → σ → Prop
  | some value => found value
  | none => missed

namespace Triple

variable {pre : σ → Prop} {program : EStateM ε σ α} {post : α → σ → Prop} {raised : σ → Prop}

theorem of_ok (triple : Triple pre program post raised) {state after : σ} {value : α}
    (start : pre state) (returned : program state = .ok value after) : post value after := by
  have result := triple state start
  rwa [returned] at result

/-- The rule of consequence. -/
theorem consequence {pre' : σ → Prop} {post' : α → σ → Prop} {raised' : σ → Prop}
    (triple : Triple pre program post raised) (starts : ∀ state, pre' state → pre state)
    (returns : ∀ value state, post value state → post' value state)
    (raises : ∀ state, raised state → raised' state) : Triple pre' program post' raised' := by
  intro state start
  have result := triple state (starts state start)
  cases outcome : program state with
  | ok value after =>
      rw [outcome] at result
      exact returns value after result
  | error error after =>
      rw [outcome] at result
      exact raises after result

theorem weaken {pre' : σ → Prop} {post' : α → σ → Prop} (triple : Triple pre program post raised)
    (starts : ∀ state, pre' state → pre state)
    (returns : ∀ value state, post value state → post' value state) :
    Triple pre' program post' raised :=
  triple.consequence starts returns fun _ holds => holds

theorem both {post' : α → σ → Prop} (first : Triple pre program post raised)
    (second : Triple pre program post' raised) :
    Triple pre program (fun value state => post value state ∧ post' value state) raised := by
  intro state start
  have result := first state start
  have result' := second state start
  cases outcome : program state with
  | ok value after =>
      rw [outcome] at result result'
      exact ⟨result, result'⟩
  | error error after =>
      rw [outcome] at result
      exact result

theorem trivial : Triple pre program (fun _ _ => True) fun _ => True := by
  intro state _
  cases program state <;> exact True.intro

/-- A precondition that does not speak of the state. -/
theorem of_fact {fact : Prop} (triple : fact → Triple (fun _ => True) program post raised) :
    Triple (fun _ => fact) program post raised :=
  fun state holds => triple holds state True.intro

theorem assuming {fact : Prop} (triple : fact → Triple pre program post raised) :
    Triple (fun state => fact ∧ pre state) program post raised :=
  fun state start => triple start.1 state start.2

theorem pure {value : α} (holds : ∀ state, pre state → post value state) :
    Triple pre (Pure.pure value : EStateM ε σ α) post raised :=
  holds

theorem bind {next : α → EStateM ε σ β} {middle : α → σ → Prop} {last : β → σ → Prop}
    (first : Triple pre program middle raised)
    (second : ∀ value, Triple (middle value) (next value) last raised) :
    Triple pre (program >>= next) last raised := by
  intro state start
  have result := first state start
  change match EStateM.bind program next state with
    | .ok value after => last value after
    | .error _ after => raised after
  unfold EStateM.bind
  cases outcome : program state with
  | ok value after =>
      rw [outcome] at result
      exact second value after result
  | error error after =>
      rw [outcome] at result
      exact result

theorem get {compute : σ → α} (holds : ∀ state, pre state → post (compute state) state) :
    Triple pre (StateTriples.reading fun state => .ok (compute state) : EStateM ε σ α) post
      raised :=
  holds

theorem modify {value : α} {compute : σ → σ}
    (holds : ∀ state, pre state → post value (compute state)) :
    Triple pre (StateTriples.updating fun state => .ok (value, compute state) : EStateM ε σ α)
      post raised :=
  holds

/-- What is computed from the state decides how the program ends. -/
theorem computing {compute : σ → Except ε α}
    (returns : ∀ state value, pre state → compute state = .ok value → post value state)
    (raises : ∀ state error, pre state → compute state = .error error → raised state) :
    Triple pre (StateTriples.reading compute) post raised := by
  intro state start
  unfold StateTriples.reading
  cases computed : compute state with
  | ok value => exact returns state value start computed
  | error error => exact raises state error start computed

theorem reading {compute : σ → Except ε α} (keeps : ∀ state, pre state → raised state)
    (holds : ∀ state value, pre state → compute state = .ok value → post value state) :
    Triple pre (reading compute) post raised :=
  computing holds fun state _ start _ => keeps state start

theorem otherwise {search next : EStateM ε σ (Option β)} {found : β → σ → Prop}
    {middle missed : σ → Prop} (first : Triple pre search (Searched found middle) raised)
    (second : Triple middle next (Searched found missed) raised) :
    Triple pre (otherwise search next) (Searched found missed) raised := by
  refine first.bind fun result => ?_
  cases result with
  | some value => exact .pure fun _ holds => holds
  | none => exact second

theorem whenSome {given : Option α} {search : α → EStateM ε σ (Option β)} {found : β → σ → Prop}
    {missed : σ → Prop}
    (present : ∀ value, given = some value →
      Triple pre (search value) (Searched found missed) raised)
    (absent : given = none → ∀ state, pre state → missed state) :
    Triple pre (whenSome given search) (Searched found missed) raised := by
  cases given with
  | some value => exact present value rfl
  | none => exact .pure (absent rfl)

/-- A search keeps an assertion about the items that it has visited. -/
theorem searchFirst {visit : α → EStateM ε σ (Option β)} {found : β → σ → Prop} {items : List α}
    (visited : Nat → σ → Prop)
    (visits : ∀ index item, items[index]? = some item →
      Triple (visited index) (visit item) (Searched found (visited (index + 1))) raised) :
    Triple (visited 0) (searchFirst visit items) (Searched found (visited items.length))
      raised := by
  induction items generalizing visited with
  | nil => exact .pure fun _ holds => holds
  | cons item items ih =>
      refine (visits 0 item rfl).otherwise ?_
      exact ih (fun index => visited (index + 1)) fun index later inside =>
        visits (index + 1) later inside

/-- A search through consecutive indices finds the first one that matches. -/
theorem searchFirst_range {visit : Nat → EStateM ε σ (Option β)} {isMatch : Nat → Prop}
    {found : Nat → β → σ → Prop} {holds : Nat → σ → Prop} (start count : Nat)
    (visits : ∀ index, start ≤ index → index < start + count →
      Triple (holds index) (visit index)
        (Searched (fun result state => isMatch index ∧ found index result state)
          fun state => ¬ isMatch index ∧ holds (index + 1) state) raised) :
    Triple (holds start) (StateTriples.searchFirst visit (List.range' start count))
      (Searched
        (fun result state => ∃ index, start ≤ index ∧ index < start + count ∧ isMatch index ∧
          (∀ earlier, start ≤ earlier → earlier < index → ¬ isMatch earlier) ∧
          found index result state)
        fun state => (∀ index, start ≤ index → index < start + count → ¬ isMatch index) ∧
          holds (start + count) state) raised := by
  -- all indices visited so far are no matches
  have search := @searchFirst ε σ Nat β raised visit
    (fun result state => ∃ index, start ≤ index ∧ index < start + count ∧ isMatch index ∧
      (∀ earlier, start ≤ earlier → earlier < index → ¬ isMatch earlier) ∧
      found index result state)
    (List.range' start count)
    (fun visited state => (∀ index, start ≤ index → index < start + visited → ¬ isMatch index) ∧
      holds (start + visited) state)
  rw [List.length_range'] at search
  refine (search ?_).weaken ?_ fun _ _ result => result
  · intro position item listed
    obtain ⟨inside, rfl⟩ := List.getElem?_eq_some_iff.mp listed
    rw [List.length_range'] at inside
    rw [List.getElem_range', Nat.one_mul]
    rintro state ⟨missed, here⟩
    have result := visits (start + position) (by omega) (by omega) state here
    cases outcome : visit (start + position) state with
    | error error after =>
        rw [outcome] at result
        exact result
    | ok value after =>
        rw [outcome] at result
        cases value with
        | some value =>
            exact ⟨start + position, by omega, by omega, result.1, missed, result.2⟩
        | none =>
            refine ⟨fun index low high => ?_, result.2⟩
            by_cases last : index = start + position
            · rw [last]
              exact result.1
            · exact missed index low (by omega)
  · intro state here
    exact ⟨fun index low high => absurd low (by omega), here⟩

end Triple

/-! ## Invariants -/

/-- The program keeps the assertion, also where it raises. -/
def Keeps (invariant : σ → Prop) (program : EStateM ε σ α) : Prop :=
  Triple invariant program (fun _ => invariant) invariant

namespace Keeps

variable {invariant : σ → Prop} {program : EStateM ε σ α}

theorem pure (value : α) : Keeps invariant (Pure.pure value : EStateM ε σ α) :=
  Triple.pure fun _ holds => holds

theorem throw (error : ε) : Keeps invariant (throw error : EStateM ε σ α) :=
  fun _ start => start

theorem bind {next : α → EStateM ε σ β} (first : Keeps invariant program)
    (second : ∀ value, Keeps invariant (next value)) : Keeps invariant (program >>= next) :=
  Triple.bind first second

theorem reading (compute : σ → Except ε α) : Keeps invariant (reading compute) :=
  Triple.reading (fun _ holds => holds) fun _ _ holds _ => holds

theorem otherwise {search next : EStateM ε σ (Option β)} (first : Keeps invariant search)
    (second : Keeps invariant next) : Keeps invariant (otherwise search next) := by
  refine first.bind fun result => ?_
  cases result with
  | some value => exact .pure _
  | none => exact second

theorem whenSome {given : Option α} {search : α → EStateM ε σ (Option β)}
    (searches : ∀ value, Keeps invariant (search value)) :
    Keeps invariant (whenSome given search) := by
  cases given with
  | some value => exact searches value
  | none => exact .pure _

theorem searchFirst {visit : α → EStateM ε σ (Option β)} {items : List α}
    (visits : ∀ item, Keeps invariant (visit item)) :
    Keeps invariant (searchFirst visit items) := by
  induction items with
  | nil => exact .pure _
  | cons item items ih => exact (visits item).otherwise ih

/-- The state after the program, however it ends. -/
theorem final (keeps : Keeps invariant program) {state : σ} (start : invariant state) :
    invariant (finalState (program state)) := by
  have result := keeps state start
  cases outcome : program state with
  | ok value after =>
      rw [outcome] at result
      exact result
  | error error after =>
      rw [outcome] at result
      exact result

end Keeps

/-! ## Known outcomes -/

/-- A triple for a program that returns nothing but the given outcome. -/
def Yields (pre : σ → Prop) (program : EStateM ε σ α) (outcome : Except ε α)
    (post raised : σ → Prop) : Prop :=
  Triple pre program (fun value state => outcome = .ok value ∧ post state) raised

namespace Yields

variable {pre middle post raised : σ → Prop} {program : EStateM ε σ α} {outcome : Except ε α}

theorem bind {next : α → EStateM ε σ β} {following : α → Except ε β}
    (first : Yields pre program outcome middle raised)
    (second : ∀ value, outcome = .ok value →
      Yields middle (next value) (following value) post raised) :
    Yields pre (program >>= next) (outcome >>= following) post raised := by
  apply Triple.bind first
  rintro value state ⟨same, holds⟩
  rw [same]
  exact second value same state holds

theorem reading {compute : σ → Except ε α} (keeps : ∀ state, pre state → raised state)
    (same : ∀ state, pre state → compute state = outcome)
    (holds : ∀ state, pre state → post state) :
    Yields pre (reading compute) outcome post raised := by
  apply Triple.reading keeps
  intro state value start computed
  exact ⟨(same state start).symm.trans computed, holds state start⟩

/-- A program that does not look at the state. -/
theorem const : Yields pre (StateTriples.reading fun _ => outcome) outcome pre pre :=
  .reading (fun _ start => start) (fun _ _ => rfl) fun _ start => start

theorem keeps (yields : Yields pre program outcome pre pre) : Keeps pre program :=
  Triple.weaken yields (fun _ start => start) fun _ _ result => result.2

end Yields

end StateTriples
