import Mathlib.Data.List.Forall2
import QuantyCoin.DerivedCache
import QuantyCoin.OrderedDict

/-!
# Programs side by side

Two programs that are run from related states end alike: both return, or both raise the
same exception, and the states that they have reached are related.  A cache that is a list
and one that is a dictionary give the same values.
-/

namespace StateSimulation

open DerivedCache OrderedDict StateTriples

variable {ε σ τ α β γ δ : Type}

/-! ## Outcomes -/

/-- Outcomes of one form. -/
inductive Alike (post : α → β → σ → τ → Prop) (raised : σ → τ → Prop) :
    EStateM.Result ε σ α → EStateM.Result ε τ β → Prop
  | ok {value : α} {value' : β} {state : σ} {state' : τ} (holds : post value value' state state') :
      Alike post raised (.ok value state) (.ok value' state')
  | error {error : ε} {state : σ} {state' : τ} (holds : raised state state') :
      Alike post raised (.error error state) (.error error state')

/-- From states with the precondition, both programs return with the one postcondition, or
both raise with the other. -/
def Simulates (pre : σ → τ → Prop) (program : EStateM ε σ α) (program' : EStateM ε τ β)
    (post : α → β → σ → τ → Prop) (raised : σ → τ → Prop) : Prop :=
  ∀ state state', pre state state' → Alike post raised (program state) (program' state')

/-- The programs return the same and keep a relation. -/
def Agree (related : σ → τ → Prop) (program : EStateM ε σ α) (program' : EStateM ε τ α) : Prop :=
  Simulates related program program'
    (fun value value' state state' => value = value' ∧ related state state') related

/-- The postcondition of two searches. -/
def Found (found : α → β → σ → τ → Prop) (missed : σ → τ → Prop) :
    Option α → Option β → σ → τ → Prop
  | some value, some value' => found value value'
  | none, none => missed
  | _, _ => fun _ _ => False

/-! ## Rules -/

namespace Simulates

variable {pre raised : σ → τ → Prop} {program : EStateM ε σ α} {program' : EStateM ε τ β}
  {post : α → β → σ → τ → Prop}

/-- The rule of consequence. -/
theorem weaken {pre' raised' : σ → τ → Prop} {post' : α → β → σ → τ → Prop}
    (simulates : Simulates pre program program' post raised)
    (starts : ∀ state state', pre' state state' → pre state state')
    (returns : ∀ value value' state state', post value value' state state' →
      post' value value' state state')
    (raises : ∀ state state', raised state state' → raised' state state') :
    Simulates pre' program program' post' raised' := by
  intro state state' start
  have alike := simulates state state' (starts state state' start)
  generalize program state = outcome, program' state' = outcome' at alike ⊢
  cases alike with
  | ok holds => exact .ok (returns _ _ _ _ holds)
  | error holds => exact .error (raises _ _ holds)

theorem starting {pre' : σ → τ → Prop}
    (starts : ∀ state state', pre' state state' → pre state state')
    (simulates : Simulates pre program program' post raised) :
    Simulates pre' program program' post raised :=
  fun state state' start => simulates state state' (starts state state' start)

theorem pure {value : α} {value' : β}
    (holds : ∀ state state', pre state state' → post value value' state state') :
    Simulates pre (Pure.pure value : EStateM ε σ α) (Pure.pure value' : EStateM ε τ β) post
      raised :=
  fun state state' start => .ok (holds state state' start)

theorem bind {next : α → EStateM ε σ γ} {next' : β → EStateM ε τ δ}
    {last : γ → δ → σ → τ → Prop} (first : Simulates pre program program' post raised)
    (second : ∀ value value', Simulates (post value value') (next value) (next' value') last
      raised) :
    Simulates pre (program >>= next) (program' >>= next') last raised := by
  intro state state' start
  change Alike last raised (EStateM.bind program next state) (EStateM.bind program' next' state')
  unfold EStateM.bind
  have alike := first state state' start
  generalize program state = outcome, program' state' = outcome' at alike ⊢
  cases alike with
  | ok holds => exact second _ _ _ _ holds
  | error holds => exact .error holds

/-- A precondition that does not speak of the states. -/
theorem assuming {fact : Prop} (simulates : fact → Simulates pre program program' post raised) :
    Simulates (fun state state' => fact ∧ pre state state') program program' post raised :=
  fun state state' start => simulates start.1 state state' start.2

/-- A fact that follows from the precondition. -/
theorem since {fact : Prop} (holds : ∀ state state', pre state state' → fact)
    (simulates : fact → Simulates pre program program' post raised) :
    Simulates pre program program' post raised :=
  fun state state' start => simulates (holds state state' start) state state' start

/-- The first program looks at its state. -/
theorem look {get : σ → γ} {next : γ → EStateM ε σ α}
    (follows : ∀ value, Simulates (fun state state' => get state = value ∧ pre state state')
      (next value) program' post raised) :
    Simulates pre (StateTriples.reading (fun state => .ok (get state)) >>= next) program' post
      raised :=
  fun state state' start => follows (get state) state state' ⟨rfl, start⟩

/-- The second program looks at its state. -/
theorem look' {get : τ → γ} {next : γ → EStateM ε τ β}
    (follows : ∀ value, Simulates (fun state state' => get state' = value ∧ pre state state')
      program (next value) post raised) :
    Simulates pre program (StateTriples.reading (fun state => .ok (get state)) >>= next) post
      raised :=
  fun state state' start => follows (get state') state state' ⟨rfl, start⟩

theorem otherwise {search next : EStateM ε σ (Option γ)} {search' next' : EStateM ε τ (Option δ)}
    {found : γ → δ → σ → τ → Prop} {middle missed : σ → τ → Prop}
    (first : Simulates pre search search' (Found found middle) raised)
    (second : Simulates middle next next' (Found found missed) raised) :
    Simulates pre (StateTriples.otherwise search next) (StateTriples.otherwise search' next')
      (Found found missed) raised := by
  apply first.bind
  intro result result'
  cases result with
  | some value =>
      cases result' with
      | some value' => exact .pure fun _ _ holds => holds
      | none => exact fun _ _ impossible => impossible.elim
  | none =>
      cases result' with
      | some value' => exact fun _ _ impossible => impossible.elim
      | none => exact second

/-- Searches through lists whose items match. -/
theorem searchFirst {visit : γ → EStateM ε σ (Option α)} {visit' : δ → EStateM ε τ (Option β)}
    {items : List γ} {items' : List δ} {found : α → β → σ → τ → Prop}
    (visits : List.Forall₂ (fun item item' =>
      Simulates pre (visit item) (visit' item') (Found found pre) raised) items items') :
    Simulates pre (StateTriples.searchFirst visit items) (StateTriples.searchFirst visit' items')
      (Found found pre) raised := by
  induction visits with
  | nil => exact .pure fun _ _ holds => holds
  | cons first later ih => exact first.otherwise ih

/-- The states after the programs, however they end. -/
theorem final {related : σ → τ → Prop} (simulates : Simulates pre program program' post raised)
    (returns : ∀ value value' state state', post value value' state state' → related state state')
    (raises : ∀ state state', raised state state' → related state state') {state : σ} {state' : τ}
    (start : pre state state') :
    related (finalState (program state)) (finalState (program' state')) := by
  have alike := simulates state state' start
  generalize program state = outcome, program' state' = outcome' at alike ⊢
  cases alike with
  | ok holds => exact returns _ _ _ _ holds
  | error holds => exact raises _ _ holds

/-- What the programs return or raise. -/
theorem returned_eq {image : β → α} (simulates : Simulates pre program program' post raised)
    (images : ∀ value value' state state', post value value' state state' → value = image value')
    {state : σ} {state' : τ} (start : pre state state') :
    returned (program state) = (returned (program' state')).map image := by
  have alike := simulates state state' start
  generalize program state = outcome, program' state' = outcome' at alike ⊢
  cases alike with
  | ok holds => exact congrArg Except.ok (images _ _ _ _ holds)
  | error holds => rfl

end Simulates

namespace Agree

variable {related : σ → τ → Prop} {program : EStateM ε σ α} {program' : EStateM ε τ α}

theorem reading {compute : σ → Except ε α} {compute' : τ → Except ε α}
    (same : ∀ state state', related state state' → compute state = compute' state') :
    Agree related (reading compute) (reading compute') := by
  intro state state' start
  unfold StateTriples.reading
  rw [same state state' start]
  cases compute' state' with
  | ok value => exact .ok ⟨rfl, start⟩
  | error error => exact .error start

theorem pure (value : α) :
    Agree related (Pure.pure value : EStateM ε σ α) (Pure.pure value : EStateM ε τ α) :=
  Simulates.pure fun _ _ holds => ⟨rfl, holds⟩

theorem bind {next : α → EStateM ε σ β} {next' : α → EStateM ε τ β}
    (first : Agree related program program')
    (second : ∀ value, Agree related (next value) (next' value)) :
    Agree related (program >>= next) (program' >>= next') := by
  apply Simulates.bind first
  intro value value'
  apply Simulates.assuming
  rintro rfl
  exact second value

theorem final (agree : Agree related program program') {state : σ} {state' : τ}
    (start : related state state') :
    related (finalState (program state)) (finalState (program' state')) :=
  Simulates.final agree (fun _ _ _ _ holds => holds.2) (fun _ _ holds => holds) start

end Agree

/-! ## Two forms of a cache -/

section Caches

variable {κ : Type} {embed : Nat → κ} {entries : List (Nat × β)} {dict : Dict κ β} {index : Nat}
  {value : β}

/-- An entry under another key. -/
def entryAt (embed : Nat → κ) (entry : Nat × β) : κ × β := (embed entry.1, entry.2)

/-- The dictionary has the entries, under other keys. -/
def Lists (embed : Nat → κ) (entries : List (Nat × β)) (dict : Dict κ β) : Prop :=
  dict.entries = entries.map (entryAt embed)

theorem lookup_map_entryAt [DecidableEq κ] (injective : Function.Injective embed) :
    (entries.map (entryAt embed)).lookup (embed index) = entries.lookup index := by
  induction entries with
  | nil => rfl
  | cons entry entries ih =>
      rw [List.map_cons, List.lookup_cons, List.lookup_cons, ih]
      have keys : (embed index == (entryAt embed entry).1) = (index == entry.1) := by
        rw [Bool.eq_iff_iff, beq_iff_eq, beq_iff_eq]
        exact injective.eq_iff
      rw [keys]
      rfl

namespace Lists

theorem length (lists : Lists embed entries dict) : dict.length = entries.length := by
  rw [Dict.length, lists, List.length_map]

variable [DecidableEq κ]

theorem get? (lists : Lists embed entries dict) (injective : Function.Injective embed)
    (index : Nat) : dict.get? (embed index) = entries.lookup index := by
  rw [Dict.get?, lists, lookup_map_entryAt injective]

theorem append (lists : Lists embed entries dict) (new : dict.get? (embed index) = none) :
    Lists embed (entries ++ [(index, value)]) (dict.set (embed index) value) := by
  rw [Lists, Dict.entries_set new, lists, List.map_append]
  rfl

end Lists

variable {related : σ → τ → Prop} {list : σ → List (Nat × β)} {dict : τ → Dict κ β}

/-- A cache of either form gives the same values. -/
theorem agree_storedOr [DecidableEq κ] {store : σ → List (Nat × β) → σ} {update : τ → Dict κ β → τ}
    {compute : EStateM ε σ β} {compute' : EStateM ε τ β} (injective : Function.Injective embed)
    (lists : ∀ state state', related state state' → Lists embed (list state) (dict state'))
    (computes : Agree
      (fun state state' => related state state' ∧ (dict state').get? (embed index) = none)
      compute compute')
    (stores : ∀ state state' entries keyed, related state state' → Lists embed entries keyed →
      related (store state entries) (update state' keyed)) :
    Agree related (storedOr list store index compute)
      (cached dict update (embed index) compute') := by
  have looked : Simulates related
      (reading fun state => .ok ((list state).lookup index) : EStateM ε σ (Option β))
      (reading fun state' => .ok ((dict state').get? (embed index)))
      (fun found found' state state' => found = found' ∧
        related state state' ∧ (dict state').get? (embed index) = found') related :=
    fun state state' start =>
      .ok ⟨((lists state state' start).get? injective index).symm, start, rfl⟩
  apply looked.bind
  intro found found'
  apply Simulates.assuming
  rintro rfl
  cases found with
  | some value => exact .pure fun _ _ holds => ⟨rfl, holds.1⟩
  | none =>
      apply (Simulates.weaken computes (fun _ _ holds => holds) (fun _ _ _ _ holds => holds)
        fun _ _ holds => holds.1).bind
      intro value value'
      apply Simulates.assuming
      rintro rfl state state' ⟨holds, new⟩
      exact .ok ⟨rfl, stores _ _ _ _ holds ((lists _ _ holds).append new)⟩

/-- The test of a stored value for the one that is wanted. -/
def isWanted [DecidableEq β] (wanted : β) (_key : κ) (value : β) : Except ε Bool :=
  .ok (decide (value = wanted))

section Wanted

variable [DecidableEq β] {wanted : β} {fetch : κ → β → EStateM ε τ γ}

theorem visit_isWanted (entry : κ × β) :
    visit (isWanted wanted) fetch entry =
      if entry.2 = wanted then do
        let result ← fetch entry.1 entry.2
        return some result
      else return none := by
  by_cases passes : entry.2 = wanted
  · rw [if_pos passes]
    unfold visit isWanted
    simp only [passes, decide_true]
    rfl
  · rw [if_neg passes]
    unfold visit isWanted
    simp only [passes, decide_false]
    rfl

/-- The search for a value among the entries. -/
theorem searchFirst_isWanted (entries : List (κ × β)) :
    searchFirst (visit (isWanted wanted) fetch) entries =
      whenSome (entries.find? (·.2 = wanted)) fun entry => do
        let result ← fetch entry.1 entry.2
        return some result := by
  induction entries with
  | nil => rfl
  | cons entry entries ih =>
      rw [searchFirst, ih, visit_isWanted, List.find?_cons]
      by_cases passes : entry.2 = wanted
      · rw [if_pos passes, decide_eq_true passes]
        funext state
        simp only [otherwise, whenSome, bind, EStateM.bind]
        cases fetch entry.1 entry.2 state <;> rfl
      · rw [if_neg passes, decide_eq_false passes]
        rfl

end Wanted

/-- Both programs ask for the indices in a window. -/
theorem simulates_lookAhead {pre : σ → τ → Prop} {found : γ → δ → σ → τ → Prop}
    {search : Nat → EStateM ε σ (Option γ)} {ask : κ → EStateM ε τ β}
    {test : κ → β → Except ε Bool} {fetch : κ → β → EStateM ε τ δ} {window : Nat → List κ}
    {start count : Nat}
    (counted : ∀ state state', pre state state' → (dict state').length = start)
    (holds : ∀ state state', pre state state' → related state state')
    (windows : window start = (List.range' start count).map embed)
    (asks : ∀ index, Simulates related (search index)
      (do visit test fetch (embed index, ← ask (embed index))) (Found found related) related) :
    Simulates pre (searchFirst search (List.range' start count))
      (lookAhead dict window ask test fetch) (Found found related) related := by
  apply Simulates.look'
  intro length
  have isStart (state : σ) (state' : τ) (known : (dict state').length = length ∧ pre state state') :
      length = start := known.1.symm.trans (counted state state' known.2)
  apply Simulates.since isStart
  rintro rfl
  rw [windows, askAhead]
  apply Simulates.starting fun state state' known => holds state state' known.2
  apply Simulates.searchFirst
  apply List.forall₂_map_right_iff.mpr
  exact List.forall₂_same.mpr fun index _ => asks index

/-- A search in a cache of either form, which asks ahead, finds the same. -/
theorem simulates_findAhead [DecidableEq β] {ask : Nat → EStateM ε σ β}
    {ask' : κ → EStateM ε τ β} {fetch : Nat → EStateM ε σ γ} {fetch' : κ → β → EStateM ε τ δ}
    {window : Nat → List κ} {ahead : Nat} {wanted : β} {same : γ → δ → Prop}
    (lists : ∀ state state', related state state' → Lists embed (list state) (dict state'))
    (windows : ∀ start, window start = (List.range' start ahead).map embed)
    (asks : ∀ index, Agree related (ask index) (ask' (embed index)))
    (fetches : ∀ index value, Simulates related (fetch index) (fetch' (embed index) value)
      (fun result result' state state' => same result result' ∧ related state state') related) :
    Simulates related (findAhead list ask fetch ahead wanted)
      (otherwise (scan dict (isWanted wanted) fetch')
        (lookAhead dict window ask' (isWanted wanted) fetch'))
      (Found (fun result result' state state' => same result result' ∧ related state state')
        related) related := by
  have fetched (index : Nat) (value : β) (missed : σ → τ → Prop) : Simulates related
      (do
        let result ← fetch index
        return some result)
      (do
        let result ← fetch' (embed index) value
        return some result)
      (Found (fun result result' state state' => same result result' ∧ related state state')
        missed) related := by
    apply (fetches index value).bind
    intro result result'
    exact .pure fun _ _ holds => holds
  apply Simulates.look
  intro stored
  -- where the search among the entries finds nothing, they are still the stored ones
  have search : Simulates (fun state state' => list state = stored ∧ related state state')
      (whenSome (stored.find? (·.2 = wanted)) fun entry => do
        let result ← fetch entry.1
        return some result)
      (scan dict (isWanted wanted) fetch')
      (Found (fun result result' state state' => same result result' ∧ related state state')
        fun state state' => list state = stored ∧ related state state') related := by
    apply Simulates.look'
    intro entries
    have listed (state : σ) (state' : τ) (holds : (dict state').entries = entries ∧
        list state = stored ∧ related state state') : entries = stored.map (entryAt embed) := by
      rw [← holds.1, ← holds.2.1]
      exact lists state state' holds.2.2
    apply Simulates.since listed
    rintro rfl
    rw [searchFirst_isWanted, List.find?_map]
    change Simulates _ _ (whenSome ((stored.find? (·.2 = wanted)).map (entryAt embed)) _) _ _
    cases stored.find? (·.2 = wanted) with
    | none => exact .pure fun _ _ holds => holds.2
    | some entry =>
        apply Simulates.starting fun _ _ holds => holds.2.2
        exact fetched entry.1 entry.2 _
  apply search.otherwise
  apply simulates_lookAhead
  · intro state state' holds
    rw [← holds.1]
    exact (lists state state' holds.2).length
  · exact fun _ _ holds => holds.2
  · exact windows stored.length
  · intro index
    apply Simulates.bind (asks index)
    intro value value'
    apply Simulates.assuming
    rintro rfl
    rw [visit_isWanted]
    split_ifs
    · exact fetched index value related
    · exact .pure fun _ _ holds => holds

end Caches

end StateSimulation
