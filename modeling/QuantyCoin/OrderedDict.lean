import Mathlib.Data.List.Nodup
import QuantyCoin.StateTriples

/-!
# Dictionaries in the order of insertion

A dictionary keeps its keys in the order in which they came.  A method stores what it
computes for a key, and computes it the first time.  A search looks through the entries
and then asks for more keys.
-/

namespace OrderedDict

open StateTriples

/-! ## Dictionaries -/

structure Dict (κ β : Type) where
  entries : List (κ × β)
  nodup : (entries.map Prod.fst).Nodup

namespace Dict

variable {κ β : Type} [DecidableEq κ] {dict : Dict κ β} {key other : κ} {value : β}

/-- No entries. -/
def empty : Dict κ β := ⟨[], List.nodup_nil⟩

def get? (dict : Dict κ β) (key : κ) : Option β := dict.entries.lookup key

def length (dict : Dict κ β) : Nat := dict.entries.length

theorem get?_eq_none_iff : dict.get? key = none ↔ key ∉ dict.entries.map Prod.fst := by
  rw [get?, List.lookup_eq_none_iff, List.mem_map]
  constructor
  · rintro missing ⟨entry, member, rfl⟩
    exact bne_iff_ne.mp (missing entry member) rfl
  · intro absent entry member
    exact bne_iff_ne.mpr fun same => absent ⟨entry, member, same.symm⟩

/-- Assign a value to a key. -/
def set (dict : Dict κ β) (key : κ) (value : β) : Dict κ β :=
  if new : dict.get? key = none then
    ⟨dict.entries ++ [(key, value)], by
      rw [List.map_append, List.nodup_append']
      refine ⟨dict.nodup, List.nodup_singleton key, ?_⟩
      rw [List.map_singleton, List.disjoint_singleton]
      exact get?_eq_none_iff.mp new⟩
  else
    ⟨dict.entries.map fun entry => if entry.1 = key then (key, value) else entry, by
      have keys : (Prod.fst ∘ fun entry : κ × β => if entry.1 = key then (key, value) else entry) =
          Prod.fst := by
        funext entry
        rw [Function.comp_apply]
        split_ifs with same
        · exact same.symm
        · rfl
      rw [List.map_map, keys]
      exact dict.nodup⟩

theorem mem_of_get? (found : dict.get? key = some value) : (key, value) ∈ dict.entries := by
  obtain ⟨before, after, parts, -⟩ := List.lookup_eq_some_iff.mp found
  rw [parts]
  exact List.mem_append_right before List.mem_cons_self

theorem get?_eq_some_iff : dict.get? key = some value ↔ (key, value) ∈ dict.entries := by
  constructor
  · exact mem_of_get?
  · intro member
    cases found : dict.get? key with
    | none => exact absurd (List.mem_map_of_mem member) (get?_eq_none_iff.mp found)
    | some stored =>
        have same := List.inj_on_of_nodup_map dict.nodup (mem_of_get? found) member rfl
        rw [(Prod.mk.inj same).2]

theorem entries_set (new : dict.get? key = none) :
    (dict.set key value).entries = dict.entries ++ [(key, value)] := by
  rw [set, dif_pos new]

theorem length_set (new : dict.get? key = none) :
    (dict.set key value).length = dict.length + 1 := by
  rw [length, entries_set new, List.length_append, List.length_singleton, length]

theorem get?_set_self (new : dict.get? key = none) : (dict.set key value).get? key = some value := by
  rw [get?_eq_some_iff, entries_set new]
  exact List.mem_append_right _ List.mem_cons_self

theorem get?_set_of_ne (new : dict.get? key = none) (different : other ≠ key) :
    (dict.set key value).get? other = dict.get? other := by
  ext stored
  rw [get?_eq_some_iff, get?_eq_some_iff, entries_set new, List.mem_append, List.mem_singleton]
  exact or_iff_left fun same => different (Prod.mk.inj same).1

end Dict

/-! ## Returned values -/

section Returned

variable {ε σ α β : Type}

/-- What a program returns or raises. -/
def returned : EStateM.Result ε σ α → Except ε α
  | .ok value _ => .ok value
  | .error error _ => .error error

@[simp]
theorem returned_reading (compute : σ → Except ε α) (state : σ) :
    returned (reading compute state) = compute state := by
  unfold reading
  cases compute state <;> rfl

theorem returned_bind (program : EStateM ε σ α) (next : α → EStateM ε σ β) (state : σ) :
    returned ((program >>= next) state) =
      returned (program state) >>= fun value => returned (next value (finalState (program state))) := by
  change returned (EStateM.bind program next state) = _
  unfold EStateM.bind
  cases program state <;> rfl

end Returned

/-! ## Searches -/

section Searches

variable {ε σ κ β γ : Type}

/-- Fetch the result for an entry that passes a test. -/
def visit (test : κ → β → Except ε Bool) (fetch : κ → β → EStateM ε σ γ) (entry : κ × β) :
    EStateM ε σ (Option γ) := do
  let passes ← reading fun _ => test entry.1 entry.2
  if passes then
    let result ← fetch entry.1 entry.2
    return some result
  else return none

/-- The first entry that passes. -/
def scan (dict : σ → Dict κ β) (test : κ → β → Except ε Bool) (fetch : κ → β → EStateM ε σ γ) :
    EStateM ε σ (Option γ) := do
  let entries ← reading fun state => .ok (dict state).entries
  searchFirst (visit test fetch) entries

/-- The first of some more keys whose value passes. -/
def askAhead (ask : κ → EStateM ε σ β) (test : κ → β → Except ε Bool)
    (fetch : κ → β → EStateM ε σ γ) (keys : List κ) : EStateM ε σ (Option γ) :=
  searchFirst (fun key => do visit test fetch (key, ← ask key)) keys

variable {dict : σ → Dict κ β} {ask : κ → EStateM ε σ β} {test : κ → β → Except ε Bool}
  {fetch : κ → β → EStateM ε σ γ} {pre missed raised : σ → Prop} {found : γ → σ → Prop} {key : κ}
  {value : β}

theorem visit_passes (passes : test key value = .ok true)
    (fetches : Triple pre (fetch key value) found raised) :
    Triple pre (visit test fetch (key, value)) (Searched found missed) raised := by
  have tested : Triple pre (reading fun _ => test key value : EStateM ε σ Bool)
      (fun passed state => passed = true ∧ pre state) raised := by
    simp only [passes]
    exact .get fun _ start => ⟨rfl, start⟩
  refine tested.bind fun passed => Triple.assuming ?_
  rintro rfl
  exact fetches.bind fun _ => .pure fun _ holds => holds

theorem visit_fails (fails : test key value = .ok false) :
    Triple pre (visit test fetch (key, value)) (Searched found pre) raised := by
  have tested : Triple pre (reading fun _ => test key value : EStateM ε σ Bool)
      (fun passed state => passed = false ∧ pre state) raised := by
    simp only [fails]
    exact .get fun _ start => ⟨rfl, start⟩
  refine tested.bind fun passed => Triple.assuming ?_
  rintro rfl
  exact .pure fun _ holds => holds

/-- Visits that find nothing keep an assertion. -/
theorem searchFirst_misses {α : Type} {look : α → EStateM ε σ (Option γ)} {items : List α}
    (misses : ∀ item ∈ items, Triple pre (look item) (Searched found pre) raised) :
    Triple pre (searchFirst look items) (Searched found pre) raised := by
  induction items with
  | nil => exact .pure fun _ holds => holds
  | cons item items ih =>
      rw [List.forall_mem_cons] at misses
      exact misses.1.otherwise (ih misses.2)

/-- A search that finds something ends there. -/
theorem finds_first {search next : EStateM ε σ (Option γ)}
    (finds : Triple pre search (Searched found fun _ => False) raised) :
    Triple pre (otherwise search next) (Searched found missed) raised :=
  finds.otherwise fun _ impossible => impossible.elim

/-- A search goes past the visits that find nothing. -/
theorem searchFirst_reaches {α : Type} {look : α → EStateM ε σ (Option γ)} {before after : List α}
    {item : α} (misses : ∀ earlier ∈ before, Triple pre (look earlier) (Searched found pre) raised)
    (finds : Triple pre (look item) (Searched found fun _ => False) raised) :
    Triple pre (searchFirst look (before ++ item :: after)) (Searched found missed) raised := by
  rw [searchFirst_append]
  exact (searchFirst_misses misses).otherwise (finds_first finds)

/-- A scan finds nothing where no entry passes. -/
theorem scan_fails
    (fails : ∀ state, pre state → ∀ entry ∈ (dict state).entries,
      test entry.1 entry.2 = .ok false) :
    Triple pre (scan dict test fetch) (Searched found pre) raised := by
  have looked : Triple pre
      (reading fun state => .ok (dict state).entries : EStateM ε σ (List (κ × β)))
      (fun entries state => (∀ entry ∈ entries, test entry.1 entry.2 = .ok false) ∧ pre state)
      raised :=
    .get fun state start => ⟨fails state start, start⟩
  refine looked.bind fun entries => Triple.assuming fun fail => ?_
  exact searchFirst_misses fun entry member => visit_fails (fail entry member)

/-- Asking ahead finds a key whose value passes, if those of the keys before it fail. -/
theorem askAhead_passes {middle : σ → Prop} {before after : List κ}
    (earlier : ∀ other ∈ before, Triple pre (ask other)
      (fun value state => test other value = .ok false ∧ pre state) raised)
    (asks : Triple pre (ask key)
      (fun stored state => (stored = value ∧ test key stored = .ok true) ∧ middle state) raised)
    (fetches : Triple middle (fetch key value) found raised) :
    Triple pre (askAhead ask test fetch (before ++ key :: after)) (Searched found missed)
      raised := by
  apply searchFirst_reaches
  · intro other member
    exact (earlier other member).bind fun value => Triple.assuming visit_fails
  · refine asks.bind fun stored => Triple.assuming ?_
    rintro ⟨rfl, passes⟩
    exact visit_passes passes fetches

/-- Asking ahead finds nothing where no value passes. -/
theorem askAhead_fails {keys : List κ}
    (asks : ∀ key ∈ keys, Triple pre (ask key)
      (fun value state => test key value = .ok false ∧ pre state) raised) :
    Triple pre (askAhead ask test fetch keys) (Searched found pre) raised :=
  searchFirst_misses fun key member =>
    (asks key member).bind fun _ => Triple.assuming visit_fails

/-- Ask for the keys in the window behind the entries. -/
def lookAhead (dict : σ → Dict κ β) (window : Nat → List κ) (ask : κ → EStateM ε σ β)
    (test : κ → β → Except ε Bool) (fetch : κ → β → EStateM ε σ γ) :
    EStateM ε σ (Option γ) := do
  let count ← reading fun state => .ok (dict state).length
  askAhead ask test fetch (window count)

theorem lookAhead_triple {window : Nat → List κ} (fact : Nat → Prop) (counted : σ → Prop)
    (starts : ∀ state, pre state → fact (dict state).length ∧ counted state)
    (asks : ∀ count, fact count →
      Triple counted (askAhead ask test fetch (window count)) (Searched found missed) raised) :
    Triple pre (lookAhead dict window ask test fetch) (Searched found missed) raised := by
  have counted : Triple pre
      (reading fun state => .ok (dict state).length : EStateM ε σ Nat)
      (fun count state => fact count ∧ counted state) raised := .get starts
  exact counted.bind fun count => Triple.assuming (asks count)

/-! ### What searches keep -/

theorem visit_triple (raises : ∀ state, pre state → raised state)
    (fetches : Triple pre (fetch key value) found raised) :
    Triple pre (visit test fetch (key, value)) (Searched found pre) raised := by
  have tested : Triple pre (reading fun _ => test key value : EStateM ε σ Bool)
      (fun _ => pre) raised :=
    Triple.computing (fun _ _ holds _ => holds) fun state _ holds _ => raises state holds
  refine tested.bind fun passes => ?_
  cases passes
  · exact .pure fun _ holds => holds
  · exact fetches.bind fun result => .pure fun _ holds => holds

variable {invariant : σ → Prop}

/-- A scan keeps what fetching for its entries keeps. -/
theorem keeps_scan_entries [DecidableEq κ]
    (fetches : ∀ key value,
      Triple (fun state => invariant state ∧ (dict state).get? key = some value) (fetch key value)
        (fun _ => invariant) invariant) :
    Keeps invariant (scan dict test fetch) := by
  have looked : Triple invariant
      (reading fun state => .ok (dict state).entries : EStateM ε σ (List (κ × β)))
      (fun entries state => invariant state ∧
        ∀ entry ∈ entries, (dict state).get? entry.1 = some entry.2) invariant :=
    .get fun state start => ⟨start, fun entry member => Dict.get?_eq_some_iff.mpr member⟩
  refine looked.bind fun entries => ?_
  refine (@searchFirst_misses _ _ _ _ invariant (fun _ => invariant) _ _ _
    fun entry member => ?_).weaken (fun _ holds => holds) fun result _ outcome => ?_
  · refine visit_triple (fun _ holds => holds.1) ((fetches entry.1 entry.2).weaken ?_ ?_)
    · exact fun state holds => ⟨holds.1, holds.2 entry member⟩
    · exact fun _ _ holds => holds
  · cases result with
    | none => exact outcome.1
    | some result => exact outcome

theorem keeps_scan [DecidableEq κ] (fetches : ∀ key value, Keeps invariant (fetch key value)) :
    Keeps invariant (scan dict test fetch) :=
  keeps_scan_entries fun key value =>
    Triple.weaken (fetches key value) (fun _ holds => holds.1) fun _ _ holds => holds

theorem keeps_lookAhead {window : Nat → List κ} (asks : ∀ key, Keeps invariant (ask key))
    (fetches : ∀ key value, Keeps invariant (fetch key value)) :
    Keeps invariant (lookAhead dict window ask test fetch) := by
  refine (Keeps.reading _).bind fun _ => .searchFirst fun key => (asks key).bind fun value => ?_
  refine Triple.weaken (visit_triple (fun _ holds => holds) (fetches key value))
    (fun _ holds => holds) fun result _ outcome => ?_
  cases result <;> exact outcome

end Searches

/-! ## Cached methods -/

section Cached

variable {ε σ κ β γ : Type} [DecidableEq κ]

/-- The stored value of a key, or else a computed one, which is then stored. -/
def cached (dict : σ → Dict κ β) (update : σ → Dict κ β → σ) (key : κ)
    (compute : EStateM ε σ β) : EStateM ε σ β := do
  match ← reading fun state => .ok ((dict state).get? key) with
  | some value => return value
  | none =>
      let value ← compute
      updating fun state => .ok (value, update state ((dict state).set key value))

variable {dict : σ → Dict κ β} {update : σ → Dict κ β → σ} {key : κ} {compute : EStateM ε σ β}
  {pre raised : σ → Prop}

theorem returned_cached_of_some {state : σ} {value : β}
    (known : (dict state).get? key = some value) :
    returned (cached dict update key compute state) = .ok value := by
  rw [cached, returned_bind, returned_reading, known]
  rfl

theorem returned_cached_of_none {state : σ} (new : (dict state).get? key = none) :
    returned (cached dict update key compute state) = returned (compute state) := by
  rw [cached, returned_bind, returned_reading, new]
  change returned ((compute >>= fun value => updating fun state =>
    .ok (value, update state ((dict state).set key value))) state) = _
  rw [returned_bind]
  cases compute state <;> rfl

theorem cached_triple {middle post : β → σ → Prop}
    (known : ∀ state value, pre state → (dict state).get? key = some value → post value state)
    (computes : Triple (fun state => pre state ∧ (dict state).get? key = none) compute middle
      raised)
    (stores : ∀ state value, middle value state →
      post value (update state ((dict state).set key value))) :
    Triple pre (cached dict update key compute) post raised := by
  have looked : Triple pre
      (reading fun state => .ok ((dict state).get? key) : EStateM ε σ (Option β))
      (fun found state => pre state ∧ (dict state).get? key = found) raised :=
    .get fun _ start => ⟨start, rfl⟩
  refine looked.bind fun found => ?_
  cases found with
  | some value => exact .pure fun state holds => known state value holds.1 holds.2
  | none => exact computes.bind fun value => .modify fun state holds => stores state value holds

/-- A scan finds an entry that is the only one to pass. -/
theorem scan_passes {test : κ → β → Except ε Bool} {fetch : κ → β → EStateM ε σ γ}
    {found : γ → σ → Prop} {missed : σ → Prop} {value : β}
    (stored : ∀ state, pre state → (dict state).get? key = some value)
    (passes : test key value = .ok true)
    (others : ∀ state, pre state → ∀ entry ∈ (dict state).entries, entry.1 ≠ key →
      test entry.1 entry.2 = .ok false)
    (fetches : Triple pre (fetch key value) found raised) :
    Triple pre (scan dict test fetch) (Searched found missed) raised := by
  have looked : Triple pre
      (reading fun state => .ok (dict state).entries : EStateM ε σ (List (κ × β)))
      (fun entries state => (∃ before after, entries = before ++ (key, value) :: after ∧
        ∀ entry ∈ before, test entry.1 entry.2 = .ok false) ∧ pre state) raised := by
    refine .get fun state start => ⟨?_, start⟩
    obtain ⟨before, after, parts⟩ := List.append_of_mem (Dict.mem_of_get? (stored state start))
    refine ⟨before, after, parts, fun entry member => ?_⟩
    have unique := (dict state).nodup
    rw [parts, List.map_append, List.map_cons, List.nodup_append'] at unique
    refine others state start entry (parts ▸ List.mem_append_left _ member) fun same => ?_
    exact unique.2.2 (List.mem_map_of_mem member) (same ▸ List.mem_cons_self)
  refine looked.bind fun entries => Triple.assuming ?_
  rintro ⟨before, after, rfl, fail⟩
  exact searchFirst_reaches (fun earlier member => visit_fails (fail earlier member))
    (visit_passes passes fetches)

end Cached

end OrderedDict
