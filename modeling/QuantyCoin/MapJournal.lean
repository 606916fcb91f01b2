import Mathlib.Data.Finmap
import Mathlib.Tactic.Common

/-!
# Undoing a sequence of map updates from an unordered journal

A finite map is changed by events that take a present key out or put a value
under a key.  The journal kept on the way is unordered: the last value taken
out under each key, and the set of keys that were put.  Undoing first erases
every key that was put and then writes back every value that was taken.

Such a journal cannot always restore the map.  `Restorable` states, from the
events and the initial map alone, when it does, and `undo_run_eq_iff` proves
that the condition is exact.
-/

namespace MapJournal

variable {K V : Type*}

/-- One update of the map. -/
inductive Event (K V : Type*)
  | take (key : K)
  | put (key : K) (value : V)
  deriving DecidableEq

/-- The key an event is about. -/
def Event.key : Event K V → K
  | .take key | .put key _ => key

/-- The keys put by a list of events. -/
def putKeys (events : List (Event K V)) : List K :=
  events.filterMap fun event =>
    match event with
    | .take _ => none
    | .put key _ => some key

theorem putKeys_append (first second : List (Event K V)) :
    putKeys (first ++ second) = putKeys first ++ putKeys second := by
  simp [putKeys, List.filterMap_append]

@[simp]
theorem putKeys_cons_take (key : K) (events : List (Event K V)) :
    putKeys (.take key :: events) = putKeys events :=
  rfl

@[simp]
theorem putKeys_cons_put (key : K) (value : V) (events : List (Event K V)) :
    putKeys (.put key value :: events) = key :: putKeys events :=
  rfl

/-- The keys taken by a list of events. -/
def takeKeys (events : List (Event K V)) : List K :=
  events.filterMap fun event =>
    match event with
    | .take key => some key
    | .put _ _ => none

theorem takeKeys_append (first second : List (Event K V)) :
    takeKeys (first ++ second) = takeKeys first ++ takeKeys second := by
  simp [takeKeys, List.filterMap_append]

@[simp]
theorem takeKeys_cons_take (key : K) (events : List (Event K V)) :
    takeKeys (.take key :: events) = key :: takeKeys events :=
  rfl

@[simp]
theorem takeKeys_cons_put (key : K) (value : V) (events : List (Event K V)) :
    takeKeys (.put key value :: events) = takeKeys events :=
  rfl

theorem mem_takeKeys {events : List (Event K V)} {key : K} :
    key ∈ takeKeys events ↔ .take key ∈ events := by
  induction events with
  | nil => simp [takeKeys]
  | cons event events ih => cases event <;> simp [ih]

variable [DecidableEq K]

/-- The value most recently put under a key. -/
def lastPut (key : K) (events : List (Event K V)) : Option V :=
  events.foldl (fun last event =>
    match event with
    | .take _ => last
    | .put other value => if other = key then some value else last) none

/-- The map, the last value taken out under each key, and the keys put. -/
structure Journal (K V : Type*) where
  store : Finmap fun _ : K => V
  taken : Finmap fun _ : K => V
  added : Finset K

/-- A fresh journal over a map. -/
def start (store : Finmap fun _ : K => V) : Journal K V :=
  ⟨store, ∅, ∅⟩

/-- Execute one event; taking a key that is not there fails. -/
def step (journal : Journal K V) : Event K V → Option (Journal K V)
  | .take key =>
      match journal.store.lookup key with
      | none => none
      | some value =>
          some ⟨journal.store.erase key, journal.taken.insert key value,
            journal.added⟩
  | .put key value =>
      some ⟨journal.store.insert key value, journal.taken,
        insert key journal.added⟩

/-- Execute events until one fails; its key, if any, is reported. -/
def run : Journal K V → List (Event K V) → Journal K V × Option K
  | journal, [] => (journal, none)
  | journal, event :: events =>
      match step journal event with
      | none => (journal, some event.key)
      | some next => run next events

/-- The events that precede the first take of a missing key. -/
def beforeMissing : (Finmap fun _ : K => V) → List (Event K V) →
    List (Event K V)
  | _, [] => []
  | store, .take key :: events =>
      if key ∈ store then .take key :: beforeMissing (store.erase key) events
      else []
  | store, .put key value :: events =>
      .put key value :: beforeMissing (store.insert key value) events

instance erase_rightCommutative : RightCommutative
    (fun (store : Finmap fun _ : K => V) key => store.erase key) :=
  ⟨fun _ _ _ => Finmap.erase_erase⟩

/-- Erase a set of keys. -/
def eraseAll (store : Finmap fun _ : K => V) (keys : Finset K) :
    Finmap fun _ : K => V :=
  keys.val.foldl (fun store key => store.erase key) store

/-- Erase every key of the set, then write back the saved values. -/
def undo (store taken : Finmap fun _ : K => V) (added : Finset K) :
    Finmap fun _ : K => V :=
  taken ∪ eraseAll store added

/-- The journal of `events` gives `key` its initial value back: either the key
was absent and is never taken, or its last take finds the initial value, the
last value put under the key before that take, if any, being the initial one. -/
def Restorable (initial : Finmap fun _ : K => V) (events : List (Event K V))
    (key : K) : Prop :=
  (.take key ∉ events ∧ initial.lookup key = none) ∨
    ∃ before after, events = before ++ .take key :: after ∧
      .take key ∉ after ∧
      ∀ value, lastPut key before = some value →
        initial.lookup key = some value

/-! ## Lookups -/

theorem lookup_eraseAll (store : Finmap fun _ : K => V) (keys : Finset K)
    (key : K) :
    (eraseAll store keys).lookup key =
      if key ∈ keys then none else store.lookup key := by
  have general : ∀ (erased : Multiset K) (current : Finmap fun _ : K => V),
      (erased.foldl (fun store key => store.erase key) current).lookup key =
        if key ∈ erased then none else current.lookup key := by
    intro erased
    induction erased using Multiset.induction_on with
    | empty => simp
    | cons other erased ih =>
        intro current
        rw [Multiset.foldl_cons, ih]
        by_cases same : key = other
        · subst other
          simp
        · simp [Finmap.lookup_erase_ne same, same]
  exact general keys.val store

theorem lookup_undo (store taken : Finmap fun _ : K => V) (added : Finset K)
    (key : K) :
    (undo store taken added).lookup key =
      match taken.lookup key with
      | some value => some value
      | none => if key ∈ added then none else store.lookup key := by
  cases saved : taken.lookup key with
  | none =>
      have absent : key ∉ taken := Finmap.lookup_eq_none.mp saved
      rw [undo, Finmap.lookup_union_right absent, lookup_eraseAll]
  | some value =>
      have present : key ∈ taken := Finmap.mem_of_lookup_eq_some saved
      rw [undo, Finmap.lookup_union_left present, saved]

/-! ## What a run does to one key -/

/-- The current value and the last taken value of one key. -/
def track (key : K) (state : Option V × Option V) :
    Event K V → Option V × Option V
  | .take other => if other = key then (none, state.1) else state
  | .put other value => if other = key then (some value, state.2) else state

theorem step_take_eq_some {journal next : Journal K V} {key : K} :
    step journal (.take key) = some next ↔ ∃ value, journal.store.lookup key = some value ∧
      next = ⟨journal.store.erase key, journal.taken.insert key value, journal.added⟩ := by
  rw [step]
  cases journal.store.lookup key with
  | none => simp
  | some value => simp [eq_comm]

theorem step_put_eq_some {journal next : Journal K V} {key : K} {value : V} :
    step journal (.put key value) = some next ↔
      next = ⟨journal.store.insert key value, journal.taken, insert key journal.added⟩ := by
  rw [step, Option.some.injEq, eq_comm]

theorem step_lookup {journal next : Journal K V} {event : Event K V}
    (stepped : step journal event = some next) (key : K) :
    (next.store.lookup key, next.taken.lookup key) =
      track key (journal.store.lookup key, journal.taken.lookup key) event := by
  cases event with
  | take other =>
      obtain ⟨value, found, rfl⟩ := step_take_eq_some.mp stepped
      by_cases same : key = other
      · subst other
        simp [track, found]
      · simp [track, Ne.symm same, Finmap.lookup_erase_ne same,
          Finmap.lookup_insert_of_ne _ same]
  | put other value =>
      cases step_put_eq_some.mp stepped
      by_cases same : key = other
      · subst other
        simp [track]
      · simp [track, Ne.symm same, Finmap.lookup_insert_of_ne _ same]

theorem step_added {journal next : Journal K V} {event : Event K V}
    (stepped : step journal event = some next) (key : K) :
    key ∈ next.added ↔ key ∈ journal.added ∨ key ∈ putKeys [event] := by
  cases event with
  | take other =>
      obtain ⟨value, -, rfl⟩ := step_take_eq_some.mp stepped
      simp [putKeys]
  | put other value =>
      cases step_put_eq_some.mp stepped
      simp [putKeys, or_comm]

theorem run_cons_completed {journal result : Journal K V}
    {event : Event K V} {events : List (Event K V)} :
    run journal (event :: events) = (result, none) ↔
      ∃ next, step journal event = some next ∧
        run next events = (result, none) := by
  cases stepped : step journal event with
  | none => simp [run, stepped]
  | some next => simp [run, stepped]

/-- A run is the run of its first part followed, unless that stopped, by the
run of its second. -/
theorem run_append (journal : Journal K V) (first second : List (Event K V)) :
    run journal (first ++ second) =
      match run journal first with
      | (middle, none) => run middle second
      | (stopped, some key) => (stopped, some key) := by
  induction first generalizing journal with
  | nil => rfl
  | cons event first ih =>
      cases stepped : step journal event with
      | none => simp [run, stepped]
      | some next => simpa [run, stepped] using ih next

theorem run_append_completed {journal result : Journal K V}
    {first second : List (Event K V)} :
    run journal (first ++ second) = (result, none) ↔
      ∃ middle, run journal first = (middle, none) ∧
        run middle second = (result, none) := by
  rw [run_append]
  rcases run journal first with ⟨middle, missing⟩
  cases missing <;> simp

/-- A completed run acts on every key by itself. -/
theorem run_lookup {journal result : Journal K V} {events : List (Event K V)}
    (completed : run journal events = (result, none)) (key : K) :
    (result.store.lookup key, result.taken.lookup key) =
      events.foldl (track key)
        (journal.store.lookup key, journal.taken.lookup key) := by
  induction events generalizing journal with
  | nil =>
      simp only [run, Prod.mk.injEq, and_true] at completed
      simp [completed]
  | cons event events ih =>
      obtain ⟨next, stepped, rest⟩ := run_cons_completed.mp completed
      rw [ih rest, List.foldl_cons, step_lookup stepped key]

/-- A completed run adds exactly the keys it puts. -/
theorem run_added {journal result : Journal K V} {events : List (Event K V)}
    (completed : run journal events = (result, none)) (key : K) :
    key ∈ result.added ↔ key ∈ journal.added ∨ key ∈ putKeys events := by
  induction events generalizing journal with
  | nil =>
      simp only [run, Prod.mk.injEq, and_true] at completed
      simp [completed, putKeys]
  | cons event events ih =>
      obtain ⟨next, stepped, rest⟩ := run_cons_completed.mp completed
      rw [ih rest, step_added stepped key, ← List.singleton_append (l := events),
        putKeys_append, List.mem_append, or_assoc]

/-- A take in the middle of a completed run finds a value. -/
theorem run_take_present {journal result : Journal K V}
    {before after : List (Event K V)} {key : K}
    (completed : run journal (before ++ .take key :: after) = (result, none)) :
    ∃ value, (before.foldl (track key)
      (journal.store.lookup key, journal.taken.lookup key)).1 = some value := by
  obtain ⟨middle, beforeRun, afterRun⟩ := run_append_completed.mp completed
  obtain ⟨next, stepped, -⟩ := run_cons_completed.mp afterRun
  obtain ⟨value, found, -⟩ := step_take_eq_some.mp stepped
  rw [← run_lookup beforeRun key]
  exact ⟨value, found⟩

/-! ## One key, seen through its events -/

/-- A key that is present holds the last value put under it, or the initial
value if nothing was put. -/
theorem track_current (key : K) (initial saved : Option V)
    (events : List (Event K V)) {value : V}
    (present : (events.foldl (track key) (initial, saved)).1 = some value) :
    lastPut key events = some value ∨
      (lastPut key events = none ∧ initial = some value) := by
  induction events using List.reverseRecOn generalizing value with
  | nil => exact Or.inr ⟨rfl, present⟩
  | append_singleton events event ih =>
      simp only [List.foldl_append, List.foldl_cons, List.foldl_nil] at present
      simp only [lastPut, List.foldl_append, List.foldl_cons, List.foldl_nil]
      cases event with
      | take other =>
          by_cases same : other = key
          · simp [track, same] at present
          · simp only [track, same, if_false] at present
            exact ih present
      | put other value' =>
          by_cases same : other = key
          · simp only [track, same, if_true] at present
            simp [same, Option.some.inj present]
          · simp only [track, same, if_false] at present
            simp only [same, if_false]
            exact ih present

/-- Without a take the saved value stays what it was. -/
theorem track_saved_of_not_taken (key : K) (state : Option V × Option V)
    {events : List (Event K V)} (notTaken : .take key ∉ events) :
    (events.foldl (track key) state).2 = state.2 := by
  induction events generalizing state with
  | nil => rfl
  | cons event events ih =>
      simp only [List.mem_cons, not_or] at notTaken
      rw [List.foldl_cons, ih _ notTaken.2]
      cases event with
      | take other =>
          have other_ne : other ≠ key := by
            rintro rfl
            exact notTaken.1 rfl
          simp [track, other_ne]
      | put other value =>
          by_cases same : other = key <;> simp [track, same]

/-- A key without events keeps its state. -/
theorem track_untouched (key : K) (state : Option V × Option V)
    {events : List (Event K V)} (notTaken : .take key ∉ events)
    (notPut : key ∉ putKeys events) :
    events.foldl (track key) state = state := by
  induction events with
  | nil => rfl
  | cons event events ih =>
      simp only [List.mem_cons, not_or] at notTaken
      cases event with
      | take other =>
          have other_ne : other ≠ key := by
            rintro rfl
            exact notTaken.1 rfl
          rw [List.foldl_cons, track, if_neg other_ne]
          exact ih notTaken.2 notPut
      | put other value =>
          have parts : key ≠ other ∧ key ∉ putKeys events := by
            simpa using notPut
          rw [List.foldl_cons, track, if_neg (Ne.symm parts.1)]
          exact ih notTaken.2 parts.2

theorem lastPut_eq_none (key : K) {events : List (Event K V)}
    (notPut : key ∉ putKeys events) : lastPut key events = none := by
  induction events using List.reverseRecOn with
  | nil => rfl
  | append_singleton events event ih =>
      have parts : key ∉ putKeys events ∧ key ∉ putKeys [event] := by
        simpa [putKeys_append] using notPut
      simp only [lastPut, List.foldl_append, List.foldl_cons, List.foldl_nil]
      cases event with
      | take other => exact ih parts.1
      | put other value =>
          have other_ne : other ≠ key := by
            rintro rfl
            exact parts.2 (by simp [putKeys])
          simp only [other_ne, if_false]
          exact ih parts.1

/-- The last take of a key, if the key is ever taken. -/
theorem exists_last_take {key : K} {events : List (Event K V)}
    (taken : .take key ∈ events) :
    ∃ before after, events = before ++ .take key :: after ∧
      .take key ∉ after := by
  induction events using List.reverseRecOn with
  | nil => simp at taken
  | append_singleton events event ih =>
      by_cases last : event = .take key
      · exact ⟨events, [], by simp [last], by simp⟩
      · have earlier : .take key ∈ events := by
          simpa [Ne.symm last] using taken
        obtain ⟨before, after, rfl, notAfter⟩ := ih earlier
        refine ⟨before, after ++ [event], by simp, ?_⟩
        simp [notAfter, Ne.symm last]

/-- After a completed run from a fresh journal, the value saved for a key that
is taken is the one its last take found. -/
theorem saved_at_last_take {initial : Finmap fun _ : K => V}
    {result : Journal K V} {before after : List (Event K V)} {key : K}
    (completed : run (start initial) (before ++ .take key :: after) =
      (result, none))
    (lastTake : .take key ∉ after) :
    ∃ value, result.taken.lookup key = some value ∧
      (lastPut key before = some value ∨
        (lastPut key before = none ∧ initial.lookup key = some value)) := by
  obtain ⟨value, present⟩ := run_take_present completed
  refine ⟨value, ?_, track_current key _ _ before present⟩
  have tracked := congrArg Prod.snd (run_lookup completed key)
  rw [List.foldl_append, List.foldl_cons,
    track_saved_of_not_taken key _ lastTake] at tracked
  simpa [track, present] using tracked

/-- Keys that are never put are always restored. -/
theorem lookup_undo_of_not_put {initial : Finmap fun _ : K => V}
    {result : Journal K V} {events : List (Event K V)}
    (completed : run (start initial) events = (result, none)) {key : K}
    (notPut : key ∉ putKeys events) :
    (undo result.store result.taken result.added).lookup key =
      initial.lookup key := by
  rw [lookup_undo]
  by_cases taken : .take key ∈ events
  · obtain ⟨before, after, rfl, lastTake⟩ := exists_last_take taken
    obtain ⟨value, saved, source⟩ := saved_at_last_take completed lastTake
    have notPutBefore : key ∉ putKeys before := by
      intro member
      exact notPut (by simp [putKeys_append, member])
    rw [lastPut_eq_none key notPutBefore] at source
    simp only [reduceCtorEq, true_and, false_or] at source
    rw [saved, source]
  · have tracked := run_lookup completed key
    rw [track_untouched key _ taken notPut] at tracked
    have notAdded : key ∉ result.added := by
      rw [run_added completed key]
      simpa [start] using notPut
    simp only [start, Finmap.lookup_empty, Prod.mk.injEq] at tracked
    simp [tracked.1, tracked.2, notAdded]

/-- A key that is put is restored exactly when `Restorable` says so. -/
theorem lookup_undo_of_put {initial : Finmap fun _ : K => V}
    {result : Journal K V} {events : List (Event K V)}
    (completed : run (start initial) events = (result, none)) {key : K}
    (put : key ∈ putKeys events) :
    (undo result.store result.taken result.added).lookup key =
        initial.lookup key ↔
      Restorable initial events key := by
  rw [lookup_undo]
  have added : key ∈ result.added := (run_added completed key).mpr (Or.inr put)
  by_cases taken : .take key ∈ events
  · obtain ⟨before, after, rfl, lastTake⟩ := exists_last_take taken
    obtain ⟨value, saved, source⟩ := saved_at_last_take completed lastTake
    rw [saved]
    constructor
    · intro restored
      refine Or.inr ⟨before, after, rfl, lastTake, ?_⟩
      intro other otherPut
      rcases source with source | source
      · rw [source] at otherPut
        rw [← restored, Option.some.inj otherPut]
      · simp [source.1] at otherPut
    · rintro (⟨notTaken, -⟩ | ⟨before', after', split, lastTake', agrees⟩)
      · exact (notTaken taken).elim
      · have saved' := saved_at_last_take (split ▸ completed) lastTake'
        obtain ⟨value', savedValue', source'⟩ := saved'
        rw [saved] at savedValue'
        cases savedValue'
        rcases source' with source' | source'
        · exact (agrees value source').symm
        · exact source'.2.symm
  · have tracked := congrArg Prod.snd (run_lookup completed key)
    rw [track_saved_of_not_taken key _ taken] at tracked
    simp only [start, Finmap.lookup_empty] at tracked
    simp only [tracked, added, if_true]
    constructor
    · intro absent
      exact Or.inl ⟨taken, absent.symm⟩
    · rintro (⟨-, absent⟩ | ⟨before, after, rfl, -⟩)
      · exact absent.symm
      · exact (taken (by simp)).elim

/-- Undoing a completed run gives the initial map back exactly when every key
that was put is restorable. -/
theorem undo_run_eq_iff {initial : Finmap fun _ : K => V}
    {result : Journal K V} {events : List (Event K V)}
    (completed : run (start initial) events = (result, none)) :
    undo result.store result.taken result.added = initial ↔
      ∀ key ∈ putKeys events, Restorable initial events key := by
  constructor
  · intro restored key put
    apply (lookup_undo_of_put completed put).mp
    rw [restored]
  · intro restorable
    apply Finmap.ext_lookup
    intro key
    by_cases put : key ∈ putKeys events
    · exact (lookup_undo_of_put completed put).mpr (restorable key put)
    · exact lookup_undo_of_not_put completed put

/-! ## Runs that stop at a missing key -/

/-- A run that stops has completed the events before the missing key. -/
theorem run_beforeMissing (journal : Journal K V) (events : List (Event K V)) :
    run journal (beforeMissing journal.store events) =
      ((run journal events).1, none) := by
  induction events generalizing journal with
  | nil => rfl
  | cons event events ih =>
      cases event with
      | take key =>
          cases found : journal.store.lookup key with
          | none =>
              have absent : key ∉ journal.store := Finmap.lookup_eq_none.mp found
              simp [beforeMissing, absent, run, step, found]
          | some value =>
              have present : key ∈ journal.store :=
                Finmap.mem_of_lookup_eq_some found
              simpa [beforeMissing, present, run, step, found] using
                ih ⟨journal.store.erase key, journal.taken.insert key value,
                  journal.added⟩
      | put key value =>
          simpa [beforeMissing, run, step] using
            ih ⟨journal.store.insert key value, journal.taken,
              insert key journal.added⟩

/-- Nothing is left out of a run that completes. -/
theorem beforeMissing_of_completed {journal result : Journal K V}
    {events : List (Event K V)} (completed : run journal events = (result, none)) :
    beforeMissing journal.store events = events := by
  induction events generalizing journal with
  | nil => rfl
  | cons event events ih =>
      obtain ⟨next, stepped, rest⟩ := run_cons_completed.mp completed
      cases event with
      | take key =>
          obtain ⟨value, found, rfl⟩ := step_take_eq_some.mp stepped
          have present : key ∈ journal.store := Finmap.mem_of_lookup_eq_some found
          simpa [beforeMissing, present] using ih rest
      | put key value =>
          cases step_put_eq_some.mp stepped
          simpa [beforeMissing] using ih rest

/-- The executed events are a first part of all events. -/
theorem beforeMissing_isPrefix (store : Finmap fun _ : K => V)
    (events : List (Event K V)) :
    List.IsPrefix (beforeMissing store events) events := by
  induction events generalizing store with
  | nil => exact List.prefix_refl _
  | cons event events ih =>
      cases event with
      | take key =>
          by_cases present : key ∈ store
          · simpa [beforeMissing, present] using ih (store.erase key)
          · simp [beforeMissing, present]
      | put key value =>
          simpa [beforeMissing] using ih (store.insert key value)

/-! ## The map that a run leaves -/

/-- The map behind a list of events. -/
def settle : (Finmap fun _ : K => V) → List (Event K V) → Finmap fun _ : K => V
  | store, [] => store
  | store, .take key :: events => settle (store.erase key) events
  | store, .put key value :: events => settle (store.insert key value) events

theorem settle_append (store : Finmap fun _ : K => V) (first second : List (Event K V)) :
    settle store (first ++ second) = settle (settle store first) second := by
  induction first generalizing store with
  | nil => rfl
  | cons event first ih =>
      cases event with
      | take key => exact ih (store.erase key)
      | put key value => exact ih (store.insert key value)

theorem run_store {journal result : Journal K V} {events : List (Event K V)}
    (completed : run journal events = (result, none)) :
    result.store = settle journal.store events := by
  induction events generalizing journal with
  | nil =>
      cases completed
      rfl
  | cons event events ih =>
      obtain ⟨next, stepped, rest⟩ := run_cons_completed.mp completed
      cases event with
      | take key =>
          obtain ⟨value, -, rfl⟩ := step_take_eq_some.mp stepped
          rw [ih rest, settle]
      | put key value =>
          cases step_put_eq_some.mp stepped
          rw [ih rest, settle]

/-- A take in the middle of a completed run finds what the events before it
left. -/
theorem run_take_found {store : Finmap fun _ : K => V} {result : Journal K V}
    {before after : List (Event K V)} {key : K}
    (completed : run (start store) (before ++ .take key :: after) = (result, none)) :
    ∃ value, (settle store before).lookup key = some value := by
  obtain ⟨middle, beforeRun, afterRun⟩ := run_append_completed.mp completed
  obtain ⟨next, stepped, -⟩ := run_cons_completed.mp afterRun
  obtain ⟨value, found, -⟩ := step_take_eq_some.mp stepped
  have left : middle.store = settle store before := run_store beforeRun
  rw [← left]
  exact ⟨value, found⟩

/-- What is found behind takes was there before them. -/
theorem lookup_of_lookup_settle_takes {store : Finmap fun _ : K => V} {keys : List K}
    {key : K} {value : V} (found : (settle store (keys.map .take)).lookup key = some value) :
    store.lookup key = some value := by
  induction keys generalizing store with
  | nil => exact found
  | cons other keys ih =>
      have before := ih found
      by_cases same : key = other
      · subst other
        simp at before
      · rwa [Finmap.lookup_erase_ne same] at before

/-! ## Which keys a run leaves, and when it completes -/

/-- What a run leaves was there or was put. -/
theorem mem_of_mem_settle {store : Finmap fun _ : K => V} {events : List (Event K V)}
    {key : K} (left : key ∈ settle store events) : key ∈ store ∨ key ∈ putKeys events := by
  induction events generalizing store with
  | nil => exact Or.inl left
  | cons event events ih =>
      cases event with
      | take other =>
          rcases ih left with kept | put
          · exact Or.inl (Finmap.mem_erase.mp kept).2
          · exact Or.inr put
      | put other value =>
          rw [putKeys_cons_put, List.mem_cons]
          rcases ih left with kept | put
          · rcases Finmap.mem_insert.mp kept with same | before
            · exact Or.inr (Or.inl same)
            · exact Or.inl before
          · exact Or.inr (Or.inr put)

/-- A key that is never taken stays once it is there. -/
theorem mem_settle_of_not_taken {store : Finmap fun _ : K => V}
    {events : List (Event K V)} {key : K} (untaken : key ∉ takeKeys events)
    (before : key ∈ store ∨ key ∈ putKeys events) : key ∈ settle store events := by
  induction events generalizing store with
  | nil => simpa [putKeys, settle] using before
  | cons event events ih =>
      cases event with
      | take other =>
          rw [takeKeys_cons_take, List.mem_cons, not_or] at untaken
          apply ih untaken.2
          rcases before with kept | put
          · exact Or.inl (Finmap.mem_erase.mpr ⟨untaken.1, kept⟩)
          · exact Or.inr put
      | put other value =>
          apply ih untaken
          rw [putKeys_cons_put, List.mem_cons] at before
          rcases before with kept | same | put
          · exact Or.inl (Finmap.mem_insert.mpr (Or.inr kept))
          · exact Or.inl (Finmap.mem_insert.mpr (Or.inl same))
          · exact Or.inr put

/-- A run completes if every key it takes is there at the start and is taken
only once. -/
theorem run_completes {journal : Journal K V} {events : List (Event K V)}
    (distinct : (takeKeys events).Nodup)
    (present : ∀ key ∈ takeKeys events, key ∈ journal.store) :
    ∃ result, run journal events = (result, none) := by
  induction events generalizing journal with
  | nil => exact ⟨journal, rfl⟩
  | cons event events ih =>
      cases event with
      | take key =>
          rw [takeKeys_cons_take, List.nodup_cons] at distinct
          rw [takeKeys_cons_take, List.forall_mem_cons] at present
          obtain ⟨value, found⟩ := Finmap.mem_iff.mp present.1
          simp only [run, step, found]
          apply ih distinct.2
          intro other taken
          have apart : other ≠ key := by
            rintro rfl
            exact distinct.1 taken
          exact Finmap.mem_erase.mpr ⟨apart, present.2 other taken⟩
      | put key value =>
          simp only [run, step]
          apply ih distinct
          intro other taken
          exact Finmap.mem_insert.mpr (Or.inr (present other taken))

/-! ## Accounting -/

section Weights

variable (weight : V → Nat)

/-- The weight of all values of a map. -/
def total (store : Finmap fun _ : K => V) : Nat :=
  (store.entries.map fun entry => weight entry.2).sum

/-- The weight that the takes find. -/
def takenWeight : (Finmap fun _ : K => V) → List (Event K V) → Nat
  | _, [] => 0
  | store, .take key :: events =>
      ((store.lookup key).map weight).getD 0 + takenWeight (store.erase key) events
  | store, .put key value :: events => takenWeight (store.insert key value) events

/-- The weight that the puts bring. -/
def putWeight : List (Event K V) → Nat
  | [] => 0
  | .take _ :: events => putWeight events
  | .put _ value :: events => weight value + putWeight events

theorem takenWeight_append (store : Finmap fun _ : K => V)
    (first second : List (Event K V)) :
    takenWeight weight store (first ++ second) =
      takenWeight weight store first + takenWeight weight (settle store first) second := by
  induction first generalizing store with
  | nil => simp [takenWeight, settle]
  | cons event first ih =>
      cases event with
      | take key =>
          simp only [List.cons_append, takenWeight, settle, ih (store.erase key)]
          omega
      | put key value => exact ih (store.insert key value)

omit [DecidableEq K] in
theorem putWeight_append (first second : List (Event K V)) :
    putWeight weight (first ++ second) =
      putWeight weight first + putWeight weight second := by
  induction first with
  | nil => simp [putWeight]
  | cons event first ih =>
      cases event with
      | take key => simpa [putWeight] using ih
      | put key value =>
          simp only [List.cons_append, putWeight, ih]
          omega

theorem total_erase {store : Finmap fun _ : K => V} {key : K} {value : V}
    (found : store.lookup key = some value) :
    total weight (store.erase key) + weight value = total weight store := by
  have back : (store.erase key).insert key value = store := by
    apply Finmap.ext_lookup
    intro other
    by_cases same : other = key
    · subst same
      rw [Finmap.lookup_insert, found]
    · rw [Finmap.lookup_insert_of_ne _ same, Finmap.lookup_erase_ne same]
  conv_rhs => rw [← back, total, Finmap.entries_insert_of_notMem Finmap.notMem_erase_self,
    Multiset.map_cons, Multiset.sum_cons]
  rw [total, Nat.add_comm]

theorem total_erase_of_notMem {store : Finmap fun _ : K => V} {key : K}
    (missing : store.lookup key = none) :
    total weight (store.erase key) = total weight store := by
  congr 1
  apply Finmap.ext_lookup
  intro other
  by_cases same : other = key
  · subst same
    rw [Finmap.lookup_erase, missing]
  · rw [Finmap.lookup_erase_ne same]

/-- Writing over a value can only lose weight. -/
theorem total_insert_le (store : Finmap fun _ : K => V) (key : K) (value : V) :
    total weight (store.insert key value) ≤ total weight store + weight value := by
  have written := total_erase weight (Finmap.lookup_insert (a := key) (b := value) store)
  have erased : (store.insert key value).erase key = store.erase key := by
    apply Finmap.ext_lookup
    intro other
    by_cases same : other = key
    · subst same
      rw [Finmap.lookup_erase, Finmap.lookup_erase]
    · rw [Finmap.lookup_erase_ne same, Finmap.lookup_erase_ne same,
        Finmap.lookup_insert_of_ne _ same]
  rw [erased] at written
  have smaller : total weight (store.erase key) ≤ total weight store := by
    cases found : store.lookup key with
    | none => rw [total_erase_of_notMem weight found]
    | some old =>
        have lost := total_erase weight found
        omega
  omega

/-- Nothing comes from nowhere: what a map holds behind some events, and what
was taken on the way, was there before or was put. -/
theorem total_settle_le (store : Finmap fun _ : K => V) (events : List (Event K V)) :
    total weight (settle store events) + takenWeight weight store events ≤
      total weight store + putWeight weight events := by
  induction events generalizing store with
  | nil => simp [settle, takenWeight, putWeight]
  | cons event events ih =>
      cases event with
      | take key =>
          have rest := ih (store.erase key)
          simp only [settle, takenWeight, putWeight]
          cases found : store.lookup key with
          | none =>
              rw [total_erase_of_notMem weight found] at rest
              simpa using rest
          | some value =>
              have lost := total_erase weight found
              simp only [Option.map_some, Option.getD_some]
              omega
      | put key value =>
          have rest := ih (store.insert key value)
          have gained := total_insert_le weight store key value
          simp only [settle, takenWeight, putWeight]
          omega

end Weights

end MapJournal
