import QuantyCoin.FailingFolds
import Mathlib.Data.List.AList

/-!
# Loops over the entries of a map

The keys of a map are distinct.  A loop over its entries whose body changes only what
belongs to the key of an entry comes to every key once, and finds there what was there
before the loop.
-/

namespace KeyedLoops

open FailingFolds

variable {K V β σ ε : Type} [DecidableEq K]

theorem lookup_insert (map : AList fun _ : K => V) (key other : K) (value : V) :
    (map.insert key value).lookup other = if other = key then some value else map.lookup other := by
  split_ifs with same
  · rw [same, AList.lookup_insert]
  · exact AList.lookup_insert_ne same

theorem lookup_erase (map : AList fun _ : K => V) (key other : K) :
    (map.erase key).lookup other = if other = key then none else map.lookup other := by
  split_ifs with same
  · rw [same, AList.lookup_erase]
  · exact AList.lookup_erase_ne same

/-- What belongs to a key after the loop: what the entry of the key makes of it. -/
def visited (entries : List (Σ _ : K, V)) (update : K → V → β → β) (before : K → β) (key : K) : β :=
  match entries.dlookup key with
  | some value => update key value (before key)
  | none => before key

section Visited

variable {map : AList fun _ : K => V} {update : K → V → β → β} {before : K → β} {key : K}

theorem visited_of_some {value : V} (found : map.lookup key = some value) :
    visited map.entries update before key = update key value (before key) := by
  unfold visited
  rw [show map.entries.dlookup key = some value from found]

theorem visited_of_none (absent : map.lookup key = none) :
    visited map.entries update before key = before key := by
  unfold visited
  rw [show map.entries.dlookup key = none from absent]

theorem visited_congr {again : AList fun _ : K => V} (same : again.lookup key = map.lookup key) :
    visited again.entries update before key = visited map.entries update before key := by
  cases found : map.lookup key with
  | none => rw [visited_of_none found, visited_of_none (same.trans found)]
  | some value => rw [visited_of_some found, visited_of_some (same.trans found)]

end Visited

theorem visited_cons {entry : Σ _ : K, V} {entries : List (Σ _ : K, V)}
    (distinct : (entry :: entries).NodupKeys) {update : K → V → β → β} {before after : K → β}
    (step : ∀ key, after key =
      if key = entry.1 then update entry.1 entry.2 (before entry.1) else before key) (key : K) :
    visited entries update after key = visited (entry :: entries) update before key := by
  obtain ⟨new, value⟩ := entry
  by_cases same : key = new
  · subst same
    have absent : entries.dlookup key = none :=
      List.dlookup_eq_none.mpr (List.notMem_keys_of_nodupKeys_cons distinct)
    rw [visited, visited, absent, List.dlookup_cons_eq]
    simpa using step key
  · have kept : after key = before key := by simpa [same] using step key
    rw [visited, visited, List.dlookup_cons_ne _ _ same, kept]

/-- A loop whose steps may fail. -/
theorem returns_foldlM {look : σ → K → β} {body : σ → (Σ _ : K, V) → Except ε σ}
    {update : K → V → β → β} (entries : List (Σ _ : K, V)) (distinct : entries.NodupKeys)
    (before : K → β) {state : σ} (start : look state = before)
    (steps : ∀ entry ∈ entries, ∀ state, look state entry.1 = before entry.1 →
      Returns (body state entry) fun after => ∀ key, look after key =
        if key = entry.1 then update entry.1 entry.2 (look state entry.1) else look state key) :
    Returns (entries.foldlM body state) fun after =>
      look after = visited entries update before := by
  induction entries generalizing state before with
  | nil => exact .ok start
  | cons entry entries ih =>
      rw [List.foldlM_cons]
      have first := steps entry List.mem_cons_self state (congrFun start entry.1)
      refine first.bind fun after step => ?_
      have later := ih (List.nodupKeys_of_nodupKeys_cons distinct) (look after) rfl
        fun other member state unchanged => by
          refine steps other (List.mem_cons_of_mem _ member) state ?_
          have different : other.1 ≠ entry.1 := fun same =>
            List.notMem_keys_of_nodupKeys_cons distinct
              (same ▸ List.mem_keys_of_mem member)
          rw [unchanged, step, if_neg different, start]
      subst start
      exact later.imp fun last all => all.trans (funext (visited_cons distinct step))

/-- A loop whose steps do not fail. -/
theorem foldl_eq {look : σ → K → β} {body : σ → (Σ _ : K, V) → σ} {update : K → V → β → β}
    (entries : List (Σ _ : K, V)) (distinct : entries.NodupKeys) (state : σ)
    (steps : ∀ entry ∈ entries, ∀ state, ∀ key, look (body state entry) key =
      if key = entry.1 then update entry.1 entry.2 (look state entry.1) else look state key) :
    look (entries.foldl body state) = visited entries update (look state) := by
  induction entries generalizing state with
  | nil => rfl
  | cons entry entries ih =>
      rw [List.foldl_cons, ih (List.nodupKeys_of_nodupKeys_cons distinct) _ fun other member =>
        steps other (List.mem_cons_of_mem _ member)]
      exact funext (visited_cons distinct (steps entry List.mem_cons_self state))

end KeyedLoops
