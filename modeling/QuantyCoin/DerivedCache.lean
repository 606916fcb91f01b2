import QuantyCoin.StateTriples

/-!
# Caches of derived values

A cache stores the values that were derived for some indices, in the order in which
they were asked for.  An index is derived the first time.
-/

namespace DerivedCache

open StateTriples

variable {ε σ β γ : Type}

/-- The stored value of an index, or else a computed one, which is then stored. -/
def storedOr (entries : σ → List (Nat × β)) (store : σ → List (Nat × β) → σ) (index : Nat)
    (compute : EStateM ε σ β) : EStateM ε σ β := do
  match ← reading fun state => .ok ((entries state).lookup index) with
  | some value => return value
  | none =>
      let value ← compute
      updating fun state => .ok (value, store state (entries state ++ [(index, value)]))

/-- The result for a value, which is sought among the stored ones and then among so many
new ones. -/
def findAhead [DecidableEq β] (entries : σ → List (Nat × β)) (ask : Nat → EStateM ε σ β)
    (fetch : Nat → EStateM ε σ γ) (count : Nat) (wanted : β) : EStateM ε σ (Option γ) := do
  let stored ← reading fun state => .ok (entries state)
  otherwise
    (whenSome (stored.find? (·.2 = wanted)) fun entry => do
      let result ← fetch entry.1
      return some result)
    (searchFirst
      (fun index => do
        let found ← ask index
        if found = wanted then
          let result ← fetch index
          return some result
        else return none)
      (List.range' stored.length count))

/-- All entries are the derived values. -/
def Sound (derive : Nat → Except ε β) (entries : List (Nat × β)) : Prop :=
  ∀ entry ∈ entries, derive entry.1 = .ok entry.2

/-- The entries are the derived values of the first indices. -/
structure FirstEntries (derive : Nat → Except ε β) (count : Nat) (entries : List (Nat × β)) :
    Prop where
  indices : entries.map Prod.fst = List.range count
  sound : Sound derive entries

theorem storedOr_triple {entries : σ → List (Nat × β)} {store : σ → List (Nat × β) → σ}
    {index : Nat} {compute : EStateM ε σ β} {pre raised : σ → Prop} {middle post : β → σ → Prop}
    (known : ∀ state value, pre state → (entries state).lookup index = some value →
      post value state)
    (computes : Triple (fun state => pre state ∧ (entries state).lookup index = none) compute
      middle raised)
    (stores : ∀ state value, middle value state →
      post value (store state (entries state ++ [(index, value)]))) :
    Triple pre (storedOr entries store index compute) post raised := by
  have looked : Triple pre
      (reading fun state => .ok ((entries state).lookup index) : EStateM ε σ (Option β))
      (fun found state => pre state ∧ (entries state).lookup index = found) raised :=
    .get fun _ start => ⟨start, rfl⟩
  refine looked.bind fun found => ?_
  cases found with
  | some value => exact .pure fun state holds => known state value holds.1 holds.2
  | none => exact computes.bind fun value => .modify fun state holds => stores state value holds

section

variable {derive : Nat → Except ε β} {entries after : List (Nat × β)} {index count : Nat}
  {value : β}

theorem mem_of_lookup (found : entries.lookup index = some value) : (index, value) ∈ entries := by
  obtain ⟨before, rest, rfl, -⟩ := List.lookup_eq_some_iff.mp found
  exact List.mem_append_right _ List.mem_cons_self

namespace Sound

theorem nil : Sound derive [] := fun _ member => nomatch member

theorem lookup (sound : Sound derive entries) (found : entries.lookup index = some value) :
    derive index = .ok value :=
  sound (index, value) (mem_of_lookup found)

theorem append (sound : Sound derive entries) (derived : derive index = .ok value) :
    Sound derive (entries ++ [(index, value)]) := by
  intro entry member
  obtain old | new := List.mem_append.mp member
  · exact sound entry old
  · cases List.mem_singleton.mp new
    exact derived

end Sound

namespace FirstEntries

theorem nil : FirstEntries derive 0 [] := ⟨rfl, .nil⟩

theorem length (first : FirstEntries derive count entries) : entries.length = count := by
  rw [← List.length_map Prod.fst, first.indices, List.length_range]

theorem lookup_eq_none_iff (first : FirstEntries derive count entries) :
    entries.lookup index = none ↔ count ≤ index := by
  have listed : index ∈ entries.map Prod.fst ↔ index < count := by
    rw [first.indices, List.mem_range]
  constructor
  · intro missing
    by_contra small
    obtain ⟨entry, member, rfl⟩ := List.mem_map.mp (listed.mpr (Nat.lt_of_not_le small))
    exact absurd rfl (bne_iff_ne.mp (List.lookup_eq_none_iff.mp missing entry member))
  · intro large
    refine List.lookup_eq_none_iff.mpr fun entry member => bne_iff_ne.mpr ?_
    rintro rfl
    have small := listed.mp (List.mem_map_of_mem member)
    omega

theorem lt_of_lookup (first : FirstEntries derive count entries)
    (found : entries.lookup index = some value) : index < count := by
  by_contra large
  rw [first.lookup_eq_none_iff.mpr (Nat.le_of_not_lt large)] at found
  cases found

theorem getElem?_eq_some_iff (first : FirstEntries derive count entries) {entry : Nat × β} :
    entries[index]? = some entry ↔
      index < count ∧ entry.1 = index ∧ derive index = .ok entry.2 := by
  have position {entry : Nat × β} (found : entries[index]? = some entry) :
      index < count ∧ entry.1 = index ∧ derive index = .ok entry.2 := by
    have small : index < count := first.length ▸ (List.getElem?_eq_some_iff.mp found).1
    have listed : (entries.map Prod.fst)[index]? = some entry.1 := by
      rw [List.getElem?_map, found]
      rfl
    rw [first.indices, List.getElem?_range small] at listed
    have same : entry.1 = index := (Option.some.inj listed).symm
    exact ⟨small, same, same ▸ first.sound entry (List.mem_of_getElem? found)⟩
  constructor
  · exact position
  · rintro ⟨small, same, derived⟩
    have found := List.getElem?_eq_getElem (first.length.symm ▸ small : index < entries.length)
    obtain ⟨-, same', derived'⟩ := position found
    rw [found]
    exact congrArg some (Prod.ext (same'.trans same.symm)
      (Except.ok.inj (derived'.symm.trans derived)))

/-- A linear search finds the first index that passes. -/
theorem find?_eq_some (first : FirstEntries derive count entries) {test : Nat × β → Bool}
    {entry : Nat × β} (found : entries.find? test = some entry) :
    entry.1 < count ∧ derive entry.1 = .ok entry.2 ∧ test entry = true ∧
      ∀ earlier < entry.1, ∀ value, derive earlier = .ok value →
        test (earlier, value) = false := by
  obtain ⟨passes, index, inside, rfl, fail⟩ := List.find?_eq_some_iff_getElem.mp found
  obtain ⟨small, same, derived⟩ :=
    first.getElem?_eq_some_iff.mp (List.getElem?_eq_getElem inside)
  rw [same]
  refine ⟨small, derived, passes, fun earlier before value other => ?_⟩
  have stored : entries[earlier]? = some (earlier, value) :=
    first.getElem?_eq_some_iff.mpr ⟨Nat.lt_trans before small, rfl, other⟩
  obtain ⟨bound, isEntry⟩ := List.getElem?_eq_some_iff.mp stored
  have failed := fail earlier before
  rw [isEntry] at failed
  simpa using failed

theorem find?_eq_none (first : FirstEntries derive count entries) {test : Nat × β → Bool}
    (missing : entries.find? test = none) (small : index < count)
    (derived : derive index = .ok value) : test (index, value) = false := by
  have stored : entries[index]? = some (index, value) :=
    first.getElem?_eq_some_iff.mpr ⟨small, rfl, derived⟩
  exact Bool.eq_false_iff.mpr (List.find?_eq_none.mp missing _ (List.mem_of_getElem? stored))

theorem append (first : FirstEntries derive count entries) (derived : derive count = .ok value) :
    FirstEntries derive (count + 1) (entries ++ [(count, value)]) := by
  refine ⟨?_, first.sound.append derived⟩
  rw [List.map_append, first.indices, List.range_succ]
  rfl

end FirstEntries

end

/-! ## Caches in a state -/

section

variable {entries : σ → List (Nat × β)} {store : σ → List (Nat × β) → σ} {index : Nat}
  {compute : EStateM ε σ β} {derive : Nat → Except ε β}

/-- An invariant under which the entries are derived gives derived values. -/
theorem storedOr_sound {invariant : σ → Prop}
    (sound : ∀ state, invariant state → Sound derive (entries state))
    (stores : ∀ state value, invariant state → derive index = .ok value →
      invariant (store state (entries state ++ [(index, value)])))
    (computes : Yields invariant compute (derive index) invariant invariant) :
    Yields invariant (storedOr entries store index compute) (derive index) invariant
      invariant := by
  apply storedOr_triple
  · exact fun state value holds found => ⟨(sound state holds).lookup found, holds⟩
  · exact Triple.weaken computes (fun _ holds => holds.1) fun _ _ holds => holds
  · exact fun state value holds => ⟨holds.1, stores state value holds.2 holds.1⟩

/-- A cache of the first indices, asked for an index up to the next new one. -/
theorem storedOr_first {count : Nat} {pre middle post raised : σ → Prop} (next : index ≤ count)
    (first : ∀ state, pre state → FirstEntries derive count (entries state))
    (known : index < count → ∀ state, pre state → post state)
    (computes : index = count → Yields pre compute (derive index) middle raised)
    (stores : index = count → ∀ state value, middle state → derive index = .ok value →
      post (store state (entries state ++ [(index, value)]))) :
    Yields pre (storedOr entries store index compute) (derive index) post raised := by
  by_cases old : index < count
  · have never : Triple (fun state => pre state ∧ (entries state).lookup index = none) compute
        (fun _ _ => False) raised := by
      rintro state ⟨holds, missing⟩
      exact absurd ((first state holds).lookup_eq_none_iff.mp missing) (Nat.not_le_of_lt old)
    refine storedOr_triple ?_ never fun _ _ impossible => impossible.elim
    intro state value holds found
    exact ⟨(first state holds).sound.lookup found, known old state holds⟩
  · have new : index = count := Nat.le_antisymm next (Nat.le_of_not_lt old)
    apply storedOr_triple
    · intro state value holds found
      exact absurd ((first state holds).lt_of_lookup found) old
    · exact Triple.weaken (computes new) (fun _ holds => holds.1) fun _ _ holds => holds
    · intro state value holds
      exact ⟨holds.1, stores new state value holds.2 holds.1⟩

/-- A cache keeps what its computation and a new entry keep. -/
theorem keeps_storedOr {invariant : σ → Prop} (computes : Keeps invariant compute)
    (stores : ∀ state value, invariant state →
      invariant (store state (entries state ++ [(index, value)]))) :
    Keeps invariant (storedOr entries store index compute) := by
  apply storedOr_triple
  · exact fun _ _ holds _ => holds
  · exact Triple.weaken computes (fun _ holds => holds.1) fun _ _ holds => holds
  · exact stores

/-- A stored value is returned. -/
theorem eq_of_storedOr {state after : σ} {stored : β}
    (found : (entries state).lookup index = some stored)
    (returned : storedOr entries store index compute state = .ok value after) :
    value = stored := by
  obtain ⟨looked, middle, isLooked, rest⟩ := bind_eq_ok.mp returned
  obtain ⟨isFound, rfl⟩ := reading_eq_ok.mp isLooked
  cases isFound
  rw [found] at rest
  cases rest
  rfl

/-- A search keeps what asking and fetching keep. -/
theorem keeps_findAhead [DecidableEq β] {ask : Nat → EStateM ε σ β} {fetch : Nat → EStateM ε σ γ}
    {invariant : σ → Prop} (asks : ∀ index, Keeps invariant (ask index))
    (fetches : ∀ index, Keeps invariant (fetch index)) (ahead : Nat) (wanted : β) :
    Keeps invariant (findAhead entries ask fetch ahead wanted) := by
  apply Keeps.bind (.reading _)
  intro stored
  apply Keeps.otherwise
  · apply Keeps.whenSome
    intro entry
    exact (fetches entry.1).bind fun _ => .pure _
  · apply Keeps.searchFirst
    intro index
    apply (asks index).bind
    intro found
    split_ifs
    · exact (fetches index).bind fun _ => .pure _
    · exact .pure _

/-- A search in a cache of the first indices finds the first index with the value, if it
is not too far ahead. -/
theorem findAhead_first [DecidableEq β] {ask : Nat → EStateM ε σ β} {fetch : Nat → EStateM ε σ γ}
    {count ahead position : Nat} {wanted : β} {holds : Nat → σ → Prop} {got : Nat → γ → Prop}
    {raised : σ → Prop}
    (first : ∀ state, holds count state → FirstEntries derive count (entries state))
    (asks : ∀ index, count ≤ index →
      Yields (holds index) (ask index) (derive index) (holds (index + 1)) raised)
    (fetches : ∀ index, Triple (holds (max count (index + 1))) (fetch index)
      (fun result state => got index result ∧ holds (max count (index + 1)) state) raised)
    (near : position < count + ahead) (derived : derive position = .ok wanted)
    (earliest : ∀ earlier < position, derive earlier ≠ .ok wanted) :
    Triple (holds count) (findAhead entries ask fetch ahead wanted)
      (Searched (fun result state => got position result ∧ holds (max count (position + 1)) state)
        fun _ => False) raised := by
  have fetched (index : Nat) : Triple (holds (max count (index + 1)))
      (do
        let result ← fetch index
        return some result)
      (Searched (fun result state => got index result ∧ holds (max count (index + 1)) state)
        fun _ => False) raised :=
    (fetches index).bind fun _ => .pure fun _ result => result
  have unique {index : Nat} (isMatch : derive index = .ok wanted)
      (none : ∀ earlier < index, derive earlier ≠ .ok wanted) : index = position := by
    rcases Nat.lt_trichotomy index position with before | same | after
    · exact absurd isMatch (earliest index before)
    · exact same
    · exact absurd derived (none position after)
  have looked : Triple (holds count)
      (reading fun state => .ok (entries state) : EStateM ε σ (List (Nat × β)))
      (fun stored state => FirstEntries derive count stored ∧ holds count state) raised :=
    .get fun state start => ⟨first state start, start⟩
  apply looked.bind
  intro stored
  apply Triple.assuming
  intro isFirst
  have cached : Triple (holds count)
      (whenSome (stored.find? (·.2 = wanted)) fun entry => do
        let result ← fetch entry.1
        return some result)
      (Searched (fun result state => got position result ∧ holds (max count (position + 1)) state)
        fun state => count ≤ position ∧ holds count state) raised := by
    apply Triple.whenSome
    · intro entry found
      obtain ⟨small, isEntry, isWanted, none⟩ := isFirst.find?_eq_some found
      have wantedEntry : entry.2 = wanted := of_decide_eq_true isWanted
      rw [wantedEntry] at isEntry
      have here : entry.1 = position :=
        unique isEntry fun earlier before isMatch =>
          absurd (none earlier before wanted isMatch) (by simp)
      rw [here] at small ⊢
      apply (fetched position).weaken
      · intro state start
        rwa [Nat.max_eq_left small]
      · rintro (_ | result) state holds
        · exact holds.elim
        · exact holds
    · intro missing state start
      refine ⟨Nat.le_of_not_lt fun small => ?_, start⟩
      exact absurd (isFirst.find?_eq_none missing small derived) (by simp)
  apply cached.otherwise
  apply Triple.assuming
  intro notCached
  rw [isFirst.length]
  have search := @Triple.searchFirst_range ε σ γ raised
    (fun index => do
      let found ← ask index
      if found = wanted then
        let result ← fetch index
        return some result
      else return none)
    (fun index => derive index = .ok wanted)
    (fun index result state => got index result ∧ holds (max count (index + 1)) state) holds count
    ahead
  refine (search ?_).weaken (fun _ start => start) ?_
  · intro index low high
    apply Triple.bind (asks index low)
    intro value
    apply Triple.assuming
    intro isValue
    split_ifs with same
    · rw [same] at isValue
      apply (fetched index).weaken
      · intro state start
        rwa [Nat.max_eq_right (by omega)]
      · rintro (_ | result) state holds
        · exact holds.elim
        · exact ⟨isValue, holds⟩
    · apply Triple.pure
      intro state start
      refine ⟨fun isMatch => same ?_, start⟩
      exact Except.ok.inj (isValue.symm.trans isMatch)
  · rintro (_ | result) state holds
    · exact holds.1 position notCached near derived
    · obtain ⟨index, low, high, isMatch, none, holds⟩ := holds
      have here : index = position := by
        apply unique isMatch
        intro earlier before
        by_cases new : count ≤ earlier
        · exact none earlier new before
        · exact earliest earlier (by omega)
      rwa [here] at holds

end

end DerivedCache
