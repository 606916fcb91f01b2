import QuantyCoin.FirstKeys

/-!
# Key lookups

A wallet looks for the key of an address among those that it has derived, and then derives
the next ones.  Which keys are found, and how many are derived on the way, follows from the
numbers of entries in the caches.
-/

namespace QuantyCoin

open DerivedCache StateTriples

namespace HDWallet

variable {env : WalletEnvironment} {root : WalletRoot} {counts : KeyCounts} {wallet : HDWallet}
  {index : Nat}

/-! ## Searches -/

section Searches

variable {program : Bytes} {address : List Char} {position : Nat}

theorem storedPqKey_first :
    Triple (HoldsFirst env root counts) (storedPqKey index)
      (fun key wallet => root.pqKey env index = .ok key ∧ HoldsFirst env root counts wallet)
      (fun _ => True) := by
  apply Triple.reading fun _ _ => True.intro
  intro wallet key holds stored
  split at stored
  · rename_i known found
    cases stored
    exact ⟨holds.pq.sound.lookup found, holds⟩
  · cases stored

theorem hybridKeys_first (old : index < counts.receiving) :
    Triple (HoldsFirst env root counts) (hybridKeys env index)
      (fun keys wallet => (root.receivingKey env index = .ok keys.1 ∧
        root.pqKey env index = .ok keys.2) ∧ HoldsFirst env root counts wallet)
      (fun _ => True) := by
  apply Triple.bind (leavesFirst_getReceivingKey (Nat.le_of_lt old))
  intro secpKey
  apply Triple.assuming
  intro isKey
  rw [KeyCounts.receivingTo_of_le old]
  apply storedPqKey_first.bind
  intro pqKey
  exact .pure fun wallet holds => ⟨⟨isKey, holds.1⟩, holds.2⟩

/-- The keys of an ML-DSA address that is not too far ahead are found. -/
theorem findPqKeyForAddress_first (derived : WellDerived env root) (ordered : counts.Ordered)
    (names : Names .pq program address)
    (found : firstMatch env root .pq program (counts.pqAddresses + 50) = some position) :
    Triple (HoldsFirst env root counts) (findPqKeyForAddress env address)
      (Searched
        (fun key wallet => root.pqKey env position = .ok key ∧
          HoldsFirst env root (counts.pqAddressesTo (position + 1)) wallet)
        fun _ => False)
      (fun _ => True) := by
  obtain ⟨near, isMatch, earliest⟩ := firstMatch_eq_some_iff.mp found
  have search := @findAhead_first PyException HDWallet (List Char) MLDSAKey pqAddresses
    (root.address env .pq) _ (getPqAddress env) storedPqKey counts.pqAddresses 50 position address
    (fun count => HoldsFirst env root (counts.pqAddressesTo count))
    (fun index key => root.pqKey env index = .ok key) (fun _ => True)
  simp only [ordered.pqAddressesTo_self, ordered.pqAddressesTo_max] at search
  apply search
  · exact fun wallet holds => holds.pqAddresses
  · intro index _
    have next : index ≤ (counts.pqAddressesTo index).pqAddresses := Nat.le_max_right _ _
    rw [← counts.pqAddressesTo_succ index]
    exact leavesFirst_getPqAddress (ordered.pqAddressesTo index) next
  · exact fun index => storedPqKey_first
  · exact near
  · exact (derived.address_iff names).mpr isMatch
  · exact fun earlier before same => earliest earlier before ((derived.address_iff names).mp same)

theorem findHybridKeysForAddress_first (derived : WellDerived env root) (ordered : counts.Ordered)
    (names : Names .hybrid program address)
    (found : firstMatch env root .hybrid program (counts.hybrid + 50) = some position) :
    Triple (HoldsFirst env root counts) (findHybridKeysForAddress env address)
      (Searched
        (fun keys wallet => (root.receivingKey env position = .ok keys.1 ∧
            root.pqKey env position = .ok keys.2) ∧
          HoldsFirst env root (counts.hybridTo (position + 1)) wallet)
        fun _ => False)
      (fun _ => True) := by
  obtain ⟨near, isMatch, earliest⟩ := firstMatch_eq_some_iff.mp found
  have search := @findAhead_first PyException HDWallet (List Char) (HDKey × MLDSAKey)
    hybridAddresses (root.address env .hybrid) _ (getHybridAddress env) (hybridKeys env)
    counts.hybrid 50 position address (fun count => HoldsFirst env root (counts.hybridTo count))
    (fun index keys => root.receivingKey env index = .ok keys.1 ∧ root.pqKey env index = .ok keys.2)
    (fun _ => True)
  simp only [ordered.hybridTo_self, ordered.hybridTo_max] at search
  apply search
  · exact fun wallet holds => holds.hybridAddresses
  · intro index _
    have next : index ≤ (counts.hybridTo index).hybrid := Nat.le_max_right _ _
    rw [← counts.hybridTo_succ index]
    exact leavesFirst_getHybridAddress (ordered.hybridTo index) next
  · intro index
    have old : index < (counts.hybridTo (index + 1)).receiving := Nat.le_max_right _ _
    exact hybridKeys_first old
  · exact near
  · exact (derived.address_iff names).mpr isMatch
  · exact fun earlier before same => earliest earlier before ((derived.address_iff names).mp same)

/-- A test of a key for its hash, which leaves the wallet as it is. -/
def IsKeyTest (env : WalletEnvironment) (program : Bytes)
    (visit : HDKey → WalletM (Option HDKey)) : Prop :=
  ∀ (pre : HDWallet → Prop) (key : HDKey), Triple pre (visit key)
    (Searched
      (fun found wallet => (found = key ∧ WalletRoot.keyProgram env key = .ok program) ∧ pre wallet)
      fun wallet => WalletRoot.keyProgram env key ≠ .ok program ∧ pre wallet)
    (fun _ => True)

theorem isKeyTest_keyWithAddress (derived : WellDerived env root)
    (names : Names .receiving program address) :
    IsKeyTest env program (keyWithAddress env address) := by
  intro pre key
  apply Triple.reading fun _ _ => True.intro
  intro wallet result start tested
  obtain ⟨found, isAddress, rfl⟩ := except_map_eq_ok.mp tested
  rw [HDKey.getAddress_eq] at isAddress
  obtain ⟨other, isProgram, encoded⟩ := except_bind_eq_ok.mp isAddress
  have otherNames : Names .receiving other found := by
    obtain ⟨pubkey, -, rfl⟩ := except_map_eq_ok.mp isProgram
    exact ⟨encoded, derived.hash160_length pubkey⟩
  split_ifs with same
  · rw [same] at otherNames
    cases otherNames.addressWitness_eq.symm.trans names.addressWitness_eq
    exact ⟨⟨rfl, isProgram⟩, start⟩
  · refine ⟨fun isOther => same ?_, start⟩
    cases isOther.symm.trans isProgram
    exact Except.ok.inj (encoded.symm.trans names.encoded)

theorem isKeyTest_keyWithScript :
    IsKeyTest env program (keyWithScript env ([0x00, 0x14] ++ program)) := by
  intro pre key
  apply Triple.reading fun _ _ => True.intro
  intro wallet result start tested
  obtain ⟨pubkey, isPubkey, rfl⟩ := except_map_eq_ok.mp tested
  rw [WalletRoot.keyProgram, isPubkey]
  split_ifs with same
  · rw [List.append_cancel_left same]
    exact ⟨⟨rfl, rfl⟩, start⟩
  · refine ⟨fun isProgram => same ?_, start⟩
    rw [← Except.ok.inj isProgram]

/-- A private key of the wallet with the hash. -/
structure Owns (env : WalletEnvironment) (program : Bytes) (key : HDKey) : Prop where
  isPrivate : key.isPrivate = true
  isProgram : WalletRoot.keyProgram env key = .ok program

/-- Some key with the index has the hash. -/
def HasKey (env : WalletEnvironment) (derive : Nat → Except PyException HDKey) (program : Bytes)
    (index : Nat) : Prop :=
  ∃ key, derive index = .ok key ∧ WalletRoot.keyProgram env key = .ok program

theorem matches_receiving_iff :
    Matches env root .receiving program index ↔ HasKey env (root.receivingKey env) program index :=
  except_bind_eq_ok

theorem matches_change_iff :
    Matches env root .change program index ↔ HasKey env (root.changeKey env) program index :=
  except_bind_eq_ok

/-- A search in cached keys finds one with the hash if there is one. -/
theorem searchFirst_cached {derive : Nat → Except PyException HDKey}
    {visit : HDKey → WalletM (Option HDKey)} {entries : List (Nat × HDKey)} {count : Nat}
    {pre : HDWallet → Prop} (test : IsKeyTest env program visit)
    (isPrivate : ∀ index key, derive index = .ok key → key.isPrivate = true)
    (first : FirstEntries derive count entries) :
    Triple pre (searchFirst visit (entries.map Prod.snd))
      (Searched
        (fun key wallet => Owns env program key ∧
          (∃ index < count, HasKey env derive program index) ∧ pre wallet)
        fun wallet => (∀ index < count, ¬ HasKey env derive program index) ∧ pre wallet)
      (fun _ => True) := by
  have search := @Triple.searchFirst PyException HDWallet HDKey HDKey (fun _ => True) visit
    (fun key wallet => Owns env program key ∧ (∃ index < count, HasKey env derive program index) ∧
      pre wallet)
    (entries.map Prod.snd)
    (fun visited wallet => (∀ index < visited, ¬ HasKey env derive program index) ∧ pre wallet)
  rw [List.length_map, first.length] at search
  refine (search ?_).weaken ?_ fun _ _ result => result
  · intro index key listed
    rw [List.getElem?_map, Option.map_eq_some_iff] at listed
    obtain ⟨entry, inside, rfl⟩ := listed
    obtain ⟨small, -, isKey⟩ := first.getElem?_eq_some_iff.mp inside
    apply Triple.assuming
    intro earlier
    apply (test pre entry.2).weaken fun _ start => start
    rintro (_ | found) wallet result
    · refine ⟨fun other before => ?_, result.2⟩
      rcases Nat.lt_succ_iff_lt_or_eq.mp before with old | rfl
      · exact earlier other old
      · rintro ⟨key, isOther, isProgram⟩
        cases isKey.symm.trans isOther
        exact result.1 isProgram
    · obtain ⟨⟨rfl, isProgram⟩, start⟩ := result
      exact ⟨⟨isPrivate index _ isKey, isProgram⟩, ⟨index, small, entry.2, isKey, isProgram⟩, start⟩
  · exact fun _ start => ⟨fun _ before => absurd before (Nat.not_lt_zero _), start⟩

end Searches

/-! ## Classical keys -/

section

variable {program : Bytes} {address : List Char}

/-- A cached receiving or change key has the hash. -/
def KnowsKey (env : WalletEnvironment) (root : WalletRoot) (counts : KeyCounts)
    (program : Bytes) : Prop :=
  (∃ index < counts.receiving, Matches env root .receiving program index) ∨
    ∃ index < counts.change, Matches env root .change program index

instance : Decidable (KnowsKey env root counts program) := inferInstanceAs (Decidable (_ ∨ _))

/-- The numbers of entries after the lookup of a key, if it finds one.  With an address it
looks ahead. -/
def afterKeyLookup (env : WalletEnvironment) (root : WalletRoot) (counts : KeyCounts)
    (hasAddress : Bool) (program : Bytes) : Option KeyCounts :=
  if KnowsKey env root counts program then some counts
  else if hasAddress then
    (firstMatch env root .receiving program (counts.receiving + 50)).map fun index =>
      counts.receivingTo (index + 1)
  else none

/-- A search in the cached receiving keys and then in the cached change keys. -/
theorem searchCached_first {visit : HDKey → WalletM (Option HDKey)}
    {receiving change : List (Nat × HDKey)} (derived : WellDerived env root)
    (test : IsKeyTest env program visit)
    (isReceiving : FirstEntries (root.receivingKey env) counts.receiving receiving)
    (isChange : FirstEntries (root.changeKey env) counts.change change) :
    Triple (HoldsFirst env root counts)
      (otherwise (searchFirst visit (receiving.map Prod.snd))
        (searchFirst visit (change.map Prod.snd)))
      (Searched
        (fun key wallet => Owns env program key ∧ KnowsKey env root counts program ∧
          HoldsFirst env root counts wallet)
        fun wallet => ¬ KnowsKey env root counts program ∧ HoldsFirst env root counts wallet)
      (fun _ => True) := by
  have isPrivate (chain index : Nat) (key : HDKey)
      (isKey : root.chainKey env chain index = .ok key) : key.isPrivate = true :=
    derived.chainKey_isPrivate isKey
  have inReceiving : Triple (HoldsFirst env root counts)
      (searchFirst visit (receiving.map Prod.snd))
      (Searched
        (fun key wallet => Owns env program key ∧ KnowsKey env root counts program ∧
          HoldsFirst env root counts wallet)
        fun wallet =>
          (∀ index < counts.receiving, ¬ HasKey env (root.receivingKey env) program index) ∧
            HoldsFirst env root counts wallet)
      (fun _ => True) := by
    apply (searchFirst_cached test (isPrivate 0) isReceiving).weaken fun _ holds => holds
    rintro (_ | key) wallet
    · exact id
    · rintro ⟨owns, ⟨index, small, isKey⟩, holds⟩
      exact ⟨owns, Or.inl ⟨index, small, matches_receiving_iff.mpr isKey⟩, holds⟩
  apply inReceiving.otherwise
  apply Triple.assuming
  intro noReceiving
  apply (searchFirst_cached test (isPrivate 1) isChange).weaken fun _ holds => holds
  rintro (_ | key) wallet
  · rintro ⟨noChange, holds⟩
    refine ⟨?_, holds⟩
    rintro (⟨index, small, isMatch⟩ | ⟨index, small, isMatch⟩)
    · exact noReceiving index small (matches_receiving_iff.mp isMatch)
    · exact noChange index small (matches_change_iff.mp isMatch)
  · rintro ⟨owns, ⟨index, small, isKey⟩, holds⟩
    exact ⟨owns, Or.inr ⟨index, small, matches_change_iff.mpr isKey⟩, holds⟩

/-- A search for a hash in the cached keys. -/
theorem matchKeyHash_first (derived : WellDerived env root) :
    Triple (HoldsFirst env root counts) (matchKeyHash env ([0x00, 0x14] ++ program))
      (Searched
        (fun key wallet => Owns env program key ∧ KnowsKey env root counts program ∧
          HoldsFirst env root counts wallet)
        fun wallet => ¬ KnowsKey env root counts program ∧ HoldsFirst env root counts wallet)
      (fun _ => True) := by
  have looked : Triple (HoldsFirst env root counts)
      (reading fun wallet =>
        .ok (wallet.receivingKeys.map Prod.snd ++ wallet.changeKeys.map Prod.snd) :
          WalletM (List HDKey))
      (fun keys wallet => (∃ receiving change,
        FirstEntries (root.receivingKey env) counts.receiving receiving ∧
          FirstEntries (root.changeKey env) counts.change change ∧
            keys = receiving.map Prod.snd ++ change.map Prod.snd) ∧
        HoldsFirst env root counts wallet)
      (fun _ => True) :=
    .get fun _ holds => ⟨⟨_, _, holds.receiving, holds.change, rfl⟩, holds⟩
  apply looked.bind
  intro keys
  apply Triple.assuming
  rintro ⟨receiving, change, isReceiving, isChange, rfl⟩
  rw [searchFirst_append]
  exact searchCached_first derived isKeyTest_keyWithScript isReceiving isChange

/-- The next keys are derived until one has the address. -/
theorem searchAhead_first (derived : WellDerived env root)
    (names : Names .receiving program address) (count : Nat) :
    Triple (HoldsFirst env root counts)
      (searchFirst (fun index => do keyWithAddress env address (← getReceivingKey env index))
        (List.range' counts.receiving count))
      (Searched
        (fun key wallet => ∃ position, counts.receiving ≤ position ∧
          position < counts.receiving + count ∧ Matches env root .receiving program position ∧
          (∀ earlier, counts.receiving ≤ earlier → earlier < position →
            ¬ Matches env root .receiving program earlier) ∧
          Owns env program key ∧ HoldsFirst env root (counts.receivingTo (position + 1)) wallet)
        fun wallet => (∀ index, counts.receiving ≤ index → index < counts.receiving + count →
            ¬ Matches env root .receiving program index) ∧
          HoldsFirst env root (counts.receivingTo (counts.receiving + count)) wallet)
      (fun _ => True) := by
  have search := @Triple.searchFirst_range PyException HDWallet HDKey (fun _ => True)
    (fun index => do keyWithAddress env address (← getReceivingKey env index))
    (Matches env root .receiving program)
    (fun index key wallet => Owns env program key ∧
      HoldsFirst env root (counts.receivingTo (index + 1)) wallet)
    (fun index => HoldsFirst env root (counts.receivingTo index)) counts.receiving count
  rw [counts.receivingTo_self] at search
  apply search
  intro index low high
  have next : index ≤ (counts.receivingTo index).receiving := Nat.le_max_right _ _
  apply Triple.bind (leavesFirst_getReceivingKey next)
  intro key
  apply Triple.assuming
  intro isKey
  rw [counts.receivingTo_succ]
  apply (isKeyTest_keyWithAddress derived names _ key).weaken fun _ holds => holds
  rintro (_ | found) wallet
  · rintro ⟨isOther, holds⟩
    refine ⟨fun isMatch => ?_, holds⟩
    obtain ⟨other, isOtherKey, isProgram⟩ := matches_receiving_iff.mp isMatch
    cases isKey.symm.trans isOtherKey
    exact isOther isProgram
  · rintro ⟨⟨rfl, isProgram⟩, holds⟩
    exact ⟨matches_receiving_iff.mpr ⟨_, isKey, isProgram⟩,
      ⟨derived.chainKey_isPrivate isKey, isProgram⟩, holds⟩

/-- What a lookup that finds a key has done. -/
def FoundKey (env : WalletEnvironment) (root : WalletRoot) (counts : KeyCounts)
    (hasAddress : Bool) (program : Bytes) (key : HDKey) (wallet : HDWallet) : Prop :=
  Owns env program key ∧ ∃ after,
    afterKeyLookup env root counts hasAddress program = some after ∧
      HoldsFirst env root after wallet

theorem findKeyForAddress_first (derived : WellDerived env root)
    (names : Names .receiving program address) :
    Triple (HoldsFirst env root counts) (findKeyForAddress env address)
      (Searched (FoundKey env root counts true program)
        fun wallet => afterKeyLookup env root counts true program = none ∧
          HoldsFirst env root (counts.receivingTo (counts.receiving + 50)) wallet)
      (fun _ => True) := by
  have lookedReceiving : Triple (HoldsFirst env root counts)
      (reading fun wallet => .ok (wallet.receivingKeys.map Prod.snd) : WalletM (List HDKey))
      (fun keys wallet => (∃ entries,
        FirstEntries (root.receivingKey env) counts.receiving entries ∧
          keys = entries.map Prod.snd) ∧ HoldsFirst env root counts wallet)
      (fun _ => True) :=
    .get fun _ holds => ⟨⟨_, holds.receiving, rfl⟩, holds⟩
  have lookedChange : Triple (HoldsFirst env root counts)
      (reading fun wallet => .ok (wallet.changeKeys.map Prod.snd) : WalletM (List HDKey))
      (fun keys wallet => (∃ entries,
        FirstEntries (root.changeKey env) counts.change entries ∧
          keys = entries.map Prod.snd) ∧ HoldsFirst env root counts wallet)
      (fun _ => True) :=
    .get fun _ holds => ⟨⟨_, holds.change, rfl⟩, holds⟩
  apply lookedReceiving.bind
  intro receivingKeys
  apply Triple.assuming
  rintro ⟨receiving, isReceiving, rfl⟩
  apply lookedChange.bind
  intro changeKeys
  apply Triple.assuming
  rintro ⟨change, isChange, rfl⟩
  rw [List.length_map, isReceiving.length, ← otherwise_assoc]
  have cached : Triple (HoldsFirst env root counts)
      (otherwise (searchFirst (keyWithAddress env address) (receiving.map Prod.snd))
        (searchFirst (keyWithAddress env address) (change.map Prod.snd)))
      (Searched (FoundKey env root counts true program)
        fun wallet => ¬ KnowsKey env root counts program ∧ HoldsFirst env root counts wallet)
      (fun _ => True) := by
    apply (searchCached_first derived (isKeyTest_keyWithAddress derived names) isReceiving
      isChange).weaken fun _ holds => holds
    rintro (_ | key) wallet
    · exact id
    · rintro ⟨owns, known, holds⟩
      exact ⟨owns, counts, if_pos known, holds⟩
  apply cached.otherwise
  apply Triple.assuming
  intro unknown
  have looksAhead : afterKeyLookup env root counts true program =
      (firstMatch env root .receiving program (counts.receiving + 50)).map fun index =>
        counts.receivingTo (index + 1) := if_neg unknown
  have old {index : Nat} (small : index < counts.receiving) :
      ¬ Matches env root .receiving program index :=
    fun isMatch => unknown (Or.inl ⟨index, small, isMatch⟩)
  apply (searchAhead_first derived names 50).weaken fun _ holds => holds
  rintro (_ | key) wallet
  · rintro ⟨missed, holds⟩
    refine ⟨?_, holds⟩
    rw [looksAhead, Option.map_eq_none_iff, firstMatch_eq_none_iff]
    intro index near
    by_cases small : index < counts.receiving
    · exact old small
    · exact missed index (Nat.le_of_not_lt small) near
  · rintro ⟨position, -, near, isMatch, earliest, owns, holds⟩
    refine ⟨owns, _, ?_, holds⟩
    rw [looksAhead, Option.map_eq_some_iff]
    refine ⟨position, firstMatch_eq_some_iff.mpr ⟨near, isMatch, fun earlier before => ?_⟩, rfl⟩
    by_cases small : earlier < counts.receiving
    · exact old small
    · exact earliest earlier (Nat.le_of_not_lt small) before

/-- The address field is missing, or it is the address of the program. -/
def Given (kind : AddressKind) (program : Bytes) (given : Option (List Char)) : Prop :=
  ∀ address ∈ given, Names kind program address

/-- The key that a lookup ends with, be it the right one or the first one. -/
def LookedUp (env : WalletEnvironment) (root : WalletRoot) (program : Bytes) (key : HDKey)
    (wallet : HDWallet) : Option KeyCounts → Prop
  | some after => Owns env program key ∧ HoldsFirst env root after wallet
  | none => key.isPrivate = true ∧ WalletRoot.keyProgram env key ≠ .ok program

/-- A hash that is not found ahead is not known afterwards either. -/
theorem not_knowsKey_of_missed (missed : afterKeyLookup env root counts true program = none) :
    ¬ KnowsKey env root (counts.receivingTo (counts.receiving + 50)) program := by
  have known : ¬ KnowsKey env root counts program := by
    intro knows
    rw [afterKeyLookup, if_pos knows] at missed
    cases missed
  rw [afterKeyLookup, if_neg known, if_pos rfl, Option.map_eq_none_iff,
    firstMatch_eq_none_iff] at missed
  rintro (⟨index, near, isMatch⟩ | changeKnown)
  · rw [KeyCounts.receivingTo, Nat.max_eq_right (Nat.le_add_right _ _)] at near
    exact missed index near isMatch
  · exact known (Or.inr changeKnown)

theorem Names.nonempty {kind : AddressKind} (names : Names kind program address) :
    address ≠ [] := by
  rintro rfl
  have readBack := names.addressWitness_eq
  cases readBack

/-- The two searches of `matchKey`, one after the other. -/
theorem lookupKey_first (derived : WellDerived env root) {given : Option (List Char)}
    (names : Given .receiving program given) (started : 0 < counts.receiving) :
    Triple (HoldsFirst env root counts)
      (otherwise (whenSome (given.filter (· ≠ [])) (findKeyForAddress env))
        (matchKeyHash env ([0x00, 0x14] ++ program)))
      (Searched (FoundKey env root counts given.isSome program) fun wallet =>
        afterKeyLookup env root counts given.isSome program = none ∧
          ∃ later, (0 < later.receiving ∧ ¬ KnowsKey env root later program) ∧
            HoldsFirst env root later wallet)
      (fun _ => True) := by
  cases given with
  | none =>
      apply Triple.otherwise (.whenSome (fun _ isGiven => by cases isGiven) fun _ _ holds => holds)
      apply (matchKeyHash_first derived).weaken fun _ holds => holds
      rintro (_ | key) wallet
      · rintro ⟨unknown, holds⟩
        exact ⟨if_neg unknown, counts, ⟨started, unknown⟩, holds⟩
      · rintro ⟨owns, knows, holds⟩
        exact ⟨owns, counts, if_pos knows, holds⟩
  | some address =>
      have isName : Names .receiving program address := names address rfl
      have filtered : (some address).filter (· ≠ []) = some address := by
        simp [isName.nonempty]
      rw [filtered]
      apply Triple.otherwise (findKeyForAddress_first derived isName)
      apply Triple.assuming
      intro missed
      apply (matchKeyHash_first derived).weaken fun _ holds => holds
      have unknown := not_knowsKey_of_missed missed
      rintro (_ | key) wallet
      · rintro ⟨-, holds⟩
        refine ⟨missed, _, ⟨?_, unknown⟩, holds⟩
        exact Nat.lt_of_lt_of_le started (Nat.le_max_left _ _)
      · rintro ⟨-, knows, -⟩
        exact absurd knows unknown

theorem matchKey_first (derived : WellDerived env root) {given : Option (List Char)}
    (names : Given .receiving program given) (started : 0 < counts.receiving) :
    Triple (HoldsFirst env root counts) (matchKey env given ([0x00, 0x14] ++ program))
      (fun key wallet => LookedUp env root program key wallet
        (afterKeyLookup env root counts given.isSome program))
      (fun _ => True) := by
  apply (lookupKey_first derived names started).bind
  rintro (_ | key)
  · rintro wallet ⟨missed, later, ⟨nonempty, unknown⟩, holds⟩
    rw [missed]
    apply Triple.weaken (leavesFirst_getReceivingKey (Nat.zero_le later.receiving))
      (fun _ holds => holds) _ wallet holds
    rintro key after ⟨isKey, -⟩
    refine ⟨derived.chainKey_isPrivate isKey, fun isProgram => unknown (Or.inl ⟨0, nonempty, ?_⟩)⟩
    exact matches_receiving_iff.mpr ⟨key, isKey, isProgram⟩
  · apply Triple.pure
    rintro wallet ⟨owns, after, found, holds⟩
    rw [found]
    exact ⟨owns, holds⟩

/-! ## Post-quantum keys -/

/-- The fifth letter of an address is its version. -/
theorem Names.exists_letter {kind : AddressKind} (names : Names kind program address) :
    ∃ letter rest, charset[kind.version]? = some letter ∧
      address = "qty1".toList ++ letter :: rest := by
  have small : kind.version < 32 := by cases kind <;> decide
  obtain ⟨characters, values, encoded, spells, -⟩ :=
    exists_encodeSegwitAddress_spells mainnetBech32Hrp small program
  cases names.encoded.symm.trans encoded
  have isVersion := spells.values
  have coded := spells.coded
  cases characters with
  | nil => cases isVersion
  | cons letter rest =>
      refine ⟨letter, rest, ?_, rfl⟩
      rw [← (List.cons.inj isVersion).1]
      exact List.getElem?_idxOf (coded letter List.mem_cons_self)

theorem Given.addressWith_eq {kind : AddressKind} {given : Option (List Char)}
    (names : Given kind program given) :
    addressWith "qty1p" given = (if kind = .pq then given else none) ∧
      addressWith "qty1z" given = if kind = .hybrid then given else none := by
  cases given with
  | none => cases kind <;> exact ⟨rfl, rfl⟩
  | some address =>
      obtain ⟨letter, rest, isLetter, rfl⟩ := (names address rfl).exists_letter
      cases kind
      all_goals
        cases isLetter
        exact ⟨rfl, rfl⟩

section

variable {given : Option (List Char)} {script : Bytes} {pre raised : HDWallet → Prop}

theorem matchPq_none (notGiven : addressWith "qty1p" given = none)
    (other : script.take 2 ≠ [0x51, 0x20]) :
    Triple pre (matchPq env given script) (Searched (fun _ _ => False) pre) raised := by
  rw [matchPq, notGiven]
  apply Triple.otherwise (.whenSome (fun _ isGiven => by cases isGiven) fun _ _ holds => holds)
  apply Triple.get
  intro wallet holds
  rw [if_neg fun form => other form.2]
  exact holds

theorem matchHybrid_none (notGiven : addressWith "qty1z" given = none)
    (other : script.take 2 ≠ [0x52, 0x20]) :
    Triple pre (matchHybrid env given script) (Searched (fun _ _ => False) pre) raised := by
  rw [matchHybrid, notGiven]
  apply Triple.otherwise (.whenSome (fun _ isGiven => by cases isGiven) fun _ _ holds => holds)
  rw [matchHybridProgram, if_neg fun form => other form.2]
  exact .pure fun _ holds => holds

end

/-- The numbers of entries after the lookup of an ML-DSA key, if it finds one. -/
def afterPqLookup (env : WalletEnvironment) (root : WalletRoot) (counts : KeyCounts)
    (hasAddress : Bool) (program : Bytes) : Option KeyCounts :=
  if hasAddress then
    (firstMatch env root .pq program (counts.pqAddresses + 50)).map fun index =>
      counts.pqAddressesTo (index + 1)
  else (firstMatch env root .pq program counts.pq).map fun _ => counts

/-- The ML-DSA key of a program. -/
def OwnsPq (env : WalletEnvironment) (root : WalletRoot) (program : Bytes) (key : MLDSAKey) :
    Prop :=
  env.prim.sha256 key.publicKey = program ∧ ∃ index, root.pqKey env index = .ok key

theorem matches_pq_iff : Matches env root .pq program index ↔
    ∃ key, root.pqKey env index = .ok key ∧ env.prim.sha256 key.publicKey = program := by
  constructor
  · intro isMatch
    obtain ⟨key, isKey, same⟩ := except_bind_eq_ok.mp isMatch
    exact ⟨key, isKey, Except.ok.inj same⟩
  · rintro ⟨key, isKey, rfl⟩
    exact except_bind_eq_ok.mpr ⟨key, isKey, rfl⟩

theorem matchPqProgram_first (length : program.length = 32) :
    Triple (HoldsFirst env root counts) (matchPqProgram env ([0x51, 0x20] ++ program))
      (Searched
        (fun key wallet => OwnsPq env root program key ∧
          (firstMatch env root .pq program counts.pq).isSome = true ∧
            HoldsFirst env root counts wallet)
        fun _ => firstMatch env root .pq program counts.pq = none)
      (fun _ => True) := by
  apply Triple.get
  intro wallet holds
  have form : ([0x51, 0x20] ++ program : Bytes).length = 34 := by simp [length]
  rw [if_pos ⟨form, rfl⟩, List.find?_map]
  change Searched _ _ (Option.map _ (wallet.pqKeys.find? fun entry =>
    env.prim.sha256 entry.2.publicKey = program)) wallet
  cases found : wallet.pqKeys.find? fun entry => env.prim.sha256 entry.2.publicKey = program with
  | none =>
      apply firstMatch_eq_none_iff.mpr
      intro index small isMatch
      obtain ⟨key, isKey, same⟩ := matches_pq_iff.mp isMatch
      exact absurd (holds.pq.find?_eq_none found small isKey) (by simp [same])
  | some entry =>
      obtain ⟨small, isKey, test, earlier⟩ := holds.pq.find?_eq_some found
      have same : env.prim.sha256 entry.2.publicKey = program := of_decide_eq_true test
      refine ⟨⟨same, entry.1, isKey⟩, ?_, holds⟩
      rw [Option.isSome_iff_ne_none, ne_eq, firstMatch_eq_none_iff]
      exact fun none => none entry.1 small (matches_pq_iff.mpr ⟨entry.2, isKey, same⟩)

theorem matchPq_first (derived : WellDerived env root) (ordered : counts.Ordered)
    {given : Option (List Char)} (names : Given .pq program given)
    (near : given.isSome = true →
      ∃ position, firstMatch env root .pq program (counts.pqAddresses + 50) = some position)
    (length : program.length = 32) :
    Triple (HoldsFirst env root counts) (matchPq env given ([0x51, 0x20] ++ program))
      (Searched
        (fun key wallet => OwnsPq env root program key ∧ ∃ after,
          afterPqLookup env root counts given.isSome program = some after ∧
            HoldsFirst env root after wallet)
        fun _ => afterPqLookup env root counts given.isSome program = none)
      (fun _ => True) := by
  rw [matchPq, names.addressWith_eq.1, if_pos rfl]
  cases given with
  | none =>
      apply Triple.otherwise (.whenSome (fun _ isGiven => by cases isGiven) fun _ _ holds => holds)
      apply (matchPqProgram_first length).weaken fun _ holds => holds
      rintro (_ | key) wallet
      · intro missed
        exact Option.map_eq_none_iff.mpr missed
      · rintro ⟨owns, found, holds⟩
        obtain ⟨position, isFirst⟩ := Option.isSome_iff_exists.mp found
        exact ⟨owns, counts, Option.map_eq_some_iff.mpr ⟨position, isFirst, rfl⟩, holds⟩
  | some address =>
      obtain ⟨position, found⟩ := near rfl
      have isMatch := (firstMatch_eq_some_iff.mp found).2.1
      have search := findPqKeyForAddress_first derived ordered (names address rfl) found
      apply Triple.otherwise (search.weaken (fun _ holds => holds) ?_) fun _ => False.elim
      rintro (_ | key) wallet
      · exact id
      · rintro ⟨isKey, holds⟩
        obtain ⟨other, isOther, same⟩ := matches_pq_iff.mp isMatch
        cases isKey.symm.trans isOther
        refine ⟨⟨same, position, isKey⟩, _, ?_, holds⟩
        exact Option.map_eq_some_iff.mpr ⟨position, found, rfl⟩

/-! ## Hybrid keys -/

/-- The numbers of entries after the lookup of hybrid keys, if it finds some. -/
def afterHybridLookup (env : WalletEnvironment) (root : WalletRoot) (counts : KeyCounts)
    (hasAddress : Bool) (program : Bytes) : Option KeyCounts :=
  if hasAddress then
    (firstMatch env root .hybrid program (counts.hybrid + 50)).map fun index =>
      counts.hybridTo (index + 1)
  else
    (firstMatch env root .hybrid program counts.receiving).map fun index =>
      counts.pqTo (index + 1)

/-- The two keys of a program. -/
def OwnsHybrid (env : WalletEnvironment) (root : WalletRoot) (program : Bytes)
    (keys : HDKey × MLDSAKey) : Prop :=
  WalletRoot.hybridProgram env keys.1 keys.2 = .ok program ∧
    ∃ index, root.receivingKey env index = .ok keys.1 ∧ root.pqKey env index = .ok keys.2

theorem matches_hybrid_iff : Matches env root .hybrid program index ↔
    ∃ secpKey pqKey, root.receivingKey env index = .ok secpKey ∧
      root.pqKey env index = .ok pqKey ∧
        WalletRoot.hybridProgram env secpKey pqKey = .ok program := by
  constructor
  · intro isMatch
    obtain ⟨secpKey, isKey, rest⟩ := except_bind_eq_ok.mp isMatch
    obtain ⟨pqKey, isPqKey, isProgram⟩ := except_bind_eq_ok.mp rest
    exact ⟨secpKey, pqKey, isKey, isPqKey, isProgram⟩
  · rintro ⟨secpKey, pqKey, isKey, isPqKey, isProgram⟩
    exact except_bind_eq_ok.mpr ⟨secpKey, isKey, except_bind_eq_ok.mpr ⟨pqKey, isPqKey, isProgram⟩⟩

/-- A hybrid program is compared with those of the cached receiving keys. -/
theorem hybridKeysWithProgram_first (old : index < counts.receiving)
    (next : index ≤ counts.pq) :
    Triple (HoldsFirst env root counts) (hybridKeysWithProgram env program index)
      (Searched
        (fun keys wallet => Matches env root .hybrid program index ∧
          OwnsHybrid env root program keys ∧
            HoldsFirst env root (counts.pqTo (index + 1)) wallet)
        fun wallet => ¬ Matches env root .hybrid program index ∧
          HoldsFirst env root (counts.pqTo (index + 1)) wallet)
      (fun _ => True) := by
  apply Triple.bind (leavesFirst_getReceivingKey (Nat.le_of_lt old))
  intro secpKey
  apply Triple.assuming
  intro isKey
  rw [counts.receivingTo_of_le old]
  apply Triple.bind (leavesFirst_getPqKey next)
  intro pqKey
  apply Triple.assuming
  intro isPqKey
  apply Triple.reading fun _ _ => True.intro
  intro wallet result holds compared
  obtain ⟨found, isFound, rfl⟩ := except_map_eq_ok.mp compared
  split_ifs with same
  · rw [same] at isFound
    exact ⟨matches_hybrid_iff.mpr ⟨secpKey, pqKey, isKey, isPqKey, isFound⟩,
      ⟨isFound, index, isKey, isPqKey⟩, holds⟩
  · refine ⟨fun isMatch => same ?_, holds⟩
    obtain ⟨otherKey, otherPqKey, isOther, isOtherPq, isProgram⟩ := matches_hybrid_iff.mp isMatch
    cases isKey.symm.trans isOther
    cases isPqKey.symm.trans isOtherPq
    exact Except.ok.inj (isFound.symm.trans isProgram)

theorem matchHybridProgram_first (length : program.length = 32) :
    Triple (HoldsFirst env root counts) (matchHybridProgram env ([0x52, 0x20] ++ program))
      (Searched
        (fun keys wallet => OwnsHybrid env root program keys ∧ ∃ after,
          afterHybridLookup env root counts false program = some after ∧
            HoldsFirst env root after wallet)
        fun _ => afterHybridLookup env root counts false program = none)
      (fun _ => True) := by
  have form : ([0x52, 0x20] ++ program : Bytes).length = 34 := by simp [length]
  have looked : Triple (HoldsFirst env root counts)
      (reading fun wallet => .ok wallet.receivingKeys.length : WalletM Nat)
      (fun known wallet => known = counts.receiving ∧ HoldsFirst env root counts wallet)
      (fun _ => True) :=
    .get fun _ holds => ⟨holds.receiving.length, holds⟩
  rw [matchHybridProgram, if_pos ⟨form, rfl⟩]
  apply looked.bind
  intro known
  apply Triple.assuming
  rintro rfl
  rw [List.range_eq_range']
  have search := @Triple.searchFirst_range PyException HDWallet (HDKey × MLDSAKey) (fun _ => True)
    (hybridKeysWithProgram env program) (Matches env root .hybrid program)
    (fun index keys wallet => OwnsHybrid env root program keys ∧
      HoldsFirst env root (counts.pqTo (index + 1)) wallet)
    (fun index => HoldsFirst env root (counts.pqTo index)) 0 counts.receiving
  rw [counts.pqTo_zero] at search
  apply (search ?_).weaken fun _ holds => holds
  · rintro (_ | keys) wallet
    · rintro ⟨none, -⟩
      apply Option.map_eq_none_iff.mpr
      apply firstMatch_eq_none_iff.mpr
      intro index small
      exact none index (Nat.zero_le _) (by omega)
    · rintro ⟨position, -, small, isMatch, earliest, owns, holds⟩
      refine ⟨owns, _, Option.map_eq_some_iff.mpr ⟨position, ?_, rfl⟩, holds⟩
      apply firstMatch_eq_some_iff.mpr
      exact ⟨by omega, isMatch, fun earlier => earliest earlier (Nat.zero_le _)⟩
  · intro index _ small
    have old : index < (counts.pqTo index).receiving := by
      rwa [Nat.zero_add] at small
    have next : index ≤ (counts.pqTo index).pq := Nat.le_max_right _ _
    rw [← counts.pqTo_succ index]
    exact hybridKeysWithProgram_first old next

theorem matchHybrid_first (derived : WellDerived env root) (ordered : counts.Ordered)
    {given : Option (List Char)} (names : Given .hybrid program given)
    (near : given.isSome = true →
      ∃ position, firstMatch env root .hybrid program (counts.hybrid + 50) = some position)
    (length : program.length = 32) :
    Triple (HoldsFirst env root counts) (matchHybrid env given ([0x52, 0x20] ++ program))
      (Searched
        (fun keys wallet => OwnsHybrid env root program keys ∧ ∃ after,
          afterHybridLookup env root counts given.isSome program = some after ∧
            HoldsFirst env root after wallet)
        fun _ => afterHybridLookup env root counts given.isSome program = none)
      (fun _ => True) := by
  rw [matchHybrid, names.addressWith_eq.2, if_pos rfl]
  cases given with
  | none =>
      apply Triple.otherwise (.whenSome (fun _ isGiven => by cases isGiven) fun _ _ holds => holds)
      exact matchHybridProgram_first length
  | some address =>
      obtain ⟨position, found⟩ := near rfl
      have isMatch := (firstMatch_eq_some_iff.mp found).2.1
      have search := findHybridKeysForAddress_first derived ordered (names address rfl) found
      apply Triple.otherwise (search.weaken (fun _ holds => holds) ?_) fun _ => False.elim
      rintro (_ | keys) wallet
      · exact id
      · rintro ⟨⟨isKey, isPqKey⟩, holds⟩
        obtain ⟨secpKey, pqKey, isOther, isOtherPq, isProgram⟩ := matches_hybrid_iff.mp isMatch
        cases isKey.symm.trans isOther
        cases isPqKey.symm.trans isOtherPq
        refine ⟨⟨isProgram, position, isKey, isPqKey⟩, _, ?_, holds⟩
        exact Option.map_eq_some_iff.mpr ⟨position, found, rfl⟩

end

end HDWallet

end QuantyCoin
