import QuantyCoin.KeyLookupGaps

/-!
# Calls in order

As long as the indices of a wallet are asked for in order, each of its dictionaries has
the entries of the first indices, and the lookups find all of them.
-/

namespace QuantyCoin

open ByteDecoder HDWallet OrderedDict PrimeCertificate Secp256k1 StateTriples

namespace CachingWallet

variable {env : WalletEnvironment} {root : WalletRoot} {wallet : CachingWallet}

/-! ## The first indices -/

/-- The entries are those of the first indices, of which there are enough. -/
structure First {β : Type} (low : Nat) (dict : Dict Int β) : Prop where
  low_le : low ≤ dict.length
  isSome_iff : ∀ index, (dict.get? index).isSome ↔ 0 ≤ index ∧ index < dict.length

namespace First

variable {β : Type} {low : Nat} {dict : Dict Int β} {index : Int} {value : β}

theorem empty : First 0 (.empty : Dict Int β) where
  low_le := Nat.le_refl 0
  isSome_iff index := by
    have none : (Dict.empty : Dict Int β).get? index = none := rfl
    have zero : (Dict.empty : Dict Int β).length = 0 := rfl
    rw [none, zero]
    simp

/-- A new index that is not beyond the entries is the next one. -/
theorem eq_length (first : First low dict) (new : dict.get? index = none) (nonneg : 0 ≤ index)
    (next : index ≤ dict.length) : index = dict.length := by
  by_contra different
  have stored := (first.isSome_iff index).mpr ⟨nonneg, by omega⟩
  rw [new] at stored
  cases stored

theorem set (first : First low dict) (new : dict.get? index = none) (nonneg : 0 ≤ index)
    (next : index ≤ dict.length) : First low (dict.set index value) where
  low_le := by
    rw [Dict.length_set new]
    exact Nat.le_succ_of_le first.low_le
  isSome_iff other := by
    have isLast := first.eq_length new nonneg next
    rw [Dict.length_set new]
    by_cases same : other = index
    · rw [same, Dict.get?_set_self new]
      simp only [Option.isSome_some, true_iff]
      omega
    · rw [Dict.get?_set_of_ne new same, first.isSome_iff]
      omega

theorem lt_length (first : First low dict) (stored : dict.get? index = some value) :
    index < dict.length :=
  ((first.isSome_iff index).mp (Option.isSome_of_eq_some stored)).2

theorem ahead (first : First low dict) (index : Nat) : Ahead dict index := by
  intro new
  by_contra beyond
  have stored := (first.isSome_iff index).mpr ⟨Int.natCast_nonneg index, by omega⟩
  rw [new] at stored
  cases stored

end First

/-- A consistent wallet whose dictionaries have the entries of the first indices. -/
structure Ordered (env : WalletEnvironment) (root : WalletRoot) (receiving pq hybrid : Nat)
    (wallet : CachingWallet) : Prop where
  consistent : wallet.Consistent env root
  receivingFirst : First receiving wallet.receivingKeys
  pqFirst : First pq wallet.pqAddresses
  hybridFirst : First hybrid wallet.hybridAddresses
  hybrid_le : wallet.hybridAddresses.length ≤ wallet.receivingKeys.length
  pqPrefix : ∀ index, Unprefixed wallet.pqAddresses index
  hybridPrefix : ∀ index, Unprefixed wallet.hybridAddresses index

variable {receiving pq hybrid : Nat}

theorem ordered_unused : (unused root).Ordered env root 0 0 0 where
  consistent := consistent_unused
  receivingFirst := .empty
  pqFirst := .empty
  hybridFirst := .empty
  hybrid_le := Nat.le_refl 0
  pqPrefix _ _ found := by cases found
  hybridPrefix _ _ found := by cases found

/-- New entries with the first prefix. -/
theorem unprefixed_set {kind : AddressKind} {addresses : Dict Int (List Char)} {index : Int}
    {address : List Char} (holds : ∀ other, Unprefixed addresses other)
    (new : addresses.get? index = none)
    (derived : root.addressAt env kind mainnetBech32Hrp index = .ok address) (other : Int) :
    Unprefixed (addresses.set index address) other := by
  intro found isFound
  obtain ⟨rfl, rfl⟩ | old := get?_set_cases new isFound
  · exact WalletRoot.addressPrefix_of_addressAt derived
  · exact holds other found old

namespace Ordered

theorem searchable (ordered : wallet.Ordered env root receiving pq hybrid) :
    wallet.Searchable where
  receiving index _ := ordered.receivingFirst.ahead index
  pq index _ := ⟨ordered.pqFirst.ahead index, ordered.pqPrefix index⟩
  hybrid index _ := ⟨ordered.hybridFirst.ahead index, ordered.hybridPrefix index⟩

theorem storeReceiving (ordered : wallet.Ordered env root receiving pq hybrid) {index : Int}
    {key : HDKey} (new : wallet.receivingKeys.get? index = none) (nonneg : 0 ≤ index)
    (next : index ≤ wallet.receivingKeys.length) (derived : root.chainKeyAt env 0 index = .ok key) :
    { wallet with receivingKeys := wallet.receivingKeys.set index key }.Ordered env root
      receiving pq hybrid where
  __ := ordered
  consistent := ordered.consistent.storeReceiving new derived
  receivingFirst := ordered.receivingFirst.set new nonneg next
  hybrid_le := by
    rw [Dict.length_set new]
    exact Nat.le_succ_of_le ordered.hybrid_le

theorem storeChange (ordered : wallet.Ordered env root receiving pq hybrid) {index : Int}
    {key : HDKey} (new : wallet.changeKeys.get? index = none)
    (derived : root.chainKeyAt env 1 index = .ok key) :
    { wallet with changeKeys := wallet.changeKeys.set index key }.Ordered env root
      receiving pq hybrid where
  __ := ordered
  consistent := ordered.consistent.storeChange new derived

theorem storePq (ordered : wallet.Ordered env root receiving pq hybrid) {index : Int}
    {key : MLDSAKey} (new : wallet.pqKeys.get? index = none)
    (derived : root.pqKeyAt env index = .ok key) :
    { wallet with pqKeys := wallet.pqKeys.set index key }.Ordered env root
      receiving pq hybrid where
  __ := ordered
  consistent := ordered.consistent.storePq new derived

theorem storePqAddress (ordered : wallet.Ordered env root receiving pq hybrid) {index : Int}
    {address : List Char} (new : wallet.pqAddresses.get? index = none) (nonneg : 0 ≤ index)
    (next : index ≤ wallet.pqAddresses.length) (keyed : (wallet.pqKeys.get? index).isSome)
    (derived : root.addressAt env .pq mainnetBech32Hrp index = .ok address) :
    { wallet with pqAddresses := wallet.pqAddresses.set index address }.Ordered env root
      receiving pq hybrid where
  __ := ordered
  consistent := ordered.consistent.storePqAddress new keyed derived
  pqFirst := ordered.pqFirst.set new nonneg next
  pqPrefix := unprefixed_set ordered.pqPrefix new derived

theorem storeHybridAddress (ordered : wallet.Ordered env root receiving pq hybrid) {index : Int}
    {address : List Char} (new : wallet.hybridAddresses.get? index = none) (nonneg : 0 ≤ index)
    (next : index ≤ wallet.hybridAddresses.length)
    (keyed : (wallet.receivingKeys.get? index).isSome) (pqKeyed : (wallet.pqKeys.get? index).isSome)
    (derived : root.addressAt env .hybrid mainnetBech32Hrp index = .ok address) :
    { wallet with hybridAddresses := wallet.hybridAddresses.set index address }.Ordered env root
      receiving pq hybrid where
  __ := ordered
  consistent := ordered.consistent.storeHybridAddress new keyed pqKeyed derived
  hybridFirst := ordered.hybridFirst.set new nonneg next
  hybrid_le := by
    -- the receiving key of the index is there already
    have isLast := ordered.hybridFirst.eq_length new nonneg next
    have stored := ((ordered.receivingFirst.isSome_iff index).mp keyed).2
    change (wallet.hybridAddresses.set index address).length ≤ wallet.receivingKeys.length
    rw [Dict.length_set new]
    omega
  hybridPrefix := unprefixed_set ordered.hybridPrefix new derived

end Ordered

/-! ## What calls in order keep -/

section Methods

variable {index : Int}

theorem ordered_getReceivingKey (nonneg : 0 ≤ index) :
    Triple
      (fun wallet => wallet.Ordered env root receiving pq hybrid ∧
        index ≤ wallet.receivingKeys.length)
      (getReceivingKey env index)
      (fun key wallet => wallet.receivingKeys.get? index = some key ∧
        wallet.Ordered env root receiving pq hybrid)
      fun wallet => wallet.Ordered env root receiving pq hybrid := by
  have asked := @getReceivingKey_triple env root index
    (fun wallet => wallet.Ordered env root receiving pq hybrid ∧
      index ≤ wallet.receivingKeys.length)
    (fun wallet holds => holds.1.consistent)
    fun wallet key holds new derived => by
      refine ⟨holds.1.storeReceiving new nonneg holds.2 derived, ?_⟩
      have isLast := holds.1.receivingFirst.eq_length new nonneg holds.2
      rw [Dict.length_set new]
      omega
  exact Triple.consequence asked (fun _ holds => holds) (fun _ _ holds => ⟨holds.1, holds.2.1⟩)
    fun _ holds => holds.2.1

theorem ordered_getPqAddress (nonneg : 0 ≤ index) :
    Triple
      (fun wallet => wallet.Ordered env root receiving pq hybrid ∧
        index ≤ wallet.pqAddresses.length)
      (getPqAddress env index mainnetBech32Hrp)
      (fun address wallet => wallet.pqAddresses.get? index = some address ∧
        wallet.Ordered env root receiving pq hybrid)
      fun wallet => wallet.Ordered env root receiving pq hybrid := by
  have asked := @getPqAddress_triple env root index mainnetBech32Hrp
    (fun wallet => wallet.Ordered env root receiving pq hybrid ∧
      index ≤ wallet.pqAddresses.length)
    (fun wallet holds => holds.1.consistent)
    (fun wallet key holds new derived => ⟨holds.1.storePq new derived, holds.2⟩)
    fun wallet address holds new keyed derived => by
      refine ⟨holds.1.storePqAddress new nonneg holds.2 keyed derived, ?_⟩
      have isLast := holds.1.pqFirst.eq_length new nonneg holds.2
      rw [Dict.length_set new]
      omega
  exact Triple.consequence asked (fun _ holds => holds) (fun _ _ holds => ⟨holds.1, holds.2.1⟩)
    fun _ holds => holds.2.1

theorem ordered_getHybridAddress (nonneg : 0 ≤ index) :
    Triple
      (fun wallet => wallet.Ordered env root receiving pq hybrid ∧
        index ≤ wallet.hybridAddresses.length)
      (getHybridAddress env index mainnetBech32Hrp)
      (fun address wallet => wallet.hybridAddresses.get? index = some address ∧
        wallet.Ordered env root receiving pq hybrid)
      fun wallet => wallet.Ordered env root receiving pq hybrid := by
  have asked := @getHybridAddress_triple env root index mainnetBech32Hrp
    (fun wallet => wallet.Ordered env root receiving pq hybrid ∧
      index ≤ wallet.hybridAddresses.length)
    (fun wallet holds => holds.1.consistent)
    (fun wallet key holds new derived => by
      refine ⟨holds.1.storeReceiving new nonneg ?_ derived, holds.2⟩
      have below := holds.1.hybrid_le
      have next := holds.2
      omega)
    (fun wallet key holds new derived => ⟨holds.1.storePq new derived, holds.2⟩)
    fun wallet address holds new keyed pqKeyed derived => by
      refine ⟨holds.1.storeHybridAddress new nonneg holds.2 keyed pqKeyed derived, ?_⟩
      have isLast := holds.1.hybridFirst.eq_length new nonneg holds.2
      rw [Dict.length_set new]
      omega
  exact Triple.consequence asked (fun _ holds => holds) (fun _ _ holds => ⟨holds.1, holds.2.1⟩)
    fun _ holds => holds.2.1

theorem ordered_getChangeKey : Keeps (Ordered env root receiving pq hybrid)
    (getChangeKey env index) :=
  keeps_of_triple <| cachedKey_triple (fun _ _ => rfl) (fun _ holds => holds.consistent.root_eq)
    fun _ _ holds => holds.storeChange

theorem ordered_getPqKey : Keeps (Ordered env root receiving pq hybrid) (getPqKey env index) :=
  keeps_of_triple <| getPqKey_triple (fun _ holds => holds.consistent) fun _ _ holds =>
    holds.storePq

end Methods

/-! ### The constructor -/

namespace Ordered

theorem receivingUpTo (ordered : wallet.Ordered env root receiving pq hybrid) {low : Nat}
    {key : HDKey} (stored : wallet.receivingKeys.get? low = some key) :
    wallet.Ordered env root (low + 1) pq hybrid where
  __ := ordered
  receivingFirst :=
    { ordered.receivingFirst with
      low_le := by
        have inside := ordered.receivingFirst.lt_length stored
        omega }

theorem pqUpTo (ordered : wallet.Ordered env root receiving pq hybrid) {low : Nat}
    {address : List Char} (stored : wallet.pqAddresses.get? low = some address) :
    wallet.Ordered env root receiving (low + 1) hybrid where
  __ := ordered
  pqFirst :=
    { ordered.pqFirst with
      low_le := by
        have inside := ordered.pqFirst.lt_length stored
        omega }

theorem hybridUpTo (ordered : wallet.Ordered env root receiving pq hybrid) {low : Nat}
    {address : List Char} (stored : wallet.hybridAddresses.get? low = some address) :
    wallet.Ordered env root receiving pq (low + 1) where
  __ := ordered
  hybridFirst :=
    { ordered.hybridFirst with
      low_le := by
        have inside := ordered.hybridFirst.lt_length stored
        omega }

theorem zero (ordered : wallet.Ordered env root receiving pq hybrid) :
    wallet.Ordered env root 0 0 0 where
  __ := ordered
  receivingFirst := { ordered.receivingFirst with low_le := Nat.zero_le _ }
  pqFirst := { ordered.pqFirst with low_le := Nat.zero_le _ }
  hybridFirst := { ordered.hybridFirst with low_le := Nat.zero_le _ }

end Ordered

/-- The constructor asks for the indices in order. -/
theorem ordered_deriveFirst (low count : Nat) :
    Triple (Ordered env root low low low)
      (deriveFirst env ((List.range' low count).map fun index : Nat => (index : Int)))
      (fun _ => Ordered env root 0 0 0) (Ordered env root 0 0 0) := by
  induction count generalizing low with
  | zero => exact .pure fun _ holds => holds.zero
  | succ count ih =>
      have receivingAsked : Triple (Ordered env root low low low)
          (getReceivingAddress env low) (fun _ => Ordered env root (low + 1) low low)
          (Ordered env root 0 0 0) := by
        refine Triple.bind (Triple.consequence
          (@ordered_getReceivingKey env root low low low low (Int.natCast_nonneg low)) ?_
          (fun _ _ holds => holds) fun _ holds => holds.zero) fun key => ?_
        · exact fun wallet holds => ⟨holds, Int.ofNat_le.mpr holds.receivingFirst.low_le⟩
        · refine Triple.computing ?_ fun _ _ holds _ => holds.2.zero
          exact fun wallet _ holds _ => holds.2.receivingUpTo holds.1
      have pqAsked : Triple (Ordered env root (low + 1) low low)
          (getPqAddress env low mainnetBech32Hrp)
          (fun _ => Ordered env root (low + 1) (low + 1) low) (Ordered env root 0 0 0) := by
        refine Triple.consequence
          (@ordered_getPqAddress env root (low + 1) low low low (Int.natCast_nonneg low)) ?_
          (fun _ _ holds => holds.2.pqUpTo holds.1) fun _ holds => holds.zero
        exact fun wallet holds => ⟨holds, Int.ofNat_le.mpr holds.pqFirst.low_le⟩
      have hybridAsked : Triple (Ordered env root (low + 1) (low + 1) low)
          (getHybridAddress env low mainnetBech32Hrp)
          (fun _ => Ordered env root (low + 1) (low + 1) (low + 1)) (Ordered env root 0 0 0) := by
        refine Triple.consequence
          (@ordered_getHybridAddress env root (low + 1) (low + 1) low low
            (Int.natCast_nonneg low)) ?_
          (fun _ _ holds => holds.2.hybridUpTo holds.1) fun _ holds => holds.zero
        exact fun wallet holds => ⟨holds, Int.ofNat_le.mpr holds.hybridFirst.low_le⟩
      rw [List.range'_succ, List.map_cons, deriveFirst]
      exact receivingAsked.bind fun _ => pqAsked.bind fun _ => hybridAsked.bind fun _ =>
        ih (low + 1)

theorem ordered_new {mnemonic passphrase : String} {accountIndex : Int} {start : CachingWallet}
    (created : new env mnemonic passphrase accountIndex = .ok start) :
    start.Ordered env start.root 0 0 0 := by
  obtain ⟨-, derived, -⟩ := exists_of_new created
  exact (ordered_deriveFirst 0 5).of_ok ordered_unused derived

/-! ### Lookups -/

/-- Behind the entries, a lookup asks in order. -/
theorem keeps_askInOrder {β γ : Type} {invariant : CachingWallet → Prop}
    {dict : CachingWallet → Dict Int β} {ask : Int → CachingM β}
    {test : Int → β → Except PyException Bool} {fetch : Int → β → CachingM γ}
    (first : ∀ wallet, invariant wallet → First 0 (dict wallet))
    (asks : ∀ index : Nat,
      Triple (fun wallet => invariant wallet ∧ (index : Int) ≤ (dict wallet).length) (ask index)
        (fun value wallet => (dict wallet).get? index = some value ∧ invariant wallet) invariant)
    (fetches : ∀ index value,
      Triple (fun wallet => invariant wallet ∧ (dict wallet).get? index = some value)
        (fetch index value) (fun _ => invariant) invariant) :
    Keeps invariant (lookAhead dict nextFifty ask test fetch) := by
  have counted : Triple invariant
      (reading fun wallet => .ok (dict wallet).length : CachingM Nat)
      (fun count wallet => invariant wallet ∧ count ≤ (dict wallet).length) invariant :=
    .get fun _ holds => ⟨holds, Nat.le_refl _⟩
  refine counted.bind fun count => ?_
  -- the entries keep up with the indices
  let reached (visited : Nat) (wallet : CachingWallet) : Prop :=
    invariant wallet ∧ count + visited ≤ (dict wallet).length
  refine (@Triple.searchFirst _ _ _ _ invariant (fun key => do visit test fetch (key, ← ask key))
    (fun _ => invariant) (nextFifty count) reached ?_).weaken (fun _ holds => holds)
    fun result _ outcome => ?_
  · intro visited index listed
    rw [nextFifty, List.getElem?_map, Option.map_eq_some_iff] at listed
    obtain ⟨position, found, rfl⟩ := listed
    obtain ⟨inside, rfl⟩ := List.getElem?_eq_some_iff.mp found
    rw [List.getElem_range', Nat.one_mul]
    refine ((asks (count + visited)).weaken ?_ fun _ _ holds => holds).bind fun value => ?_
    · exact fun wallet holds => ⟨holds.1, Int.ofNat_le.mpr holds.2⟩
    · refine (visit_triple (fun _ holds => holds.1) (fetches _ value)).weaken
        (fun _ holds => holds.symm) fun result wallet outcome => ?_
      cases result with
      | some result => exact outcome
      | none =>
          obtain ⟨holds, stored⟩ := outcome
          have inside := (first wallet holds).lt_length stored
          exact ⟨holds, by omega⟩
  · cases result with
    | none => exact outcome.1
    | some result => exact outcome

theorem ordered_findKeyForAddress (address : List Char) :
    Keeps (Ordered env root 0 0 0) (findKeyForAddress env address) :=
  (keeps_scan fun _ _ => .pure _).otherwise <| (keeps_scan fun _ _ => .pure _).otherwise <|
    keeps_askInOrder (fun _ holds => holds.receivingFirst)
      (fun index => ordered_getReceivingKey (Int.natCast_nonneg index))
      fun _ _ => .pure fun _ holds => holds.1

theorem ordered_findPqKeyForAddress (address : List Char) :
    Keeps (Ordered env root 0 0 0) (findPqKeyForAddress env address) := by
  have fetches (index : Int) (found : List Char) :
      Keeps (Ordered env root 0 0 0) (indexedPqKey index found) :=
    (Keeps.reading _).bind fun _ => .pure _
  exact (keeps_scan fetches).otherwise <| keeps_askInOrder (fun _ holds => holds.pqFirst)
    (fun index => ordered_getPqAddress (Int.natCast_nonneg index))
    fun index found => Triple.weaken (fetches index found) (fun _ holds => holds.1)
      fun _ _ holds => holds

theorem ordered_findHybridKeysForAddress (address : List Char) :
    Keeps (Ordered env root 0 0 0) (findHybridKeysForAddress env address) := by
  have fetches (index : Int) (found : List Char) :
      Triple
        (fun wallet => wallet.Ordered env root 0 0 0 ∧
          wallet.hybridAddresses.get? index = some found)
        (indexedHybridKeys env index found) (fun _ => Ordered env root 0 0 0)
        (Ordered env root 0 0 0) := by
    by_cases nonneg : 0 ≤ index
    · refine ((ordered_getReceivingKey nonneg).weaken ?_ fun _ _ holds => holds.2).bind
        fun secpKey => (Keeps.reading _).bind fun _ => .pure _
      rintro wallet ⟨ordered, stored⟩
      have inside := ordered.hybridFirst.lt_length stored
      have below := ordered.hybrid_le
      exact ⟨ordered, by omega⟩
    · rintro wallet ⟨ordered, stored⟩
      have inside := (ordered.hybridFirst.isSome_iff index).mp (Option.isSome_of_eq_some stored)
      exact absurd inside.1 nonneg
  exact (keeps_scan_entries fetches).otherwise <|
    keeps_askInOrder (fun _ holds => holds.hybridFirst)
      (fun index => ordered_getHybridAddress (Int.natCast_nonneg index)) fetches

/-! ## Runs -/

/-- An index is cached or comes next. -/
def InOrder {β : Type} (dict : Dict Int β) (index : Int) : Prop :=
  (dict.get? index).isSome ∨ index = dict.length

/-- A call that skips no index and asks for the first prefix. -/
def Steady (wallet : CachingWallet) : Call → Prop
  | .getReceivingKey index => InOrder wallet.receivingKeys index
  | .getPqAddress index hrp => InOrder wallet.pqAddresses index ∧ hrp = mainnetBech32Hrp
  | .getHybridAddress index hrp => InOrder wallet.hybridAddresses index ∧ hrp = mainnetBech32Hrp
  | .getChangeKey _ | .getPqKey _ | .findKeyForAddress _ | .findPqKeyForAddress _
  | .findHybridKeysForAddress _ => True

/-- A run of such calls. -/
def SteadyRun (env : WalletEnvironment) : CachingWallet → List Call → Prop
  | _, [] => True
  | wallet, call :: calls => Steady wallet call ∧ SteadyRun env (wallet.afterCall env call) calls

theorem First.of_inOrder {β : Type} {low : Nat} {dict : Dict Int β} {index : Int}
    (first : First low dict) (inOrder : InOrder dict index) : 0 ≤ index ∧ index ≤ dict.length := by
  rcases inOrder with stored | rfl
  · have inside := (first.isSome_iff index).mp stored
    omega
  · omega

/-- The state after a method that leaves the assertion, however it ends. -/
theorem final_of_triple {α : Type} {method : CachingM α} {pre raised : CachingWallet → Prop}
    {post : α → CachingWallet → Prop}
    (triple : Triple pre method (fun value wallet => post value wallet ∧ raised wallet) raised)
    (start : pre wallet) : raised (finalState (method wallet)) := by
  have result := triple wallet start
  cases outcome : method wallet with
  | ok value after =>
      rw [outcome] at result
      exact result.2
  | error error after =>
      rw [outcome] at result
      exact result

namespace Ordered

theorem afterCall (ordered : wallet.Ordered env root 0 0 0) {call : Call}
    (steady : Steady wallet call) : (wallet.afterCall env call).Ordered env root 0 0 0 := by
  cases call with
  | getReceivingKey index =>
      obtain ⟨nonneg, next⟩ := ordered.receivingFirst.of_inOrder steady
      exact final_of_triple (ordered_getReceivingKey nonneg) ⟨ordered, next⟩
  | getChangeKey index => exact ordered_getChangeKey.final ordered
  | getPqKey index => exact ordered_getPqKey.final ordered
  | getPqAddress index hrp =>
      obtain ⟨inOrder, rfl⟩ := steady
      obtain ⟨nonneg, next⟩ := ordered.pqFirst.of_inOrder inOrder
      exact final_of_triple (ordered_getPqAddress nonneg) ⟨ordered, next⟩
  | getHybridAddress index hrp =>
      obtain ⟨inOrder, rfl⟩ := steady
      obtain ⟨nonneg, next⟩ := ordered.hybridFirst.of_inOrder inOrder
      exact final_of_triple (ordered_getHybridAddress nonneg) ⟨ordered, next⟩
  | findKeyForAddress address => exact (ordered_findKeyForAddress address).final ordered
  | findPqKeyForAddress address => exact (ordered_findPqKeyForAddress address).final ordered
  | findHybridKeysForAddress address =>
      exact (ordered_findHybridKeysForAddress address).final ordered

theorem afterCalls (ordered : wallet.Ordered env root 0 0 0) {calls : List Call}
    (steady : SteadyRun env wallet calls) :
    (wallet.afterCalls env calls).Ordered env root 0 0 0 := by
  induction calls generalizing wallet with
  | nil => exact ordered
  | cons call calls ih => exact ih (ordered.afterCall steady.1) steady.2

end Ordered

/-- The lookups of a consistent wallet find the keys of the first fifty addresses if, and
only if, these are within reach. -/
theorem findsAll_iff (injective : InjectiveDerivation env root)
    (isPrivate : root.accountNode.isPrivate = true) (consistent : wallet.Consistent env root) :
    wallet.FindsAll env ↔ wallet.Searchable := by
  obtain rfl := consistent.root_eq
  constructor
  · intro finds
    refine ⟨fun index small => ?_, fun index small => ?_, fun index small => ?_⟩
    · obtain ⟨address, isAddress⟩ := injective.derives .receiving (by decide) index small
      obtain ⟨program, isProgram, -⟩ := except_bind_eq_ok.mp isAddress
      obtain ⟨key, isKey, -⟩ := except_bind_eq_ok.mp isProgram
      exact (findKeyForAddress_iff injective small consistent isPrivate isAddress isKey).mp
        (finds.receiving index small address key isAddress isKey)
    · obtain ⟨address, isAddress⟩ := injective.derives .pq (by decide) index small
      obtain ⟨program, isProgram, -⟩ := except_bind_eq_ok.mp isAddress
      obtain ⟨key, isKey, -⟩ := except_bind_eq_ok.mp isProgram
      exact (findPqKeyForAddress_iff injective small consistent isAddress isKey).mp
        (finds.pq index small address key isAddress isKey)
    · obtain ⟨address, isAddress⟩ := injective.derives .hybrid (by decide) index small
      obtain ⟨program, isProgram, -⟩ := except_bind_eq_ok.mp isAddress
      obtain ⟨secpKey, isSecpKey, rest⟩ := except_bind_eq_ok.mp isProgram
      obtain ⟨pqKey, isPqKey, -⟩ := except_bind_eq_ok.mp rest
      exact (findHybridKeysForAddress_iff injective small consistent isAddress isSecpKey
        isPqKey).mp (finds.hybrid index small address secpKey pqKey isAddress isSecpKey isPqKey)
  · intro searchable
    refine ⟨fun index small address key isAddress isKey => ?_,
      fun index small address key isAddress isKey => ?_,
      fun index small address secpKey pqKey isAddress isSecpKey isPqKey => ?_⟩
    · exact (findKeyForAddress_iff injective small consistent isPrivate isAddress isKey).mpr
        (searchable.receiving index small)
    · exact (findPqKeyForAddress_iff injective small consistent isAddress isKey).mpr
        (searchable.pq index small)
    · exact (findHybridKeysForAddress_iff injective small consistent isAddress isSecpKey
        isPqKey).mpr (searchable.hybrid index small)

/-- After any calls, the lookups find the keys of the first fifty addresses if, and only if,
no index is skipped or hidden.  Calls in order neither skip nor hide one. -/
theorem lookups_complete_iff (env : WalletEnvironment) {mnemonic passphrase : String}
    {accountIndex : Int} {start : CachingWallet}
    (created : new env mnemonic passphrase accountIndex = .ok start)
    (injective : InjectiveDerivation env start.root) (calls : List Call) :
    ((start.afterCalls env calls).FindsAll env ↔ (start.afterCalls env calls).Searchable) ∧
      (SteadyRun env start calls → (start.afterCalls env calls).FindsAll env) := by
  obtain ⟨isRoot, -, consistent⟩ := exists_of_new created
  have isPrivate := HDWallet.isPrivate_new isRoot
  have iff := findsAll_iff injective isPrivate (consistent.afterCalls calls)
  refine ⟨iff, fun steady => iff.mpr ?_⟩
  exact ((ordered_new created).afterCalls steady).searchable

/-! ## A skipped index -/

/-- A scalar that is small for the first indices of the receiving chain.  The later indices
of this chain and those of the change chain lead to the scalar zero. -/
def limitedScalar (chainCode index : Nat) : Nat :=
  if chainCode = 0 ∧ index < 56 then index + 1
  else if chainCode ≤ 1 then N - 1
  else if chainCode < 2 ^ 32 then 0
  else 1

/-- The chain code of a node is its index. -/
def limitedHmac (chainCode message : Bytes) : Bytes :=
  let index := beValue (message.drop (message.length - 4))
  toBytesBig 32 (limitedScalar (beValue chainCode) index) ++ toBytesBig 32 index

def limitedSeed : Bytes := List.replicate 64 2

def limitedRoot : WalletRoot where
  seed := limitedSeed
  accountIndex := 0
  accountNode :=
    ⟨toBytesBig 32 1, toBytesBig 32 0x80000000, 3, 0x80000000, [206, 135, 11, 7], true⟩

/-- What the wallet hashes to the seed of an ML-DSA key. -/
def pqSeedInput (index : Int) : Bytes :=
  limitedRoot.seed ++
    ("m/44'/999'/" ++ toString limitedRoot.accountIndex ++ "'/pq/" ++ toString index).toUTF8.toList

def pqSeedInputs : List Bytes := (List.range 56).map fun index : Nat => pqSeedInput index

/-- A hash that tells the first seeds apart.  It leaves out an EC key and keeps an ML-DSA key. -/
def limitedSha256 (data : Bytes) : Bytes :=
  if data.length = 32 then data
  else if data.length = 65 then data.drop 33
  else toBytesBig 32 (pqSeedInputs.idxOf data)

def limitedEnvironment : WalletEnvironment :=
  { sampleEnvironment with
    prim :=
      { signerPrimitives with
        hash160 := List.drop 13
        sha256 := limitedSha256 }
    hmacSha512 := limitedHmac
    pbkdf2Hmac := fun _ _ _ length => List.replicate length 2
    mldsaFromSeed := fun seed => .ok ⟨seed, seed⟩ }

def limitedMnemonic : String := entropyToMnemonic limitedSha256 (List.replicate 16 0)

theorem limitedSha256_length (data : Bytes) : (limitedSha256 data).length = 32 := by
  unfold limitedSha256
  split_ifs with first second
  · exact first
  · rw [List.length_drop, second]
  · exact toBytesBig_length 32 _

theorem limitedRoot_derived :
    WalletRoot.new limitedEnvironment limitedMnemonic "" 0 = .ok limitedRoot := by
  have valid : validateMnemonic limitedSha256 limitedMnemonic = true :=
    (validateMnemonic_iff_encoded limitedSha256_length limitedMnemonic).1.mpr
      ⟨List.replicate 16 0, by decide, rfl⟩
  have seed : mnemonicToSeed limitedSha256 limitedEnvironment.pbkdf2Hmac limitedMnemonic "" =
      .ok limitedRoot.seed := by
    rw [mnemonicToSeed, valid]
    rfl
  have path : ([44, 999, 0].foldlM (fun node index =>
      node.deriveChild limitedHmac limitedEnvironment.prim.hash160 (index + 0x80000000))
      (HDKey.fromSeed limitedHmac limitedSeed)) = .ok limitedRoot.accountNode := by
    decide +kernel
  change (if !validateMnemonic limitedSha256 limitedMnemonic then _ else _) = _
  rw [valid]
  simp only [Bool.not_true, Bool.false_eq_true, if_false]
  exact except_bind_eq_ok.mpr ⟨_, seed, except_bind_eq_ok.mpr ⟨_, path, rfl⟩⟩

/-! ### Its derivation is injective -/

theorem byteArray_toList_loop (bytes : ByteArray) (position : Nat) (collected : List UInt8) :
    ByteArray.toList.loop bytes position collected =
      collected.reverse ++ bytes.data.toList.drop position := by
  induction position, collected using ByteArray.toList.loop.induct bytes with
  | case1 position collected inside ih =>
      have lt : position < bytes.data.toList.length := inside
      have byte : bytes.get! position = bytes.data.toList[position] :=
        getElem!_pos bytes.data position inside
      rw [ByteArray.toList.loop, if_pos inside, ih, List.reverse_cons, List.append_assoc,
        List.drop_eq_getElem_cons lt, byte]
      rfl
  | case2 position collected outside =>
      rw [ByteArray.toList.loop, if_neg outside, List.drop_eq_nil_of_le, List.append_nil]
      exact Nat.not_lt.mp outside

theorem toUTF8_toList_injective {first second : String}
    (same : first.toUTF8.toList = second.toUTF8.toList) : first = second := by
  rw [ByteArray.toList, ByteArray.toList, byteArray_toList_loop, byteArray_toList_loop] at same
  simp only [List.reverse_nil, List.nil_append, List.drop_zero] at same
  exact String.toByteArray_inj.mp (ByteArray.ext (Array.toList_inj.mp same))

/-- The number with some digits. -/
def digitsNumber (digits : List Char) : Nat :=
  digits.foldl (fun number digit => 10 * number + (digit.toNat - 48)) 0

theorem toDigits_injective {first second : Nat} (small : second < 100)
    (same : Nat.toDigits 10 first = Nat.toDigits 10 second) : first = second := by
  have restored : ∀ number < 100, digitsNumber (Nat.toDigits 10 number) = number := by
    decide
  have short : (Nat.toDigits 10 second).length ≤ 2 :=
    (Nat.length_toDigits_le_iff (by decide) (by decide)).mpr small
  rw [← same, Nat.length_toDigits_le_iff (by decide) (by decide)] at short
  rw [← restored first short, same, restored second small]

/-- A text of a number below one hundred belongs to that number alone. -/
theorem toString_injective {other : Int} {index : Nat} (small : index < 100)
    (same : toString other = toString (index : Int)) : other = index := by
  have texts : other.repr.toList = (Nat.repr index).toList := congrArg String.toList same
  rw [Nat.toList_repr] at texts
  cases other with
  | ofNat number =>
      have digits : (Nat.repr number).toList = Nat.toDigits 10 index := texts
      rw [Nat.toList_repr] at digits
      rw [toDigits_injective small digits]
      rfl
  | negSucc number =>
      have signed : ("-" ++ Nat.repr (number + 1)).toList = Nat.toDigits 10 index := texts
      have sign : '-' ∈ Nat.toDigits 10 index := by
        rw [← signed, String.toList_append]
        exact List.mem_append_left _ (by decide)
      exact absurd (Nat.isDigit_of_mem_toDigits (by decide) (by decide) sign) (by decide)

theorem pqSeedInput_injective {index : Nat} (small : index < 100) {other : Int}
    (same : pqSeedInput other = pqSeedInput index) : other = index := by
  have paths := toUTF8_toList_injective (List.append_cancel_left same)
  have texts := congrArg String.toList paths
  rw [@String.toList_append _ (toString other), @String.toList_append _ (toString (index : Int))]
    at texts
  exact toString_injective small (String.toList_inj.mp (List.append_cancel_left texts))

theorem pqSeedInput_length (index : Int) : 66 ≤ (pqSeedInput index).length := by
  have bytes (text : String) : text.toUTF8.toList.length = text.utf8ByteSize := by
    rw [ByteArray.toList, byteArray_toList_loop]
    rfl
  have start :
      ("m/44'/999'/" ++ toString limitedRoot.accountIndex ++ "'/pq/").utf8ByteSize = 17 := by
    decide
  have seed : limitedRoot.seed.length = 64 := List.length_replicate
  rw [pqSeedInput, List.length_append, bytes, String.utf8ByteSize_append, start, seed]
  omega

/-- The program of an ML-DSA address. -/
def pqSeed (index : Int) : Bytes := limitedSha256 (pqSeedInput index)

theorem pqSeed_injective {index : Nat} (small : index < 56) {other : Int}
    (same : pqSeed other = pqSeed index) : other = index := by
  have count : pqSeedInputs.length = 56 := by
    rw [pqSeedInputs, List.length_map, List.length_range]
  have position (index : Int) :
      beValue (pqSeed index) = pqSeedInputs.idxOf (pqSeedInput index) := by
    have long := pqSeedInput_length index
    have inside : pqSeedInputs.idxOf (pqSeedInput index) ≤ pqSeedInputs.length :=
      List.idxOf_le_length
    rw [pqSeed, limitedSha256, if_neg (by omega), if_neg (by omega), beValue_toBytesBig]
    rw [count] at inside
    exact Nat.lt_of_le_of_lt inside (by decide)
  have member : pqSeedInput index ∈ pqSeedInputs :=
    List.mem_map.mpr ⟨index, List.mem_range.mpr small, rfl⟩
  have inside := List.idxOf_lt_length_of_mem member
  have positions : pqSeedInputs.idxOf (pqSeedInput other) =
      pqSeedInputs.idxOf (pqSeedInput index) := by
    rw [← position, ← position, same]
  exact pqSeedInput_injective (by omega) ((List.idxOf_inj member).mp positions.symm).symm

/-- The node of a chain. -/
def limitedNode (chain : Nat) : HDKey :=
  ⟨toBytesBig 32 1, toBytesBig 32 chain, 4, chain, [206, 135, 11, 7], true⟩

theorem limited_child {chain : Nat} (small : chain ≤ 1) {other : Int} {key : HDKey}
    (isChild : (limitedNode chain).deriveChild limitedHmac limitedEnvironment.prim.hash160 other =
      .ok key) :
    ∃ index : Nat, other = index ∧ (limitedScalar chain index + 1) % N ≠ 0 ∧
      key.key = toBytesBig 32 ((limitedScalar chain index + 1) % N) ∧ key.isPrivate = true := by
  obtain ⟨start, suffix, digest, fingerprint, written, isDigest, nonzero, rfl⟩ :=
    HDKey.exists_of_deriveChild rfl isChild
  unfold indexBytes at written
  split_ifs at written with negative large
  cases written
  have code : beValue (limitedNode chain).chainCode = chain :=
    beValue_toBytesBig (Nat.lt_of_le_of_lt small (by decide))
  have one : beValue (limitedNode chain).key = 1 := beValue_toBytesBig (by decide)
  have index : beValue (toBytesBig 4 other.toNat) = other.toNat := beValue_toBytesBig (by omega)
  have fits : limitedScalar chain other.toNat < 256 ^ 32 := by
    unfold limitedScalar
    split_ifs with first
    · omega
    · decide
  have scalar : beValue (digest.take 32) = limitedScalar chain other.toNat := by
    rw [isDigest, limitedHmac, List.length_append, toBytesBig_length, Nat.add_sub_cancel,
      List.drop_left, List.take_append_of_le_length (by rw [toBytesBig_length]), code, index,
      List.take_of_length_le (by rw [toBytesBig_length]), beValue_toBytesBig fits]
  rw [scalar, one] at nonzero ⊢
  exact ⟨other.toNat, by omega, nonzero, rfl, rfl⟩

theorem limitedNode_derived {chain : Nat} (small : chain ≤ 1) :
    limitedRoot.accountNode.deriveChild limitedHmac limitedEnvironment.prim.hash160 chain =
      .ok (limitedNode chain) := by
  interval_cases chain <;> decide +kernel

/-- The keys of the receiving chain. -/
theorem limited_receivingKey {other : Int} {key : HDKey}
    (isKey : limitedRoot.chainKeyAt limitedEnvironment 0 other = .ok key) :
    ∃ index : Nat, other = index ∧ index < 56 ∧ key.key = toBytesBig 32 (index + 2) ∧
      key.isPrivate = true := by
  obtain ⟨node, isNode, isChild⟩ := except_bind_eq_ok.mp isKey
  obtain rfl := Except.ok.inj ((limitedNode_derived (Nat.zero_le 1)).symm.trans isNode)
  obtain ⟨index, rfl, nonzero, isScalar, isPrivate⟩ := limited_child (Nat.zero_le 1) isChild
  refine ⟨index, rfl, ?_⟩
  by_cases small : index < 56
  · have scalar : limitedScalar 0 index = index + 1 := by rw [limitedScalar, if_pos ⟨rfl, small⟩]
    have below : index + 1 + 1 < N := Nat.lt_of_lt_of_le (by omega) (show 58 ≤ N by decide)
    rw [scalar, Nat.mod_eq_of_lt below] at isScalar
    exact ⟨small, isScalar, isPrivate⟩
  · have scalar : limitedScalar 0 index = N - 1 := by
      rw [limitedScalar, if_neg (fun both => small both.2), if_pos (Nat.zero_le 1)]
    rw [scalar] at nonzero
    exact absurd (by decide) nonzero

/-- The change chain has no keys. -/
theorem limited_changeKey (other : Int) (key : HDKey) :
    limitedRoot.chainKeyAt limitedEnvironment 1 other ≠ .ok key := by
  intro isKey
  obtain ⟨node, isNode, isChild⟩ := except_bind_eq_ok.mp isKey
  obtain rfl := Except.ok.inj ((limitedNode_derived (Nat.le_refl 1)).symm.trans isNode)
  obtain ⟨index, -, nonzero, -⟩ := limited_child (Nat.le_refl 1) isChild
  have scalar : limitedScalar 1 index = N - 1 := by
    rw [limitedScalar, if_neg (fun both => Nat.one_ne_zero both.1), if_pos (Nat.le_refl 1)]
  rw [scalar] at nonzero
  exact absurd (by decide) nonzero

/-- The program of a receiving address. -/
def limitedProgram (index : Nat) : Except PyException Bytes :=
  (privkeyToPubkey (toBytesBig 32 (index + 2)) true).map limitedEnvironment.prim.hash160

theorem limitedPrograms_nodup : ((List.range 56).map limitedProgram).Nodup := by
  decide +kernel

theorem limited_receivingProgram {other : Int} {program : Bytes}
    (isProgram : limitedRoot.programAt limitedEnvironment .receiving other = .ok program) :
    ∃ index : Nat, other = index ∧ index < 56 ∧ limitedProgram index = .ok program := by
  obtain ⟨key, isKey, hashed⟩ := except_bind_eq_ok.mp isProgram
  obtain ⟨index, rfl, small, isScalar, isPrivate⟩ := limited_receivingKey isKey
  refine ⟨index, rfl, small, ?_⟩
  rw [WalletRoot.keyProgram, HDKey.getPublicKey, if_pos isPrivate, isScalar] at hashed
  exact hashed

theorem limited_pqKey (other : Int) :
    limitedRoot.pqKeyAt limitedEnvironment other = .ok ⟨pqSeed other, pqSeed other⟩ :=
  rfl

theorem limited_pqProgram (other : Int) :
    limitedRoot.programAt limitedEnvironment .pq other = .ok (pqSeed other) := by
  have length : (pqSeed other).length = 32 := limitedSha256_length _
  have hashed : limitedSha256 (pqSeed other) = pqSeed other := by
    rw [limitedSha256, if_pos length]
  have program (key : MLDSAKey) (isKey : limitedRoot.pqKeyAt limitedEnvironment other = .ok key) :
      limitedRoot.programAt limitedEnvironment .pq other = .ok (limitedSha256 key.publicKey) := by
    rw [WalletRoot.programAt, isKey]
    rfl
  rw [program _ (limited_pqKey other), hashed]

theorem length_privkeyToPubkey {privkey pubkey : Bytes}
    (derived : privkeyToPubkey privkey true = .ok pubkey) : pubkey.length = 33 := by
  unfold privkeyToPubkey at derived
  dsimp only at derived
  split_ifs at derived with short outside compressed
  · cases multiple : pointMul (beValue privkey) G with
    | none =>
        rw [multiple] at derived
        cases derived
    | some point =>
        rw [multiple] at derived
        cases derived
        rw [List.length_cons, toBytesBig_length]
  · exact absurd rfl compressed

theorem limited_hybridProgram {other : Int} {program : Bytes}
    (isProgram : limitedRoot.programAt limitedEnvironment .hybrid other = .ok program) :
    program = pqSeed other := by
  obtain ⟨key, isKey, rest⟩ := except_bind_eq_ok.mp isProgram
  obtain ⟨pqKey, isPqKey, hashed⟩ := except_bind_eq_ok.mp rest
  obtain ⟨pubkey, isPubkey, rfl⟩ := except_map_eq_ok.mp hashed
  obtain ⟨-, -, -, -, isPrivate⟩ := limited_receivingKey isKey
  rw [HDKey.getPublicKey, if_pos isPrivate] at isPubkey
  rw [limited_pqKey] at isPqKey
  rw [← Except.ok.inj isPqKey]
  have long := length_privkeyToPubkey isPubkey
  have seed : (pqSeed other).length = 32 := limitedSha256_length _
  change limitedSha256 (pubkey ++ pqSeed other) = _
  rw [limitedSha256, List.length_append, long, seed, if_neg (by decide), if_pos rfl, ← long,
    List.drop_left]

/-- Both programs of an address are the same. -/
theorem limited_sameProgram {kind : AddressKind} {index other : Int} {address : List Char}
    (isAddress : limitedRoot.addressAt limitedEnvironment kind mainnetBech32Hrp index = .ok address)
    (isOther : limitedRoot.addressAt limitedEnvironment kind mainnetBech32Hrp other = .ok address) :
    ∃ program, limitedRoot.programAt limitedEnvironment kind index = .ok program ∧
      limitedRoot.programAt limitedEnvironment kind other = .ok program := by
  obtain ⟨program, isProgram, encoded⟩ := except_bind_eq_ok.mp isAddress
  obtain ⟨program', isProgram', encoded'⟩ := except_bind_eq_ok.mp isOther
  have length (index : Int) (program : Bytes)
      (isProgram : limitedRoot.programAt limitedEnvironment kind index = .ok program) :
      program.length = programLength kind := by
    cases kind with
    | receiving =>
        obtain ⟨index, -, -, hashed⟩ := limited_receivingProgram isProgram
        obtain ⟨pubkey, isPubkey, rfl⟩ := except_map_eq_ok.mp hashed
        exact List.length_drop.trans (by rw [length_privkeyToPubkey isPubkey]; rfl)
    | change =>
        obtain ⟨key, isKey, -⟩ := except_bind_eq_ok.mp isProgram
        exact absurd isKey (limited_changeKey index key)
    | pq =>
        rw [limited_pqProgram] at isProgram
        cases isProgram
        exact limitedSha256_length _
    | hybrid =>
        rw [limited_hybridProgram isProgram]
        exact limitedSha256_length _
  have names : Names kind program address := ⟨encoded, length _ _ isProgram⟩
  have names' : Names kind program' address := ⟨encoded', length _ _ isProgram'⟩
  cases names.addressWitness_eq.symm.trans names'.addressWitness_eq
  exact ⟨program, isProgram, isProgram'⟩

theorem limited_injective : InjectiveDerivation limitedEnvironment limitedRoot where
  derives kind isKind index small := by
    have encodes (version : Nat) (small : version < 32) (program : Bytes) :
        ∃ address, encodeSegwitAddress mainnetBech32Hrp version program = .ok address := by
      obtain ⟨characters, rest, encoded, -⟩ :=
        exists_encodeSegwitAddress_spells mainnetBech32Hrp small program
      exact ⟨_, encoded⟩
    have receives : ((List.range 50).all fun index =>
        (limitedRoot.chainKeyAt limitedEnvironment 0 (index : Nat)).isOk) = true := by
      decide
    have received := List.all_eq_true.mp receives index (List.mem_range.mpr small)
    obtain ⟨program, isProgram⟩ : ∃ program,
        limitedRoot.programAt limitedEnvironment kind index = .ok program := by
      cases isKey : limitedRoot.chainKeyAt limitedEnvironment 0 index with
      | error error =>
          rw [isKey] at received
          cases received
      | ok key =>
          obtain ⟨node, isNode, isChild⟩ := except_bind_eq_ok.mp isKey
          obtain rfl := Except.ok.inj ((limitedNode_derived (Nat.zero_le 1)).symm.trans isNode)
          obtain ⟨pubkey, isPubkey⟩ := HDKey.exists_getPublicKey_of_child rfl isChild
          cases kind with
          | change => exact absurd rfl isKind
          | pq => exact ⟨_, limited_pqProgram index⟩
          | receiving =>
              rw [WalletRoot.programAt, isKey]
              exact ⟨_, except_map_eq_ok.mpr ⟨pubkey, isPubkey, rfl⟩⟩
          | hybrid =>
              rw [WalletRoot.programAt, isKey]
              exact ⟨_, except_map_eq_ok.mpr ⟨pubkey, isPubkey, rfl⟩⟩
    obtain ⟨address, encoded⟩ := encodes kind.version kind.version_lt program
    exact ⟨address, except_bind_eq_ok.mpr ⟨program, isProgram, encoded⟩⟩
  injective kind isKind index other address small isAddress isOther := by
    obtain ⟨program, isProgram, isProgram'⟩ := limited_sameProgram isAddress isOther
    cases kind with
    | change => exact absurd rfl isKind
    | receiving =>
        obtain ⟨first, sameFirst, firstSmall, isFirst⟩ := limited_receivingProgram isProgram
        obtain ⟨second, sameSecond, secondSmall, isSecond⟩ := limited_receivingProgram isProgram'
        have same := List.inj_on_of_nodup_map limitedPrograms_nodup
          (List.mem_range.mpr firstSmall) (List.mem_range.mpr secondSmall)
          (isFirst.trans isSecond.symm)
        rw [sameFirst, sameSecond, same]
    | pq =>
        rw [limited_pqProgram] at isProgram isProgram'
        exact pqSeed_injective (by omega) (Except.ok.inj (isProgram'.trans isProgram.symm))
    | hybrid =>
        rw [limited_hybridProgram isProgram] at isProgram'
        exact pqSeed_injective (by omega) (limited_hybridProgram isProgram').symm
  separate index other address _ _ isOther := by
    obtain ⟨program, isProgram, -⟩ := except_bind_eq_ok.mp isOther
    obtain ⟨key, isKey, -⟩ := except_bind_eq_ok.mp isProgram
    exact limited_changeKey other key isKey

theorem limited_new : ∃ start,
    new limitedEnvironment limitedMnemonic "" 0 = .ok start ∧ start.root = limitedRoot ∧
      (start.afterCalls limitedEnvironment [.getReceivingKey 6]).receivingKeys.entries.map
        Prod.fst = [0, 1, 2, 3, 4, 6] := by
  have derived : hasReturned (deriveFirst limitedEnvironment [0, 1, 2, 3, 4]
      (unused limitedRoot)) = true ∧
      ((finalState (deriveFirst limitedEnvironment [0, 1, 2, 3, 4]
        (unused limitedRoot))).afterCalls limitedEnvironment
          [.getReceivingKey 6]).receivingKeys.entries.map Prod.fst = [0, 1, 2, 3, 4, 6] := by
    decide +kernel
  obtain ⟨value, start, returns⟩ := exists_of_hasReturned derived.1
  have created : new limitedEnvironment limitedMnemonic "" 0 = .ok start := by
    refine except_bind_eq_ok.mpr ⟨limitedRoot, limitedRoot_derived, ?_⟩
    rw [returns]
  have isRoot := (exists_of_new created).1
  rw [returns] at derived
  exact ⟨start, created, Except.ok.inj (isRoot.symm.trans limitedRoot_derived), derived.2⟩

/-- Lookups and keys of the change chain skip nothing. -/
theorem limited_complete : ∃ start,
    new limitedEnvironment limitedMnemonic "" 0 = .ok start ∧
      InjectiveDerivation limitedEnvironment start.root ∧
      (start.afterCalls limitedEnvironment
        [.getChangeKey 7, .findKeyForAddress "qty1".toList]).FindsAll limitedEnvironment := by
  obtain ⟨start, created, isRoot, -⟩ := limited_new
  have injective : InjectiveDerivation limitedEnvironment start.root :=
    isRoot.symm ▸ limited_injective
  refine ⟨start, created, injective, ?_⟩
  exact (lookups_complete_iff limitedEnvironment created injective _).2
    ⟨True.intro, True.intro, True.intro⟩

/-- Asking for the receiving key 6 of a new wallet hides the address 5 from the lookup. -/
theorem skippedIndex_lost : ∃ start,
    new limitedEnvironment limitedMnemonic "" 0 = .ok start ∧
      InjectiveDerivation limitedEnvironment start.root ∧
      ¬ (start.afterCalls limitedEnvironment [.getReceivingKey 6]).FindsAll
        limitedEnvironment := by
  obtain ⟨start, created, isRoot, skipped⟩ := limited_new
  obtain ⟨root, -, consistent⟩ := exists_of_new created
  have injective : InjectiveDerivation limitedEnvironment start.root :=
    isRoot.symm ▸ limited_injective
  have later := consistent.afterCalls [.getReceivingKey 6]
  refine ⟨start, created, injective, fun finds => ?_⟩
  have searchable := (findsAll_iff injective (HDWallet.isPrivate_new root) later).mp finds
  have new : (start.afterCalls limitedEnvironment [.getReceivingKey 6]).receivingKeys.get? 5 =
      none := by
    rw [Dict.get?_eq_none_iff, skipped]
    decide
  have count : (start.afterCalls limitedEnvironment [.getReceivingKey 6]).receivingKeys.length =
      6 := by
    rw [Dict.length, ← List.length_map Prod.fst, skipped]
    rfl
  have ahead := searchable.receiving 5 (by decide) new
  omega

end CachingWallet

end QuantyCoin
