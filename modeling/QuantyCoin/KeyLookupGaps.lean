import QuantyCoin.AddressPrefixes

/-!
# Gaps in the key lookups

A lookup looks through the cached entries and then at the fifty indices from their number
on.  It misses an index that is not cached and lies below the number of cached entries.
-/

namespace QuantyCoin

open ByteDecoder OrderedDict Secp256k1 ShortWeierstrass StateTriples

/-! ## Addresses of derived keys -/

/-- The children of a private node have public keys. -/
theorem HDKey.exists_getPublicKey_of_child {hmacSha512 : Bytes → Bytes → Bytes}
    {hash160 : Bytes → Bytes} {node child : HDKey} {index : Int}
    (isPrivate : node.isPrivate = true)
    (derived : node.deriveChild hmacSha512 hash160 index = .ok child) :
    ∃ pubkey, child.getPublicKey = .ok pubkey := by
  obtain ⟨generator, atG, representsG⟩ := exists_represents_G
  have order : 0 < N := by decide
  obtain ⟨-, -, digest, fingerprint, -, -, nonzero, rfl⟩ := exists_of_deriveChild isPrivate derived
  obtain ⟨valid, -⟩ :=
    validPrivate_child nonzero (digest.drop 32) (node.depth + 1) index fingerprint
  have below := valid.below
  obtain ⟨p, multiple, -⟩ := exists_pointMul_G atG representsG valid.positive (by omega)
  exact ⟨compress p, getPublicKey_of_pointMul valid multiple⟩

namespace WalletRoot

variable {env : WalletEnvironment} {root : WalletRoot} {index : Int} {key : HDKey}

/-- The keys of a private account have addresses. -/
theorem exists_getAddress (isPrivate : root.accountNode.isPrivate = true) {chain : Nat}
    (isKey : root.chainKeyAt env chain index = .ok key) :
    ∃ address, key.getAddress env.prim = .ok address := by
  obtain ⟨node, isNode, isChild⟩ := except_bind_eq_ok.mp isKey
  have nodePrivate := HDKey.isPrivate_deriveChild isPrivate isNode
  obtain ⟨pubkey, isPubkey⟩ := HDKey.exists_getPublicKey_of_child nodePrivate isChild
  obtain ⟨characters, rest, encoded, -⟩ := exists_encodeSegwitAddress_spells mainnetBech32Hrp
    (show 0 < 32 by decide) (env.prim.hash160 pubkey)
  rw [HDKey.getAddress, isPubkey]
  exact ⟨_, encoded⟩

theorem getAddress_receiving (isKey : root.chainKeyAt env 0 index = .ok key) :
    key.getAddress env.prim = root.addressAt env .receiving mainnetBech32Hrp index := by
  rw [addressAt, programAt, isKey, HDKey.getAddress_eq]
  rfl

theorem getAddress_change (isKey : root.chainKeyAt env 1 index = .ok key) :
    key.getAddress env.prim = root.addressAt env .change mainnetBech32Hrp index := by
  rw [addressAt, programAt, isKey, HDKey.getAddress_eq]
  rfl

end WalletRoot

namespace CachingWallet

/-! ## What is found -/

/-- No two indices lead to one address, as far as the first fifty are concerned. -/
structure InjectiveDerivation (env : WalletEnvironment) (root : WalletRoot) : Prop where
  derives : ∀ kind, kind ≠ AddressKind.change → ∀ index : Nat, index < 50 →
    ∃ address, root.addressAt env kind mainnetBech32Hrp index = .ok address
  injective : ∀ kind, kind ≠ AddressKind.change → ∀ (index : Nat) (other : Int) address,
    index < 50 → root.addressAt env kind mainnetBech32Hrp index = .ok address →
    root.addressAt env kind mainnetBech32Hrp other = .ok address → other = index
  separate : ∀ (index : Nat) (other : Int) address, index < 50 →
    root.addressAt env .receiving mainnetBech32Hrp index = .ok address →
    root.addressAt env .change mainnetBech32Hrp other ≠ .ok address

/-- The lookups find the keys of the first fifty addresses of each kind. -/
structure FindsAll (env : WalletEnvironment) (wallet : CachingWallet) : Prop where
  receiving : ∀ index : Nat, index < 50 → ∀ address key,
    wallet.root.addressAt env .receiving mainnetBech32Hrp index = .ok address →
    wallet.root.chainKeyAt env 0 index = .ok key →
    returned (findKeyForAddress env address wallet) = .ok (some key)
  pq : ∀ index : Nat, index < 50 → ∀ address key,
    wallet.root.addressAt env .pq mainnetBech32Hrp index = .ok address →
    wallet.root.pqKeyAt env index = .ok key →
    returned (findPqKeyForAddress env address wallet) = .ok (some ((index : Int), key))
  hybrid : ∀ index : Nat, index < 50 → ∀ address secpKey pqKey,
    wallet.root.addressAt env .hybrid mainnetBech32Hrp index = .ok address →
    wallet.root.chainKeyAt env 0 index = .ok secpKey → wallet.root.pqKeyAt env index = .ok pqKey →
    returned (findHybridKeysForAddress env address wallet) =
      .ok (some ((index : Int), secpKey, pqKey))

/-- An index is cached or lies ahead of the entries. -/
def Ahead {β : Type} (dict : Dict Int β) (index : Nat) : Prop :=
  dict.get? index = none → dict.length ≤ index

/-- An index has no address with another prefix. -/
def Unprefixed (addresses : Dict Int (List Char)) (index : Int) : Prop :=
  ∀ stored, addresses.get? index = some stored → addressPrefix stored = some mainnetBech32Hrp

/-- The first fifty indices are within reach of the lookups. -/
structure Searchable (wallet : CachingWallet) : Prop where
  receiving : ∀ index : Nat, index < 50 → Ahead wallet.receivingKeys index
  pq : ∀ index : Nat, index < 50 →
    Ahead wallet.pqAddresses index ∧ Unprefixed wallet.pqAddresses index
  hybrid : ∀ index : Nat, index < 50 →
    Ahead wallet.hybridAddresses index ∧ Unprefixed wallet.hybridAddresses index

/-! ## Lookups in general -/

section Lookups

variable {env : WalletEnvironment} {root : WalletRoot}

/-- A search that finds one result. -/
theorem returned_of_finds {γ : Type} {search : CachingM (Option γ)} {pre : CachingWallet → Prop}
    {result : γ} {wallet : CachingWallet}
    (finds : Triple pre search (Searched (fun found _ => found = result) fun _ => False)
      fun _ => False) (start : pre wallet) : returned (search wallet) = .ok (some result) := by
  have outcome := finds wallet start
  cases ran : search wallet with
  | error error after =>
      rw [ran] at outcome
      exact outcome.elim
  | ok value after =>
      rw [ran] at outcome
      cases value with
      | none => exact (show False from outcome).elim
      | some found => rw [returned, show found = result from outcome]

/-- A search that finds nothing or raises. -/
theorem returned_of_misses {γ : Type} {search : CachingM (Option γ)} {pre : CachingWallet → Prop}
    {result : γ} {wallet : CachingWallet}
    (misses : Triple pre search (Searched (fun _ _ => False) fun _ => True) fun _ => True)
    (start : pre wallet) : returned (search wallet) ≠ .ok (some result) := by
  intro found
  have outcome := misses wallet start
  cases ran : search wallet with
  | error error after =>
      rw [ran] at found
      cases found
  | ok value after =>
      rw [ran] at found outcome
      cases found
      exact outcome

/-- The indices of a window up to one of them. -/
theorem nextFifty_split {count index : Nat} (low : count ≤ index) (high : index < count + 50) :
    ∃ before after, nextFifty count = before ++ (index : Int) :: after ∧
      ∀ other ∈ before, ∃ earlier : Nat, earlier < index ∧ other = earlier := by
  have parts : List.range' count 50 =
      List.range' count (index - count) ++ List.range' index (count + 49 - index + 1) := by
    rw [show List.range' index (count + 49 - index + 1) =
        List.range' (count + (index - count)) (count + 49 - index + 1) by
      rw [Nat.add_sub_cancel' low], List.range'_append_1]
    congr 1
    omega
  refine ⟨_, _, by rw [nextFifty, parts, List.map_append, List.range'_succ, List.map_cons], ?_⟩
  intro other member
  obtain ⟨earlier, inside, rfl⟩ := List.mem_map.mp member
  rw [List.mem_range'_1] at inside
  exact ⟨earlier, by omega, rfl⟩

variable {β γ : Type} {dict : CachingWallet → Dict Int β} {ask : Int → CachingM β}
  {test : Int → β → Except PyException Bool} {fetch : Int → β → CachingM γ} {index : Nat}
  {value : β} {found : γ → CachingWallet → Prop} {missed raised : CachingWallet → Prop}
  {prop : Dict Int β → Prop}

/-- A dictionary that is asked for the entries of consecutive indices, of which one has the
value that passes the test. -/
structure Lookup (env : WalletEnvironment) (root : WalletRoot)
    (dict : CachingWallet → Dict Int β) (ask : Int → CachingM β)
    (test : Int → β → Except PyException Bool) (index : Nat) (value : β) : Prop where
  passes : test index value = .ok true
  fails : ∀ wallet, wallet.Consistent env root → ∀ other stored,
    (dict wallet).get? other = some stored → (other = index → stored ≠ value) →
    test other stored = .ok false
  asks : ∀ (prop : Dict Int β → Prop) (other : Int),
    (∀ entries stored, prop entries → entries.get? other = none →
      (other = index → stored = value) → prop (entries.set other stored)) →
    Triple (fun wallet => wallet.Consistent env root ∧ prop (dict wallet)) (ask other)
      (fun stored wallet => (dict wallet).get? other = some stored ∧
        wallet.Consistent env root ∧ prop (dict wallet))
      fun _ => ∀ small : Nat, small < 50 → other ≠ small

namespace Lookup

theorem scan_finds (lookup : Lookup env root dict ask test index value)
    (fetches : Triple
      (fun wallet => wallet.Consistent env root ∧ (dict wallet).get? index = some value)
      (fetch index value) found raised) :
    Triple (fun wallet => wallet.Consistent env root ∧ (dict wallet).get? index = some value)
      (scan dict test fetch) (Searched found missed) raised := by
  refine scan_passes (fun wallet holds => holds.2) lookup.passes ?_ fetches
  rintro wallet ⟨consistent, -⟩ ⟨other, stored⟩ member different
  exact lookup.fails wallet consistent other stored (Dict.get?_eq_some_iff.mpr member)
    fun same => absurd same different

theorem scan_misses (lookup : Lookup env root dict ask test index value)
    (hidden : ∀ entries, prop entries → entries.get? index ≠ some value) :
    Triple (fun wallet => wallet.Consistent env root ∧ prop (dict wallet)) (scan dict test fetch)
      (Searched found fun wallet => wallet.Consistent env root ∧ prop (dict wallet)) raised := by
  apply scan_fails
  rintro wallet ⟨consistent, holds⟩ ⟨other, stored⟩ member
  have known := Dict.get?_eq_some_iff.mpr member
  refine lookup.fails wallet consistent other stored known ?_
  rintro rfl rfl
  exact hidden _ holds known

/-- An index in the window is found unless another value is stored for it. -/
theorem lookAhead_finds (lookup : Lookup env root dict ask test index value) (small : index < 50)
    (fetches : Triple
      (fun wallet => wallet.Consistent env root ∧ (dict wallet).get? index = some value)
      (fetch index value) found fun _ => False) :
    Triple
      (fun wallet => wallet.Consistent env root ∧ (dict wallet).length ≤ index ∧
        ∀ stored, (dict wallet).get? index = some stored → stored = value)
      (lookAhead dict nextFifty ask test fetch) (Searched found missed) fun _ => False := by
  let intact (entries : Dict Int β) : Prop :=
    ∀ stored, entries.get? index = some stored → stored = value
  have keeps (other : Int) (entries : Dict Int β) (stored : β) (holds : intact entries)
      (new : entries.get? other = none) (derived : other = index → stored = value) :
      intact (entries.set other stored) := by
    intro found isFound
    obtain ⟨same, rfl⟩ | old := get?_set_cases new isFound
    · exact derived same.symm
    · exact holds found old
  apply lookAhead_triple (· ≤ index)
    fun wallet => wallet.Consistent env root ∧ intact (dict wallet)
  · rintro wallet ⟨consistent, low, holds⟩
    exact ⟨low, consistent, holds⟩
  · intro count low
    obtain ⟨before, after, parts, earlier⟩ := nextFifty_split low (by omega)
    rw [parts]
    refine askAhead_passes (fun other member => ?_) ?_ fetches
    · obtain ⟨position, first, rfl⟩ := earlier other member
      refine Triple.consequence (lookup.asks intact position (keeps position))
        (fun _ holds => holds) ?_ fun _ outside => outside position (by omega) rfl
      rintro stored wallet ⟨known, consistent, holds⟩
      refine ⟨lookup.fails wallet consistent _ stored known fun same => ?_, consistent, holds⟩
      omega
    · refine Triple.consequence (lookup.asks intact index (keeps index)) (fun _ holds => holds)
        ?_ fun _ outside => outside index small rfl
      rintro stored wallet ⟨known, consistent, holds⟩
      obtain rfl := holds stored known
      exact ⟨⟨rfl, lookup.passes⟩, consistent, known⟩

/-- An index below the window is not found. -/
theorem lookAhead_skips (lookup : Lookup env root dict ask test index value) :
    Triple (fun wallet => wallet.Consistent env root ∧ index < (dict wallet).length)
      (lookAhead dict nextFifty ask test fetch) (Searched (fun _ _ => False) fun _ => True)
      fun _ => True := by
  have fails : Triple
      (fun wallet => wallet.Consistent env root ∧ index < (dict wallet).length)
      (lookAhead dict nextFifty ask test fetch)
      (Searched (fun _ _ => False) fun wallet => wallet.Consistent env root ∧ True)
      fun _ => True := by
    refine lookAhead_triple (index < ·) _ (fun wallet holds => ⟨holds.2, holds.1, True.intro⟩)
      fun count high => askAhead_fails fun other member => ?_
    obtain ⟨position, inside, rfl⟩ := List.mem_map.mp member
    rw [List.mem_range'_1] at inside
    refine Triple.consequence (lookup.asks (fun _ => True) position fun _ _ _ _ _ => True.intro)
      (fun _ holds => holds) ?_ fun _ _ => True.intro
    rintro stored wallet ⟨known, consistent, -⟩
    refine ⟨lookup.fails wallet consistent _ stored known fun same => ?_, consistent, True.intro⟩
    omega
  refine fails.weaken (fun _ holds => holds) fun result _ outcome => ?_
  cases result with
  | none => exact True.intro
  | some result => exact outcome

/-- Another value that is stored for an index hides it. -/
theorem lookAhead_hidden (lookup : Lookup env root dict ask test index value) {other : β}
    (different : other ≠ value) :
    Triple (fun wallet => wallet.Consistent env root ∧ (dict wallet).get? index = some other)
      (lookAhead dict nextFifty ask test fetch) (Searched (fun _ _ => False) fun _ => True)
      fun _ => True := by
  let hides (entries : Dict Int β) : Prop := entries.get? index = some other
  have fails : Triple (fun wallet => wallet.Consistent env root ∧ hides (dict wallet))
      (lookAhead dict nextFifty ask test fetch)
      (Searched (fun _ _ => False) fun wallet => wallet.Consistent env root ∧ hides (dict wallet))
      fun _ => True := by
    refine lookAhead_triple (fun _ => True) _ (fun wallet holds => ⟨True.intro, holds⟩)
      fun count _ => askAhead_fails fun asked member => ?_
    refine Triple.consequence (lookup.asks hides asked ?_) (fun _ holds => holds) ?_
      fun _ _ => True.intro
    · intro entries stored holds new _
      have apart : (index : Int) ≠ asked := by
        rintro rfl
        exact absurd (new.symm.trans holds) nofun
      exact (Dict.get?_set_of_ne new apart).trans holds
    · rintro stored wallet ⟨known, consistent, holds⟩
      refine ⟨lookup.fails wallet consistent _ stored known ?_, consistent, holds⟩
      rintro rfl
      rw [Option.some.inj (known.symm.trans holds)]
      exact different
  refine fails.weaken (fun _ holds => holds) fun result _ outcome => ?_
  cases result with
  | none => exact True.intro
  | some result => exact outcome

end Lookup

end Lookups

/-! ## The three lookups -/

section Families

variable {env : WalletEnvironment} {root : WalletRoot} {wallet : CachingWallet} {index : Nat}
  {address : List Char} {key : HDKey} {pqKey : MLDSAKey}

theorem hasAddress_eq {found : List Char} (isFound : key.getAddress env.prim = .ok found)
    (other : Int) : hasAddress env address other key = .ok (decide (found = address)) := by
  rw [hasAddress, isFound]
  rfl

theorem receivingLookup (injective : InjectiveDerivation env root)
    (isPrivate : root.accountNode.isPrivate = true) (small : index < 50)
    (isAddress : root.addressAt env .receiving mainnetBech32Hrp index = .ok address)
    (isKey : root.chainKeyAt env 0 index = .ok key) :
    Lookup env root receivingKeys (getReceivingKey env) (hasAddress env address) index key where
  passes := by
    rw [hasAddress_eq ((WalletRoot.getAddress_receiving isKey).trans isAddress),
      decide_eq_true rfl]
  fails wallet consistent other stored known different := by
    have derived := consistent.receiving other stored known
    obtain ⟨found, isFound⟩ := WalletRoot.exists_getAddress isPrivate derived
    rw [hasAddress_eq isFound, decide_eq_false]
    rintro rfl
    rw [WalletRoot.getAddress_receiving derived] at isFound
    have same := injective.injective .receiving (by decide) index other found small isAddress
      isFound
    rw [same] at derived
    exact different same (Except.ok.inj (derived.symm.trans isKey))
  asks prop other keeps := by
    have asked := @getReceivingKey_triple env root other
      (fun wallet => wallet.Consistent env root ∧ prop wallet.receivingKeys)
      (fun wallet holds => holds.1) fun wallet found holds new derived => by
        refine ⟨holds.1.storeReceiving new derived, keeps _ _ holds.2 new ?_⟩
        rintro rfl
        exact Except.ok.inj (derived.symm.trans isKey)
    refine Triple.consequence asked (fun _ holds => holds) (fun _ _ holds => holds) ?_
    rintro - ⟨underived, -⟩ position small rfl
    obtain ⟨found, isFound⟩ := injective.derives .receiving (by decide) position small
    obtain ⟨program, isProgram, -⟩ := except_bind_eq_ok.mp isFound
    obtain ⟨node, isNode, -⟩ := except_bind_eq_ok.mp isProgram
    exact underived node isNode

/-- Cached addresses of other indices differ. -/
theorem InjectiveDerivation.ne_address (injective : InjectiveDerivation env root)
    {kind : AddressKind} (isKind : kind ≠ .change) (small : index < 50) {other : Int}
    {stored : List Char} (isAddress : root.addressAt env kind mainnetBech32Hrp index = .ok address)
    (derived : ∃ hrp, root.addressAt env kind hrp other = .ok stored)
    (different : other = index → stored ≠ address) : stored ≠ address := by
  rintro rfl
  obtain ⟨hrp, derived⟩ := derived
  have isPrefix := WalletRoot.addressPrefix_of_addressAt derived
  rw [WalletRoot.addressPrefix_of_addressAt isAddress] at isPrefix
  rw [← Option.some.inj isPrefix] at derived
  exact different (injective.injective kind isKind index other stored small isAddress derived) rfl

theorem isAddress_ne {stored : List Char} (different : stored ≠ address) (other : Int) :
    CachingWallet.isAddress address other stored = .ok false := by
  rw [CachingWallet.isAddress, decide_eq_false different]

theorem pqLookup (injective : InjectiveDerivation env root) (small : index < 50)
    (isAddress : root.addressAt env .pq mainnetBech32Hrp index = .ok address) :
    Lookup env root pqAddresses (fun other => getPqAddress env other mainnetBech32Hrp)
      (CachingWallet.isAddress address) index address where
  passes := by rw [CachingWallet.isAddress, decide_eq_true rfl]
  fails wallet consistent other stored known different :=
    isAddress_ne (injective.ne_address (by decide) small isAddress
      (consistent.pqAddresses other stored known).2 different) other
  asks prop other keeps := by
    have asked := @getPqAddress_triple env root other mainnetBech32Hrp
      (fun wallet => wallet.Consistent env root ∧ prop wallet.pqAddresses)
      (fun wallet holds => holds.1)
      (fun wallet found holds new derived => ⟨holds.1.storePq new derived, holds.2⟩)
      fun wallet found holds new keyed derived => by
        refine ⟨holds.1.storePqAddress new keyed derived, keeps _ _ holds.2 new ?_⟩
        rintro rfl
        exact Except.ok.inj (derived.symm.trans isAddress)
    refine Triple.consequence asked (fun _ holds => holds) (fun _ _ holds => holds) ?_
    rintro - ⟨underived, -⟩ position small rfl
    obtain ⟨found, isFound⟩ := injective.derives .pq (by decide) position small
    exact underived found isFound

theorem hybridLookup (injective : InjectiveDerivation env root) (small : index < 50)
    (isAddress : root.addressAt env .hybrid mainnetBech32Hrp index = .ok address) :
    Lookup env root hybridAddresses (fun other => getHybridAddress env other mainnetBech32Hrp)
      (CachingWallet.isAddress address) index address where
  passes := by rw [CachingWallet.isAddress, decide_eq_true rfl]
  fails wallet consistent other stored known different :=
    isAddress_ne (injective.ne_address (by decide) small isAddress
      (consistent.hybridAddresses other stored known).2.2 different) other
  asks prop other keeps := by
    have asked := @getHybridAddress_triple env root other mainnetBech32Hrp
      (fun wallet => wallet.Consistent env root ∧ prop wallet.hybridAddresses)
      (fun wallet holds => holds.1)
      (fun wallet found holds new derived => ⟨holds.1.storeReceiving new derived, holds.2⟩)
      (fun wallet found holds new derived => ⟨holds.1.storePq new derived, holds.2⟩)
      fun wallet found holds new keyed pqKeyed derived => by
        refine ⟨holds.1.storeHybridAddress new keyed pqKeyed derived, keeps _ _ holds.2 new ?_⟩
        rintro rfl
        exact Except.ok.inj (derived.symm.trans isAddress)
    refine Triple.consequence asked (fun _ holds => holds) (fun _ _ holds => holds) ?_
    rintro - ⟨underived, -⟩ position small rfl
    obtain ⟨found, isFound⟩ := injective.derives .hybrid (by decide) position small
    exact underived found isFound

/-! ### What they fetch -/

theorem storedPqKey_triple {pre : CachingWallet → Prop} {other : Int}
    (known : ∀ wallet, pre wallet → wallet.pqKeys.get? other = some pqKey) :
    Triple pre (storedPqKey other) (fun found wallet => found = pqKey ∧ pre wallet)
      fun _ => False := by
  apply Triple.computing
  · intro wallet found holds isFound
    rw [known wallet holds] at isFound
    exact ⟨(Except.ok.inj isFound).symm, holds⟩
  · intro wallet error holds raised
    rw [known wallet holds] at raised
    cases raised

theorem indexedPqKey_triple (isKey : root.pqKeyAt env index = .ok pqKey) :
    Triple
      (fun wallet => wallet.Consistent env root ∧ wallet.pqAddresses.get? index = some address)
      (indexedPqKey index address) (fun found _ => found = ((index : Int), pqKey))
      fun _ => False := by
  refine (@storedPqKey_triple pqKey _ index ?_).bind fun found => .pure fun wallet holds => by
    rw [holds.1]
  rintro wallet ⟨consistent, known⟩
  obtain ⟨found, isFound⟩ :=
    Option.isSome_iff_exists.mp (consistent.pqAddresses index address known).1
  rw [isFound, Except.ok.inj ((consistent.pq index found isFound).symm.trans isKey)]

theorem indexedHybridKeys_triple (isKey : root.chainKeyAt env 0 index = .ok key)
    (isPqKey : root.pqKeyAt env index = .ok pqKey) :
    Triple
      (fun wallet => wallet.Consistent env root ∧
        wallet.hybridAddresses.get? index = some address)
      (indexedHybridKeys env index address)
      (fun found _ => found = ((index : Int), key, pqKey)) fun _ => False := by
  have secpKeyed := @getReceivingKey_triple env root index
    (fun wallet => wallet.Consistent env root ∧ wallet.hybridAddresses.get? index = some address)
    (fun wallet holds => holds.1)
    fun wallet found holds new derived => ⟨holds.1.storeReceiving new derived, holds.2⟩
  refine (Triple.consequence secpKeyed (fun _ holds => holds) (fun _ _ holds => holds)
    fun wallet raised => raised.1 key isKey).bind fun secpKey => ?_
  refine (@storedPqKey_triple pqKey _ index ?_).bind fun found => .pure fun wallet holds => ?_
  · rintro wallet ⟨-, consistent, known⟩
    obtain ⟨found, isFound⟩ :=
      Option.isSome_iff_exists.mp (consistent.hybridAddresses index address known).2.1
    rw [isFound, Except.ok.inj ((consistent.pq index found isFound).symm.trans isPqKey)]
  · obtain ⟨rfl, known, consistent, -⟩ := holds
    rw [Except.ok.inj ((consistent.receiving index secpKey known).symm.trans isKey)]

/-! ### When they find a key -/

theorem findKeyForAddress_iff (injective : InjectiveDerivation env root) (small : index < 50)
    (consistent : wallet.Consistent env root) (isPrivate : root.accountNode.isPrivate = true)
    (isAddress : root.addressAt env .receiving mainnetBech32Hrp index = .ok address)
    (isKey : root.chainKeyAt env 0 index = .ok key) :
    returned (findKeyForAddress env address wallet) = .ok (some key) ↔
      Ahead wallet.receivingKeys index := by
  have lookup := receivingLookup injective isPrivate small isAddress isKey
  -- no change key has the address
  have change (prop : Dict Int HDKey → Prop) (found : HDKey → CachingWallet → Prop)
      (raised : CachingWallet → Prop) :
      Triple (fun wallet => wallet.Consistent env root ∧ prop wallet.receivingKeys)
        (scan changeKeys (hasAddress env address) fun _ key => return key)
        (Searched found fun wallet => wallet.Consistent env root ∧ prop wallet.receivingKeys)
        raised := by
    apply scan_fails
    rintro wallet ⟨consistent, -⟩ ⟨other, stored⟩ member
    have derived := consistent.change other stored (Dict.get?_eq_some_iff.mpr member)
    obtain ⟨text, isText⟩ := WalletRoot.exists_getAddress isPrivate derived
    rw [hasAddress_eq isText, decide_eq_false]
    rintro rfl
    rw [WalletRoot.getAddress_change derived] at isText
    exact injective.separate index other text small isAddress isText
  constructor
  · intro finds new
    by_contra beyond
    let skipped (entries : Dict Int HDKey) : Prop :=
      entries.get? index = none ∧ index < entries.length
    have misses : Triple
        (fun wallet => wallet.Consistent env root ∧ skipped wallet.receivingKeys)
        (findKeyForAddress env address) (Searched (fun _ _ => False) fun _ => True)
        fun _ => True := by
      refine (lookup.scan_misses fun entries holds => ?_).otherwise <|
        (change skipped _ _).otherwise <| lookup.lookAhead_skips.weaken ?_ fun _ _ result => result
      · rw [holds.1]
        exact nofun
      · exact fun wallet holds => ⟨holds.1, holds.2.2⟩
    exact returned_of_misses misses ⟨consistent, new, Nat.not_le.mp beyond⟩ finds
  · intro ahead
    have fetches (pre : CachingWallet → Prop) : Triple pre (return key : CachingM HDKey)
        (fun found _ => found = key) fun _ => False := .pure fun _ _ => rfl
    cases stored : wallet.receivingKeys.get? index with
    | some found =>
        obtain rfl := Except.ok.inj ((consistent.receiving index found stored).symm.trans isKey)
        exact returned_of_finds (finds_first (lookup.scan_finds (fetches _))) ⟨consistent, stored⟩
    | none =>
        let next (entries : Dict Int HDKey) : Prop :=
          entries.get? index = none ∧ entries.length ≤ index
        have finds : Triple
            (fun wallet => wallet.Consistent env root ∧ next wallet.receivingKeys)
            (findKeyForAddress env address)
            (Searched (fun found _ => found = key) fun _ => False) fun _ => False := by
          refine (lookup.scan_misses fun entries holds => ?_).otherwise <|
            (change next _ _).otherwise <|
              (lookup.lookAhead_finds small (fetches _)).weaken ?_ fun _ _ result => result
          · rw [holds.1]
            exact nofun
          · rintro wallet ⟨consistent, new, low⟩
            exact ⟨consistent, low, fun found isFound => by simp [new] at isFound⟩
        exact returned_of_finds finds ⟨consistent, stored, ahead stored⟩

/-- A search through cached addresses and behind them finds the one that is within reach. -/
theorem searchAddresses_iff {γ : Type} {kind : AddressKind} {search : CachingM (Option γ)}
    {addresses : CachingWallet → Dict Int (List Char)} {ask : Int → CachingM (List Char)}
    {fetch : Int → List Char → CachingM γ} {result : γ}
    (isSearch : search = otherwise (scan addresses (CachingWallet.isAddress address) fetch)
      (lookAhead addresses nextFifty ask (CachingWallet.isAddress address) fetch))
    (small : index < 50) (consistent : wallet.Consistent env root)
    (isAddress : root.addressAt env kind mainnetBech32Hrp index = .ok address)
    (derived : ∀ stored, (addresses wallet).get? index = some stored →
      ∃ hrp, root.addressAt env kind hrp index = .ok stored)
    (lookup : Lookup env root addresses ask (CachingWallet.isAddress address) index address)
    (fetches : Triple
      (fun wallet => wallet.Consistent env root ∧ (addresses wallet).get? index = some address)
      (fetch index address) (fun found _ => found = result) fun _ => False) :
    returned (search wallet) = .ok (some result) ↔
      Ahead (addresses wallet) index ∧ Unprefixed (addresses wallet) index := by
  have isStored (stored : List Char) (known : (addresses wallet).get? index = some stored) :
      stored = address ↔ addressPrefix stored = some mainnetBech32Hrp := by
    rw [← WalletRoot.addressAt_eq_iff (derived stored known), isAddress, Except.ok.injEq]
  constructor
  · intro finds
    refine ⟨fun new => ?_, fun stored known => ?_⟩
    · by_contra beyond
      let skipped (entries : Dict Int (List Char)) : Prop :=
        entries.get? index = none ∧ index < entries.length
      have misses : Triple
          (fun wallet => wallet.Consistent env root ∧ skipped (addresses wallet)) search
          (Searched (fun _ _ => False) fun _ => True) fun _ => True := by
        rw [isSearch]
        refine (lookup.scan_misses fun entries holds => ?_).otherwise <|
          lookup.lookAhead_skips.weaken ?_ fun _ _ result => result
        · rw [holds.1]
          exact nofun
        · exact fun wallet holds => ⟨holds.1, holds.2.2⟩
      exact returned_of_misses misses ⟨consistent, new, Nat.not_le.mp beyond⟩ finds
    · rw [← isStored stored known]
      by_contra different
      let hides (entries : Dict Int (List Char)) : Prop := entries.get? index = some stored
      have misses : Triple
          (fun wallet => wallet.Consistent env root ∧ hides (addresses wallet)) search
          (Searched (fun _ _ => False) fun _ => True) fun _ => True := by
        rw [isSearch]
        refine (lookup.scan_misses fun entries holds same => ?_).otherwise <|
          lookup.lookAhead_hidden different
        exact different (Option.some.inj (holds.symm.trans same))
      exact returned_of_misses misses ⟨consistent, known⟩ finds
  · rintro ⟨ahead, unprefixed⟩
    cases stored : (addresses wallet).get? index with
    | some found =>
        obtain rfl := (isStored found stored).mpr (unprefixed found stored)
        rw [isSearch]
        exact returned_of_finds (finds_first (lookup.scan_finds fetches)) ⟨consistent, stored⟩
    | none =>
        let next (entries : Dict Int (List Char)) : Prop :=
          entries.get? index = none ∧ entries.length ≤ index
        have finds : Triple
            (fun wallet => wallet.Consistent env root ∧ next (addresses wallet)) search
            (Searched (fun found _ => found = result) fun _ => False) fun _ => False := by
          rw [isSearch]
          refine (lookup.scan_misses fun entries holds => ?_).otherwise <|
            (lookup.lookAhead_finds small fetches).weaken ?_ fun _ _ result => result
          · rw [holds.1]
            exact nofun
          · rintro wallet ⟨consistent, new, low⟩
            exact ⟨consistent, low, fun found isFound => by simp [new] at isFound⟩
        exact returned_of_finds finds ⟨consistent, stored, ahead stored⟩

theorem findPqKeyForAddress_iff (injective : InjectiveDerivation env root) (small : index < 50)
    (consistent : wallet.Consistent env root)
    (isAddress : root.addressAt env .pq mainnetBech32Hrp index = .ok address)
    (isKey : root.pqKeyAt env index = .ok pqKey) :
    returned (findPqKeyForAddress env address wallet) = .ok (some ((index : Int), pqKey)) ↔
      Ahead wallet.pqAddresses index ∧ Unprefixed wallet.pqAddresses index :=
  searchAddresses_iff rfl small consistent isAddress
    (fun stored known => (consistent.pqAddresses index stored known).2)
    (pqLookup injective small isAddress) (indexedPqKey_triple isKey)

theorem findHybridKeysForAddress_iff (injective : InjectiveDerivation env root)
    (small : index < 50) (consistent : wallet.Consistent env root)
    (isAddress : root.addressAt env .hybrid mainnetBech32Hrp index = .ok address)
    (isKey : root.chainKeyAt env 0 index = .ok key) (isPqKey : root.pqKeyAt env index = .ok pqKey) :
    returned (findHybridKeysForAddress env address wallet) =
        .ok (some ((index : Int), key, pqKey)) ↔
      Ahead wallet.hybridAddresses index ∧ Unprefixed wallet.hybridAddresses index :=
  searchAddresses_iff rfl small consistent isAddress
    (fun stored known => (consistent.hybridAddresses index stored known).2.2)
    (hybridLookup injective small isAddress) (indexedHybridKeys_triple isKey isPqKey)

end Families

end CachingWallet

end QuantyCoin
