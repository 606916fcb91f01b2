import QuantyCoin.StateSimulation
import QuantyCoin.SteadyCalls

/-!
# The wallet with indices from zero

A wallet that is asked for the indices from zero and for the first prefix only does what
the wallet with any index and any prefix does, so that its lookups are complete as long as
the indices are asked for in order.
-/

namespace QuantyCoin

open OrderedDict StateSimulation StateTriples

/-! ## Derived values -/

namespace WalletRoot

variable (env : WalletEnvironment) (root : WalletRoot) (index : Nat)

theorem chainKeyAt_natCast (chain : Nat) :
    root.chainKeyAt env chain (index : Int) = root.chainKey env chain index := rfl

theorem pqKeyAt_natCast : root.pqKeyAt env (index : Int) = root.pqKey env index := rfl

theorem addressAt_natCast (kind : AddressKind) :
    root.addressAt env kind mainnetBech32Hrp (index : Int) = root.address env kind index := by
  cases kind <;> rfl

end WalletRoot

namespace HDWallet

/-! ## Related wallets -/

/-- The dictionary with the entries of a list. -/
abbrev Embedded {β : Type} (entries : List (Nat × β)) (dict : Dict Int β) : Prop :=
  Lists (fun index : Nat => (index : Int)) entries dict

/-- The wallets have one root and the same entries. -/
structure Embeds (wallet : HDWallet) (caching : CachingWallet) : Prop where
  root : wallet.root = caching.root
  receivingKeys : Embedded wallet.receivingKeys caching.receivingKeys
  changeKeys : Embedded wallet.changeKeys caching.changeKeys
  pqKeys : Embedded wallet.pqKeys caching.pqKeys
  pqAddresses : Embedded wallet.pqAddresses caching.pqAddresses
  hybridAddresses : Embedded wallet.hybridAddresses caching.hybridAddresses

theorem embeds_unused (root : WalletRoot) :
    Embeds ⟨root, [], [], [], [], []⟩ (CachingWallet.unused root) :=
  ⟨rfl, rfl, rfl, rfl, rfl, rfl⟩

/-! ## The methods -/

variable {env : WalletEnvironment} {related : HDWallet → CachingWallet → Prop} {index : Nat}

/-- The receiving keys agree under any relation that new entries in both caches keep. -/
theorem agree_getReceivingKey
    (embeds : ∀ wallet caching, related wallet caching → Embeds wallet caching)
    (stores : ∀ wallet caching keys dict, related wallet caching → Embedded keys dict →
      related { wallet with receivingKeys := keys } { caching with receivingKeys := dict }) :
    Agree related (getReceivingKey env index) (CachingWallet.getReceivingKey env index) := by
  apply agree_storedOr Nat.cast_injective
  · exact fun wallet caching holds => (embeds wallet caching holds).receivingKeys
  · apply Agree.reading
    intro wallet caching holds
    rw [(embeds wallet caching holds.1).root]
    exact (WalletRoot.chainKeyAt_natCast env caching.root index 0).symm
  · exact stores

theorem agree_getPqKey
    (embeds : ∀ wallet caching, related wallet caching → Embeds wallet caching)
    (stores : ∀ wallet caching keys dict, related wallet caching → Embedded keys dict →
      related { wallet with pqKeys := keys } { caching with pqKeys := dict }) :
    Agree related (getPqKey env index) (CachingWallet.getPqKey env index) := by
  apply agree_storedOr Nat.cast_injective
  · exact fun wallet caching holds => (embeds wallet caching holds).pqKeys
  · apply Agree.reading
    intro wallet caching holds
    rw [(embeds wallet caching holds.1).root]
    exact (WalletRoot.pqKeyAt_natCast env caching.root index).symm
  · exact stores

theorem embeds_getReceivingKey :
    Agree Embeds (getReceivingKey env index) (CachingWallet.getReceivingKey env index) :=
  agree_getReceivingKey (fun _ _ holds => holds) fun _ _ _ _ holds lists =>
    { holds with receivingKeys := lists }

theorem embeds_getPqKey : Agree Embeds (getPqKey env index) (CachingWallet.getPqKey env index) :=
  agree_getPqKey (fun _ _ holds => holds) fun _ _ _ _ holds lists => { holds with pqKeys := lists }

theorem embeds_getChangeKey :
    Agree Embeds (getChangeKey env index) (CachingWallet.getChangeKey env index) := by
  apply agree_storedOr Nat.cast_injective
  · exact fun _ _ holds => holds.changeKeys
  · apply Agree.reading
    intro wallet caching holds
    rw [holds.1.root]
    exact (WalletRoot.chainKeyAt_natCast env caching.root index 1).symm
  · exact fun _ _ _ _ holds lists => { holds with changeKeys := lists }

theorem embeds_getReceivingAddress :
    Agree Embeds (getReceivingAddress env index) (CachingWallet.getReceivingAddress env index) :=
  embeds_getReceivingKey.bind fun _ => .reading fun _ _ _ => rfl

theorem embeds_getPqAddress : Agree Embeds (getPqAddress env index)
    (CachingWallet.getPqAddress env index mainnetBech32Hrp) := by
  apply agree_storedOr Nat.cast_injective
  · exact fun _ _ holds => holds.pqAddresses
  · apply Agree.bind
    · apply agree_getPqKey
      · exact fun _ _ holds => holds.1
      · exact fun _ _ _ _ holds lists => ⟨{ holds.1 with pqKeys := lists }, holds.2⟩
    · exact fun _ => .reading fun _ _ _ => rfl
  · exact fun _ _ _ _ holds lists => { holds with pqAddresses := lists }

theorem embeds_getHybridAddress : Agree Embeds (getHybridAddress env index)
    (CachingWallet.getHybridAddress env index mainnetBech32Hrp) := by
  apply agree_storedOr Nat.cast_injective
  · exact fun _ _ holds => holds.hybridAddresses
  · apply Agree.bind
    · apply agree_getReceivingKey
      · exact fun _ _ holds => holds.1
      · exact fun _ _ _ _ holds lists => ⟨{ holds.1 with receivingKeys := lists }, holds.2⟩
    · intro secpKey
      apply Agree.bind
      · apply agree_getPqKey
        · exact fun _ _ holds => holds.1
        · exact fun _ _ _ _ holds lists => ⟨{ holds.1 with pqKeys := lists }, holds.2⟩
      · exact fun _ => .reading fun _ _ _ => rfl
  · exact fun _ _ _ _ holds lists => { holds with hybridAddresses := lists }

theorem embeds_deriveFirst (indices : List Nat) : Agree Embeds (deriveFirst env indices)
    (CachingWallet.deriveFirst env (indices.map fun index : Nat => (index : Int))) := by
  induction indices with
  | nil => exact .pure ()
  | cons index indices ih =>
      apply embeds_getReceivingAddress.bind
      intro receiving
      apply embeds_getPqAddress.bind
      intro pq
      apply embeds_getHybridAddress.bind
      intro hybrid
      exact ih

/-! ## The searches -/

variable {address : List Char}

/-- Both searches have found results that belong together, or both have missed. -/
def FoundSame {γ δ : Type} (same : γ → δ → Prop) (missed : HDWallet → CachingWallet → Prop) :
    Option γ → Option δ → HDWallet → CachingWallet → Prop :=
  Found (fun result result' wallet caching => same result result' ∧ Embeds wallet caching) missed

theorem simulates_keyWithAddress
    (embeds : ∀ wallet caching, related wallet caching → Embeds wallet caching)
    (entry : Int × HDKey) :
    Simulates related (keyWithAddress env address entry.2)
      (visit (CachingWallet.hasAddress env address) (fun _ key => return key) entry)
      (FoundSame Eq related) Embeds := by
  intro wallet caching holds
  unfold keyWithAddress visit CachingWallet.hasAddress
  cases entry.2.getAddress env.prim with
  | error raised => exact .error (embeds wallet caching holds)
  | ok found =>
      by_cases isAddress : found = address
      · simp only [isAddress, Except.map, if_true, decide_true]
        exact .ok ⟨rfl, embeds wallet caching holds⟩
      · simp only [isAddress, Except.map, if_false, decide_false]
        exact .ok holds

/-- The searches among the stored keys of a chain change neither wallet. -/
theorem simulates_scan {keys : HDWallet → List (Nat × HDKey)}
    {dict : CachingWallet → Dict Int HDKey} {values : List HDKey}
    (embeds : ∀ wallet caching, related wallet caching → Embeds wallet caching)
    (lists : ∀ wallet caching, Embeds wallet caching → Embedded (keys wallet) (dict caching))
    (valued : ∀ wallet caching, related wallet caching → (keys wallet).map Prod.snd = values) :
    Simulates related (searchFirst (keyWithAddress env address) values)
      (scan dict (CachingWallet.hasAddress env address) fun _ key => return key)
      (FoundSame Eq related) Embeds := by
  apply Simulates.look'
  intro entries
  have isImage (wallet : HDWallet) (caching : CachingWallet)
      (holds : (dict caching).entries = entries ∧ related wallet caching) :
      values = entries.map Prod.snd := by
    have listed := lists wallet caching (embeds wallet caching holds.2)
    rw [← valued wallet caching holds.2, ← holds.1, listed, List.map_map]
    rfl
  apply Simulates.since isImage
  rintro rfl
  apply Simulates.starting fun _ _ holds => holds.2
  apply Simulates.searchFirst
  apply List.forall₂_map_left_iff.mpr
  exact List.forall₂_same.mpr fun entry _ => simulates_keyWithAddress embeds entry

theorem embeds_findKeyForAddress :
    Simulates Embeds (findKeyForAddress env address) (CachingWallet.findKeyForAddress env address)
      (FoundSame Eq Embeds) Embeds := by
  apply Simulates.look
  intro receiving
  apply Simulates.look
  intro change
  apply Simulates.otherwise
  · apply simulates_scan
    · exact fun _ _ holds => holds.2.2
    · exact fun _ _ holds => holds.receivingKeys
    · exact fun _ _ holds => holds.2.1
  apply Simulates.otherwise
  · apply simulates_scan
    · exact fun _ _ holds => holds.2.2
    · exact fun _ _ holds => holds.changeKeys
    · exact fun _ _ holds => holds.1
  apply simulates_lookAhead
  · intro wallet caching holds
    rw [holds.2.2.receivingKeys.length, ← holds.2.1, List.length_map]
  · exact fun _ _ holds => holds.2.2
  · rfl
  · intro index
    apply Simulates.bind embeds_getReceivingKey
    intro key key'
    apply Simulates.assuming
    rintro rfl
    exact simulates_keyWithAddress (fun _ _ holds => holds) (index, key)

theorem embeds_storedPqKey :
    Agree Embeds (storedPqKey index) (CachingWallet.storedPqKey index) := by
  apply Agree.reading
  intro wallet caching holds
  rw [holds.pqKeys.get? Nat.cast_injective]
  rfl

theorem embeds_findPqKeyForAddress :
    Simulates Embeds (findPqKeyForAddress env address)
      (CachingWallet.findPqKeyForAddress env address)
      (FoundSame (fun key indexed => key = indexed.2) Embeds) Embeds := by
  apply simulates_findAhead
  · exact fun _ _ holds => holds.pqAddresses
  · exact fun _ => rfl
  · exact fun _ => embeds_getPqAddress
  · intro index value
    rw [← bind_pure (storedPqKey index)]
    apply Simulates.bind embeds_storedPqKey
    intro key key'
    exact .pure fun _ _ holds => holds

theorem embeds_findHybridKeysForAddress :
    Simulates Embeds (findHybridKeysForAddress env address)
      (CachingWallet.findHybridKeysForAddress env address)
      (FoundSame (fun keys indexed => keys = indexed.2) Embeds) Embeds := by
  apply simulates_findAhead
  · exact fun _ _ holds => holds.hybridAddresses
  · exact fun _ => rfl
  · exact fun _ => embeds_getHybridAddress
  · intro index value
    apply Simulates.bind embeds_getReceivingKey
    intro secpKey secpKey'
    apply Simulates.assuming
    rintro rfl
    apply Simulates.bind embeds_storedPqKey
    intro pqKey pqKey'
    exact .pure fun _ _ holds => ⟨congrArg (Prod.mk secpKey) holds.1, holds.2⟩

/-! ## Runs -/

/-- A call of a method with indices from zero and the first prefix. -/
inductive Request
  | getReceivingKey (index : Nat)
  | getChangeKey (index : Nat)
  | getPqKey (index : Nat)
  | getPqAddress (index : Nat)
  | getHybridAddress (index : Nat)
  | findKeyForAddress (address : List Char)
  | findPqKeyForAddress (address : List Char)
  | findHybridKeysForAddress (address : List Char)

/-- The same call of the other wallet. -/
def Request.toCall : Request → CachingWallet.Call
  | .getReceivingKey index => .getReceivingKey index
  | .getChangeKey index => .getChangeKey index
  | .getPqKey index => .getPqKey index
  | .getPqAddress index => .getPqAddress index mainnetBech32Hrp
  | .getHybridAddress index => .getHybridAddress index mainnetBech32Hrp
  | .findKeyForAddress address => .findKeyForAddress address
  | .findPqKeyForAddress address => .findPqKeyForAddress address
  | .findHybridKeysForAddress address => .findHybridKeysForAddress address

/-- The wallet after a call, which may have raised. -/
def afterRequest (env : WalletEnvironment) (wallet : HDWallet) : Request → HDWallet
  | .getReceivingKey index => finalState (getReceivingKey env index wallet)
  | .getChangeKey index => finalState (getChangeKey env index wallet)
  | .getPqKey index => finalState (getPqKey env index wallet)
  | .getPqAddress index => finalState (getPqAddress env index wallet)
  | .getHybridAddress index => finalState (getHybridAddress env index wallet)
  | .findKeyForAddress address => finalState (findKeyForAddress env address wallet)
  | .findPqKeyForAddress address => finalState (findPqKeyForAddress env address wallet)
  | .findHybridKeysForAddress address => finalState (findHybridKeysForAddress env address wallet)

/-- The wallet after some calls. -/
def afterRequests (env : WalletEnvironment) (wallet : HDWallet) (requests : List Request) :
    HDWallet :=
  requests.foldl (afterRequest env) wallet

variable {wallet : HDWallet} {caching : CachingWallet}

theorem FoundSame.embeds {γ δ : Type} {same : γ → δ → Prop} (result : Option γ)
    (result' : Option δ) (wallet : HDWallet) (caching : CachingWallet)
    (found : FoundSame same Embeds result result' wallet caching) : Embeds wallet caching := by
  cases result with
  | none =>
      cases result' with
      | none => exact found
      | some value' => exact found.elim
  | some value =>
      cases result' with
      | none => exact found.elim
      | some value' => exact found.2

theorem Embeds.afterRequest (embeds : Embeds wallet caching) (request : Request) :
    Embeds (wallet.afterRequest env request) (caching.afterCall env request.toCall) := by
  cases request with
  | getReceivingKey index => exact embeds_getReceivingKey.final embeds
  | getChangeKey index => exact embeds_getChangeKey.final embeds
  | getPqKey index => exact embeds_getPqKey.final embeds
  | getPqAddress index => exact embeds_getPqAddress.final embeds
  | getHybridAddress index => exact embeds_getHybridAddress.final embeds
  | findKeyForAddress address =>
      exact embeds_findKeyForAddress.final FoundSame.embeds (fun _ _ holds => holds) embeds
  | findPqKeyForAddress address =>
      exact embeds_findPqKeyForAddress.final FoundSame.embeds (fun _ _ holds => holds) embeds
  | findHybridKeysForAddress address =>
      exact embeds_findHybridKeysForAddress.final FoundSame.embeds (fun _ _ holds => holds) embeds

theorem Embeds.afterRequests (embeds : Embeds wallet caching) (requests : List Request) :
    Embeds (wallet.afterRequests env requests)
      (caching.afterCalls env (requests.map Request.toCall)) := by
  induction requests generalizing wallet caching with
  | nil => exact embeds
  | cons request requests ih => exact ih (embeds.afterRequest request)

/-- The wallets that are created are related. -/
theorem exists_embeds_of_new {mnemonic passphrase : String} {accountIndex : Int}
    (created : new env mnemonic passphrase accountIndex = .ok wallet) :
    ∃ caching, CachingWallet.new env mnemonic passphrase accountIndex = .ok caching ∧
      Embeds wallet caching := by
  obtain ⟨root, isRoot, derived⟩ := except_bind_eq_ok.mp created
  have alike := @embeds_deriveFirst env (List.range 5) _ _ (embeds_unused root)
  have indices : (List.range 5).map (fun index : Nat => (index : Int)) = [0, 1, 2, 3, 4] := rfl
  rw [indices] at alike
  unfold CachingWallet.new
  rw [isRoot]
  simp only [bind, Except.bind]
  generalize deriveFirst env (List.range 5) _ = outcome,
    CachingWallet.deriveFirst env _ _ = outcome' at alike derived ⊢
  cases alike with
  | error holds => cases derived
  | ok holds =>
      cases derived
      exact ⟨_, rfl, holds.2⟩

/-! ## Calls in order -/

/-- An index is cached or comes next. -/
def InOrder {β : Type} (entries : List (Nat × β)) (index : Nat) : Prop :=
  (entries.lookup index).isSome ∨ index = entries.length

/-- A call that skips no index. -/
def Steady (wallet : HDWallet) : Request → Prop
  | .getReceivingKey index => InOrder wallet.receivingKeys index
  | .getPqAddress index => InOrder wallet.pqAddresses index
  | .getHybridAddress index => InOrder wallet.hybridAddresses index
  | .getChangeKey _ | .getPqKey _ | .findKeyForAddress _ | .findPqKeyForAddress _
  | .findHybridKeysForAddress _ => True

/-- A run of such calls. -/
def SteadyRun (env : WalletEnvironment) : HDWallet → List Request → Prop
  | _, [] => True
  | wallet, request :: requests =>
      Steady wallet request ∧ SteadyRun env (wallet.afterRequest env request) requests

theorem inOrder_of_embedded {β : Type} {entries : List (Nat × β)} {dict : Dict Int β}
    (lists : Embedded entries dict) (inOrder : InOrder entries index) :
    CachingWallet.InOrder dict index := by
  rcases inOrder with stored | rfl
  · left
    rw [lists.get? Nat.cast_injective]
    exact stored
  · right
    rw [lists.length]

theorem Embeds.steady (embeds : Embeds wallet caching) {request : Request}
    (steady : Steady wallet request) : caching.Steady request.toCall := by
  cases request with
  | getReceivingKey index => exact inOrder_of_embedded embeds.receivingKeys steady
  | getPqAddress index => exact ⟨inOrder_of_embedded embeds.pqAddresses steady, rfl⟩
  | getHybridAddress index => exact ⟨inOrder_of_embedded embeds.hybridAddresses steady, rfl⟩
  | _ => exact True.intro

theorem Embeds.steadyRun (embeds : Embeds wallet caching) {requests : List Request}
    (steady : SteadyRun env wallet requests) :
    CachingWallet.SteadyRun env caching (requests.map Request.toCall) := by
  induction requests generalizing wallet caching with
  | nil => exact True.intro
  | cons request requests ih =>
      exact ⟨embeds.steady steady.1, ih (embeds.afterRequest request) steady.2⟩

/-- The lookups find the keys of the first fifty addresses of each kind. -/
structure FindsAll (env : WalletEnvironment) (wallet : HDWallet) : Prop where
  receiving : ∀ index < 50, ∀ address key,
    wallet.root.address env .receiving index = .ok address →
    wallet.root.receivingKey env index = .ok key →
    returned (findKeyForAddress env address wallet) = .ok (some key)
  pq : ∀ index < 50, ∀ address key,
    wallet.root.address env .pq index = .ok address → wallet.root.pqKey env index = .ok key →
    returned (findPqKeyForAddress env address wallet) = .ok (some key)
  hybrid : ∀ index < 50, ∀ address secpKey pqKey,
    wallet.root.address env .hybrid index = .ok address →
    wallet.root.receivingKey env index = .ok secpKey → wallet.root.pqKey env index = .ok pqKey →
    returned (findHybridKeysForAddress env address wallet) = .ok (some (secpKey, pqKey))

/-- What is found is the image of what the other wallet finds. -/
theorem FoundSame.image {γ δ : Type} {image : δ → γ} (result : Option γ) (result' : Option δ)
    (wallet : HDWallet) (caching : CachingWallet)
    (found : FoundSame (fun value value' => value = image value') Embeds result result' wallet
      caching) : result = result'.map image := by
  cases result with
  | none =>
      cases result' with
      | none => rfl
      | some value' => exact found.elim
  | some value =>
      cases result' with
      | none => exact found.elim
      | some value' => exact congrArg some found.1

theorem Embeds.findsAll (embeds : Embeds wallet caching) (finds : caching.FindsAll env) :
    wallet.FindsAll env where
  receiving index small address key isAddress isKey := by
    rw [embeds.root, ← WalletRoot.addressAt_natCast] at isAddress
    rw [embeds.root] at isKey
    rw [embeds_findKeyForAddress.returned_eq FoundSame.image embeds,
      finds.receiving index small address key isAddress isKey]
    rfl
  pq index small address key isAddress isKey := by
    rw [embeds.root, ← WalletRoot.addressAt_natCast] at isAddress
    rw [embeds.root, ← WalletRoot.pqKeyAt_natCast] at isKey
    rw [embeds_findPqKeyForAddress.returned_eq FoundSame.image embeds,
      finds.pq index small address key isAddress isKey]
    rfl
  hybrid index small address secpKey pqKey isAddress isSecpKey isPqKey := by
    rw [embeds.root, ← WalletRoot.addressAt_natCast] at isAddress
    rw [embeds.root] at isSecpKey
    rw [embeds.root, ← WalletRoot.pqKeyAt_natCast] at isPqKey
    rw [embeds_findHybridKeysForAddress.returned_eq FoundSame.image embeds,
      finds.hybrid index small address secpKey pqKey isAddress isSecpKey isPqKey]
    rfl

/-- After calls in order, the lookups find the keys of the first fifty addresses. -/
theorem findsAll_of_steadyRun {mnemonic passphrase : String} {accountIndex : Int}
    (created : new env mnemonic passphrase accountIndex = .ok wallet)
    (injective : CachingWallet.InjectiveDerivation env wallet.root) {requests : List Request}
    (steady : SteadyRun env wallet requests) :
    (wallet.afterRequests env requests).FindsAll env := by
  obtain ⟨caching, created', embeds⟩ := exists_embeds_of_new created
  obtain ⟨isRoot, -, -⟩ := CachingWallet.exists_of_new created'
  have ordered := (CachingWallet.ordered_new created').afterCalls (embeds.steadyRun steady)
  rw [embeds.root] at injective
  have finds := (CachingWallet.findsAll_iff injective (isPrivate_new isRoot)
    ordered.consistent).mpr ordered.searchable
  exact (embeds.afterRequests requests).findsAll finds

end HDWallet

end QuantyCoin
