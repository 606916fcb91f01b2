import QuantyCoin.OrderedDict
import QuantyCoin.WalletCaches

/-!
# The caches of a wallet

`HDWallet` of `wallet/hd_wallet.py` once more, with its five dictionaries as they are:
an index is any integer, and an address has any prefix `hrp`.  The dictionaries of
addresses have an entry for an index, whatever prefix was asked for.
-/

namespace QuantyCoin

open OrderedDict StateTriples

/-! ## Derived values -/

namespace WalletRoot

variable (env : WalletEnvironment)

/-- The key of a chain of the account. -/
def chainKeyAt (chain : Nat) (root : WalletRoot) (index : Int) : Except PyException HDKey := do
  let node ← root.accountNode.deriveChild env.hmacSha512 env.prim.hash160 chain
  node.deriveChild env.hmacSha512 env.prim.hash160 index

/-- The ML-DSA key with an index. -/
def pqKeyAt (root : WalletRoot) (index : Int) : Except PyException MLDSAKey :=
  let path := "m/44'/999'/" ++ toString root.accountIndex ++ "'/pq/" ++ toString index
  env.mldsaFromSeed (env.prim.sha256 (root.seed ++ path.toUTF8.toList))

/-- The witness program of an address. -/
def programAt (root : WalletRoot) : AddressKind → Int → Except PyException Bytes
  | .receiving, index => do keyProgram env (← root.chainKeyAt env 0 index)
  | .change, index => do keyProgram env (← root.chainKeyAt env 1 index)
  | .pq, index => do
      let key ← root.pqKeyAt env index
      .ok (env.prim.sha256 key.publicKey)
  | .hybrid, index => do
      let secpKey ← root.chainKeyAt env 0 index
      let pqKey ← root.pqKeyAt env index
      hybridProgram env secpKey pqKey

/-- The address of a kind with a prefix and an index. -/
def addressAt (root : WalletRoot) (kind : AddressKind) (hrp : List Char) (index : Int) :
    Except PyException (List Char) := do
  encodeSegwitAddress hrp kind.version (← root.programAt env kind index)

variable {env} {root : WalletRoot} {hrp : List Char} {index : Int}

theorem addressAt_pq : root.addressAt env .pq hrp index =
    root.pqKeyAt env index >>= fun key =>
      encodeSegwitAddress hrp 1 (env.prim.sha256 key.publicKey) := by
  rw [addressAt, programAt, bind_assoc]
  rfl

theorem addressAt_hybrid : root.addressAt env .hybrid hrp index =
    root.chainKeyAt env 0 index >>= fun secpKey => root.pqKeyAt env index >>= fun pqKey =>
      hybridProgram env secpKey pqKey >>= encodeSegwitAddress hrp 2 := by
  rw [addressAt, programAt, bind_assoc]
  congr 1
  funext secpKey
  rw [bind_assoc]
  rfl

end WalletRoot

/-! ## The wallet -/

/-- `HDWallet`. -/
structure CachingWallet where
  root : WalletRoot
  receivingKeys : Dict Int HDKey
  changeKeys : Dict Int HDKey
  pqKeys : Dict Int MLDSAKey
  pqAddresses : Dict Int (List Char)
  hybridAddresses : Dict Int (List Char)

/-- The methods of a wallet. -/
abbrev CachingM := EStateM PyException CachingWallet

namespace CachingWallet

variable (env : WalletEnvironment)

def getReceivingKey (index : Int) : CachingM HDKey :=
  cached receivingKeys (fun wallet keys => { wallet with receivingKeys := keys }) index <|
    reading fun wallet => wallet.root.chainKeyAt env 0 index

def getChangeKey (index : Int) : CachingM HDKey :=
  cached changeKeys (fun wallet keys => { wallet with changeKeys := keys }) index <|
    reading fun wallet => wallet.root.chainKeyAt env 1 index

def getReceivingAddress (index : Int) : CachingM (List Char) := do
  let key ← getReceivingKey env index
  reading fun _ => key.getAddress env.prim

def getPqKey (index : Int) : CachingM MLDSAKey :=
  cached pqKeys (fun wallet keys => { wallet with pqKeys := keys }) index <|
    reading fun wallet => wallet.root.pqKeyAt env index

def getPqAddress (index : Int) (hrp : List Char) : CachingM (List Char) :=
  cached pqAddresses (fun wallet addresses => { wallet with pqAddresses := addresses }) index do
    let key ← getPqKey env index
    reading fun _ => encodeSegwitAddress hrp 1 (env.prim.sha256 key.publicKey)

def getHybridAddress (index : Int) (hrp : List Char) : CachingM (List Char) :=
  cached hybridAddresses (fun wallet addresses => { wallet with hybridAddresses := addresses })
    index do
      let secpKey ← getReceivingKey env index
      let pqKey ← getPqKey env index
      reading fun _ => do
        encodeSegwitAddress hrp 2 (← WalletRoot.hybridProgram env secpKey pqKey)

/-- The loop of `__init__` over the first addresses. -/
def deriveFirst : List Int → CachingM Unit
  | [] => return ()
  | index :: indices => do
      let _ ← getReceivingAddress env index
      let _ ← getPqAddress env index mainnetBech32Hrp
      let _ ← getHybridAddress env index mainnetBech32Hrp
      deriveFirst indices

/-- A wallet that has derived nothing. -/
def unused (root : WalletRoot) : CachingWallet := ⟨root, .empty, .empty, .empty, .empty, .empty⟩

/-- `HDWallet(mnemonic, passphrase, account_index)`. -/
def new (mnemonic passphrase : String) (accountIndex : Int) :
    Except PyException CachingWallet := do
  let root ← WalletRoot.new env mnemonic passphrase accountIndex
  match deriveFirst env [0, 1, 2, 3, 4] (unused root) with
  | .ok _ wallet => .ok wallet
  | .error error _ => .error error

/-! ## Searches -/

/-- `range(count, count + 50)`. -/
def nextFifty (count : Nat) : List Int :=
  (List.range' count 50).map fun index : Nat => (index : Int)

/-- `key.get_address() == address`. -/
def hasAddress (address : List Char) (_index : Int) (key : HDKey) : Except PyException Bool :=
  (key.getAddress env.prim).map fun found => found = address

def findKeyForAddress (address : List Char) : CachingM (Option HDKey) :=
  otherwise (scan receivingKeys (hasAddress env address) fun _ key => return key) <|
    otherwise (scan changeKeys (hasAddress env address) fun _ key => return key) <|
      lookAhead receivingKeys nextFifty (getReceivingKey env) (hasAddress env address)
        fun _ key => return key

/-- `addr == address`. -/
def isAddress (address : List Char) (_index : Int) (found : List Char) :
    Except PyException Bool :=
  .ok (found = address)

/-- `self.pq_keys[index]`. -/
def storedPqKey (index : Int) : CachingM MLDSAKey :=
  reading fun wallet =>
    match wallet.pqKeys.get? index with
    | some key => .ok key
    | none => .error (.keyError (toString index))

def indexedPqKey (index : Int) (_address : List Char) : CachingM (Int × MLDSAKey) := do
  let key ← storedPqKey index
  return (index, key)

def findPqKeyForAddress (address : List Char) : CachingM (Option (Int × MLDSAKey)) :=
  otherwise (scan pqAddresses (isAddress address) indexedPqKey) <|
    lookAhead pqAddresses nextFifty (fun index => getPqAddress env index mainnetBech32Hrp)
      (isAddress address) indexedPqKey

def indexedHybridKeys (index : Int) (_address : List Char) : CachingM (Int × HDKey × MLDSAKey) := do
  let secpKey ← getReceivingKey env index
  let pqKey ← storedPqKey index
  return (index, secpKey, pqKey)

def findHybridKeysForAddress (address : List Char) :
    CachingM (Option (Int × HDKey × MLDSAKey)) :=
  otherwise (scan hybridAddresses (isAddress address) (indexedHybridKeys env)) <|
    lookAhead hybridAddresses nextFifty (fun index => getHybridAddress env index mainnetBech32Hrp)
      (isAddress address) (indexedHybridKeys env)

/-! ## Calls -/

/-- A call of a method. -/
inductive Call
  | getReceivingKey (index : Int)
  | getChangeKey (index : Int)
  | getPqKey (index : Int)
  | getPqAddress (index : Int) (hrp : List Char)
  | getHybridAddress (index : Int) (hrp : List Char)
  | findKeyForAddress (address : List Char)
  | findPqKeyForAddress (address : List Char)
  | findHybridKeysForAddress (address : List Char)

/-- The wallet after a call, which may have raised. -/
def afterCall (wallet : CachingWallet) : Call → CachingWallet
  | .getReceivingKey index => finalState (getReceivingKey env index wallet)
  | .getChangeKey index => finalState (getChangeKey env index wallet)
  | .getPqKey index => finalState (getPqKey env index wallet)
  | .getPqAddress index hrp => finalState (getPqAddress env index hrp wallet)
  | .getHybridAddress index hrp => finalState (getHybridAddress env index hrp wallet)
  | .findKeyForAddress address => finalState (findKeyForAddress env address wallet)
  | .findPqKeyForAddress address => finalState (findPqKeyForAddress env address wallet)
  | .findHybridKeysForAddress address => finalState (findHybridKeysForAddress env address wallet)

/-- The wallet after some calls. -/
def afterCalls (wallet : CachingWallet) (calls : List Call) : CachingWallet :=
  calls.foldl (afterCall env) wallet

/-! ## Consistent caches -/

/-- The entries are derived from the root, the addresses with some prefix. -/
structure Consistent (env : WalletEnvironment) (root : WalletRoot) (wallet : CachingWallet) :
    Prop where
  root_eq : wallet.root = root
  receiving : ∀ index key, wallet.receivingKeys.get? index = some key →
    root.chainKeyAt env 0 index = .ok key
  change : ∀ index key, wallet.changeKeys.get? index = some key →
    root.chainKeyAt env 1 index = .ok key
  pq : ∀ index key, wallet.pqKeys.get? index = some key → root.pqKeyAt env index = .ok key
  pqAddresses : ∀ index address, wallet.pqAddresses.get? index = some address →
    (wallet.pqKeys.get? index).isSome ∧ ∃ hrp, root.addressAt env .pq hrp index = .ok address
  hybridAddresses : ∀ index address, wallet.hybridAddresses.get? index = some address →
    (wallet.receivingKeys.get? index).isSome ∧ (wallet.pqKeys.get? index).isSome ∧
      ∃ hrp, root.addressAt env .hybrid hrp index = .ok address

variable {env} {root : WalletRoot} {wallet : CachingWallet} {index : Int} {hrp : List Char}
  {inv : CachingWallet → Prop}

theorem consistent_unused : (unused root).Consistent env root where
  root_eq := rfl
  receiving _ _ found := by cases found
  change _ _ found := by cases found
  pq _ _ found := by cases found
  pqAddresses _ _ found := by cases found
  hybridAddresses _ _ found := by cases found

/-- An entry of a dictionary with a new one. -/
theorem get?_set_cases {β : Type} {dict : Dict Int β} {value found : β} {other : Int}
    (new : dict.get? index = none) (stored : (dict.set index value).get? other = some found) :
    other = index ∧ found = value ∨ dict.get? other = some found := by
  by_cases same : other = index
  · rw [same, Dict.get?_set_self new] at stored
    exact .inl ⟨same, (Option.some.inj stored).symm⟩
  · rw [Dict.get?_set_of_ne new same] at stored
    exact .inr stored

/-- New entries hide no entry. -/
theorem isSome_get?_set {β : Type} {dict : Dict Int β} {value : β} {other : Int}
    (new : dict.get? index = none) (stored : (dict.get? other).isSome) :
    ((dict.set index value).get? other).isSome := by
  by_cases same : other = index
  · rw [same, Dict.get?_set_self new]
    rfl
  · rwa [Dict.get?_set_of_ne new same]

namespace Consistent

theorem storeReceiving (consistent : wallet.Consistent env root) {key : HDKey}
    (new : wallet.receivingKeys.get? index = none)
    (derived : root.chainKeyAt env 0 index = .ok key) :
    { wallet with receivingKeys := wallet.receivingKeys.set index key }.Consistent env root where
  __ := consistent
  receiving other found stored := by
    obtain ⟨rfl, rfl⟩ | old := get?_set_cases new stored
    · exact derived
    · exact consistent.receiving other found old
  hybridAddresses other address stored := by
    obtain ⟨keyed, rest⟩ := consistent.hybridAddresses other address stored
    exact ⟨isSome_get?_set new keyed, rest⟩

theorem storeChange (consistent : wallet.Consistent env root) {key : HDKey}
    (new : wallet.changeKeys.get? index = none)
    (derived : root.chainKeyAt env 1 index = .ok key) :
    { wallet with changeKeys := wallet.changeKeys.set index key }.Consistent env root where
  __ := consistent
  change other found stored := by
    obtain ⟨rfl, rfl⟩ | old := get?_set_cases new stored
    · exact derived
    · exact consistent.change other found old

theorem storePq (consistent : wallet.Consistent env root) {key : MLDSAKey}
    (new : wallet.pqKeys.get? index = none) (derived : root.pqKeyAt env index = .ok key) :
    { wallet with pqKeys := wallet.pqKeys.set index key }.Consistent env root where
  __ := consistent
  pq other found stored := by
    obtain ⟨rfl, rfl⟩ | old := get?_set_cases new stored
    · exact derived
    · exact consistent.pq other found old
  pqAddresses other address stored := by
    obtain ⟨keyed, rest⟩ := consistent.pqAddresses other address stored
    exact ⟨isSome_get?_set new keyed, rest⟩
  hybridAddresses other address stored := by
    obtain ⟨keyed, pqKeyed, rest⟩ := consistent.hybridAddresses other address stored
    exact ⟨keyed, isSome_get?_set new pqKeyed, rest⟩

theorem storePqAddress (consistent : wallet.Consistent env root) {address : List Char}
    (new : wallet.pqAddresses.get? index = none) (keyed : (wallet.pqKeys.get? index).isSome)
    (derived : root.addressAt env .pq hrp index = .ok address) :
    { wallet with pqAddresses := wallet.pqAddresses.set index address }.Consistent env root where
  __ := consistent
  pqAddresses other found stored := by
    obtain ⟨rfl, rfl⟩ | old := get?_set_cases new stored
    · exact ⟨keyed, hrp, derived⟩
    · exact consistent.pqAddresses other found old

theorem storeHybridAddress (consistent : wallet.Consistent env root) {address : List Char}
    (new : wallet.hybridAddresses.get? index = none)
    (keyed : (wallet.receivingKeys.get? index).isSome) (pqKeyed : (wallet.pqKeys.get? index).isSome)
    (derived : root.addressAt env .hybrid hrp index = .ok address) :
    { wallet with hybridAddresses := wallet.hybridAddresses.set index address }.Consistent env
      root where
  __ := consistent
  hybridAddresses other found stored := by
    obtain ⟨rfl, rfl⟩ | old := get?_set_cases new stored
    · exact ⟨keyed, pqKeyed, hrp, derived⟩
    · exact consistent.hybridAddresses other found old

end Consistent

/-! ## What the methods leave behind -/

/-- A key method returns the stored key, which is derived, or raises with the derivation. -/
theorem cachedKey_triple {β : Type} {keys : CachingWallet → Dict Int β}
    {update : CachingWallet → Dict Int β → CachingWallet}
    {derive : WalletRoot → Int → Except PyException β}
    (updated : ∀ wallet dict, keys (update wallet dict) = dict)
    (rooted : ∀ wallet, inv wallet → wallet.root = root)
    (stores : ∀ wallet key, inv wallet → (keys wallet).get? index = none →
      derive root index = .ok key → inv (update wallet ((keys wallet).set index key))) :
    Triple inv (cached keys update index (reading fun wallet => derive wallet.root index))
      (fun key wallet => (keys wallet).get? index = some key ∧ inv wallet)
      (fun wallet => (∀ key, derive root index ≠ .ok key) ∧ inv wallet) := by
  apply @cached_triple _ _ _ _ _ _ _ _ _ _ _ fun key wallet =>
    derive root index = .ok key ∧ (keys wallet).get? index = none ∧ inv wallet
  · exact fun wallet key holds found => ⟨found, holds⟩
  · apply Triple.computing
    · rintro wallet key ⟨holds, new⟩ derived
      rw [rooted wallet holds] at derived
      exact ⟨derived, new, holds⟩
    · rintro wallet error ⟨holds, new⟩ raised
      rw [rooted wallet holds] at raised
      exact ⟨fun key derived => by simp [derived] at raised, holds⟩
  · rintro wallet key ⟨derived, new, holds⟩
    rw [updated]
    exact ⟨Dict.get?_set_self new, stores wallet key holds new derived⟩

section Methods

variable (consistent : ∀ wallet, inv wallet → wallet.Consistent env root)
  (storesReceiving : ∀ wallet key, inv wallet → wallet.receivingKeys.get? index = none →
    root.chainKeyAt env 0 index = .ok key →
    inv { wallet with receivingKeys := wallet.receivingKeys.set index key })
  (storesPq : ∀ wallet key, inv wallet → wallet.pqKeys.get? index = none →
    root.pqKeyAt env index = .ok key →
    inv { wallet with pqKeys := wallet.pqKeys.set index key })

include consistent

include storesReceiving in
theorem getReceivingKey_triple : Triple inv (getReceivingKey env index)
    (fun key wallet => wallet.receivingKeys.get? index = some key ∧ inv wallet)
    (fun wallet => (∀ key, root.chainKeyAt env 0 index ≠ .ok key) ∧ inv wallet) :=
  cachedKey_triple (fun _ _ => rfl) (fun wallet holds => (consistent wallet holds).root_eq)
    storesReceiving

include storesPq in
theorem getPqKey_triple : Triple inv (getPqKey env index)
    (fun key wallet => wallet.pqKeys.get? index = some key ∧ inv wallet)
    (fun wallet => (∀ key, root.pqKeyAt env index ≠ .ok key) ∧ inv wallet) :=
  cachedKey_triple (fun _ _ => rfl) (fun wallet holds => (consistent wallet holds).root_eq)
    storesPq

include storesPq in
theorem getPqAddress_triple
    (stores : ∀ wallet address, inv wallet → wallet.pqAddresses.get? index = none →
      (wallet.pqKeys.get? index).isSome → root.addressAt env .pq hrp index = .ok address →
      inv { wallet with pqAddresses := wallet.pqAddresses.set index address }) :
    Triple inv (getPqAddress env index hrp)
      (fun address wallet => wallet.pqAddresses.get? index = some address ∧ inv wallet)
      (fun wallet => (∀ address, root.addressAt env .pq hrp index ≠ .ok address) ∧
        inv wallet) := by
  apply @cached_triple _ _ _ _ _ _ _ _ _ _ _ fun address wallet =>
    root.addressAt env .pq hrp index = .ok address ∧ (wallet.pqKeys.get? index).isSome ∧
      inv wallet ∧ wallet.pqAddresses.get? index = none
  · exact fun wallet address holds found => ⟨found, holds⟩
  · have keyed := @getPqKey_triple env root index
      (fun wallet => inv wallet ∧ wallet.pqAddresses.get? index = none)
      (fun wallet holds => consistent wallet holds.1)
      fun wallet key holds new derived => ⟨storesPq wallet key holds.1 new derived, holds.2⟩
    refine (Triple.consequence keyed (fun _ holds => holds) (fun _ _ holds => holds) ?_).bind ?_
    · rintro wallet ⟨underived, holds, -⟩
      refine ⟨fun address derived => ?_, holds⟩
      rw [WalletRoot.addressAt_pq] at derived
      obtain ⟨key, isKey, -⟩ := except_bind_eq_ok.mp derived
      exact underived key isKey
    · intro key
      apply Triple.computing
      · rintro wallet address ⟨stored, holds, new⟩ encoded
        have derived := (consistent wallet holds).pq index key stored
        refine ⟨?_, Option.isSome_of_eq_some stored, holds, new⟩
        rw [WalletRoot.addressAt_pq]
        exact except_bind_eq_ok.mpr ⟨key, derived, encoded⟩
      · rintro wallet error ⟨stored, holds, new⟩ raised
        have derived := (consistent wallet holds).pq index key stored
        refine ⟨fun address encoded => ?_, holds⟩
        rw [WalletRoot.addressAt_pq, derived] at encoded
        exact absurd (encoded.symm.trans raised) nofun
  · rintro wallet address ⟨derived, keyed, holds, new⟩
    exact ⟨Dict.get?_set_self new, stores wallet address holds new keyed derived⟩

include storesReceiving storesPq in
theorem getHybridAddress_triple
    (stores : ∀ wallet address, inv wallet → wallet.hybridAddresses.get? index = none →
      (wallet.receivingKeys.get? index).isSome → (wallet.pqKeys.get? index).isSome →
      root.addressAt env .hybrid hrp index = .ok address →
      inv { wallet with hybridAddresses := wallet.hybridAddresses.set index address }) :
    Triple inv (getHybridAddress env index hrp)
      (fun address wallet => wallet.hybridAddresses.get? index = some address ∧ inv wallet)
      (fun wallet => (∀ address, root.addressAt env .hybrid hrp index ≠ .ok address) ∧
        inv wallet) := by
  apply @cached_triple _ _ _ _ _ _ _ _ _ _ _ fun address wallet =>
    root.addressAt env .hybrid hrp index = .ok address ∧
      (wallet.receivingKeys.get? index).isSome ∧ (wallet.pqKeys.get? index).isSome ∧
      inv wallet ∧ wallet.hybridAddresses.get? index = none
  · exact fun wallet address holds found => ⟨found, holds⟩
  · have secpKeyed := @getReceivingKey_triple env root index
      (fun wallet => inv wallet ∧ wallet.hybridAddresses.get? index = none)
      (fun wallet holds => consistent wallet holds.1)
      fun wallet key holds new derived =>
        ⟨storesReceiving wallet key holds.1 new derived, holds.2⟩
    refine (Triple.consequence secpKeyed (fun _ holds => holds) (fun _ _ holds => holds)
      ?_).bind fun secpKey => ?_
    · rintro wallet ⟨underived, holds, -⟩
      refine ⟨fun address derived => ?_, holds⟩
      rw [WalletRoot.addressAt_hybrid] at derived
      obtain ⟨key, isKey, -⟩ := except_bind_eq_ok.mp derived
      exact underived key isKey
    have pqKeyed := @getPqKey_triple env root index
      (fun wallet => wallet.receivingKeys.get? index = some secpKey ∧ inv wallet ∧
        wallet.hybridAddresses.get? index = none)
      (fun wallet holds => consistent wallet holds.2.1)
      fun wallet key holds new derived =>
        ⟨holds.1, storesPq wallet key holds.2.1 new derived, holds.2.2⟩
    refine (Triple.consequence pqKeyed (fun _ holds => holds) (fun _ _ holds => holds)
      ?_).bind fun pqKey => ?_
    · rintro wallet ⟨underived, -, holds, -⟩
      refine ⟨fun address derived => ?_, holds⟩
      rw [WalletRoot.addressAt_hybrid] at derived
      obtain ⟨secpKey, -, later⟩ := except_bind_eq_ok.mp derived
      obtain ⟨key, isKey, -⟩ := except_bind_eq_ok.mp later
      exact underived key isKey
    have derived (wallet : CachingWallet) (holds : inv wallet)
        (stored : wallet.receivingKeys.get? index = some secpKey)
        (pqStored : wallet.pqKeys.get? index = some pqKey) :
        root.addressAt env .hybrid hrp index =
          WalletRoot.hybridProgram env secpKey pqKey >>= encodeSegwitAddress hrp 2 := by
      rw [WalletRoot.addressAt_hybrid, (consistent wallet holds).receiving index secpKey stored,
        (consistent wallet holds).pq index pqKey pqStored]
      rfl
    apply Triple.computing
    · rintro wallet address ⟨pqStored, stored, holds, new⟩ encoded
      exact ⟨(derived wallet holds stored pqStored).trans encoded,
        Option.isSome_of_eq_some stored, Option.isSome_of_eq_some pqStored, holds, new⟩
    · rintro wallet error ⟨pqStored, stored, holds, new⟩ raised
      refine ⟨fun address encoded => ?_, holds⟩
      rw [derived wallet holds stored pqStored] at encoded
      exact absurd (encoded.symm.trans raised) nofun
  · rintro wallet address ⟨derived, secpKeyed, pqKeyed, holds, new⟩
    exact ⟨Dict.get?_set_self new, stores wallet address holds new secpKeyed pqKeyed derived⟩

end Methods

/-! ## All calls -/

/-- A method that leaves the assertion, however it ends, keeps it. -/
theorem keeps_of_triple {α : Type} {method : CachingM α} {post : α → CachingWallet → Prop}
    {raised : CachingWallet → Prop}
    (triple : Triple inv method (fun value wallet => post value wallet ∧ inv wallet)
      fun wallet => raised wallet ∧ inv wallet) : Keeps inv method :=
  Triple.consequence triple (fun _ holds => holds) (fun _ _ holds => holds.2)
    fun _ holds => holds.2

/-- A method keeps a wallet consistent, also where it raises. -/
abbrev KeepsConsistent (env : WalletEnvironment) (root : WalletRoot) {α : Type}
    (method : CachingM α) : Prop :=
  Keeps (Consistent env root) method

theorem keeps_getReceivingKey (index : Int) :
    KeepsConsistent env root (getReceivingKey env index) :=
  keeps_of_triple <| getReceivingKey_triple (fun _ holds => holds) fun _ _ holds =>
    holds.storeReceiving

theorem keeps_getChangeKey (index : Int) : KeepsConsistent env root (getChangeKey env index) :=
  keeps_of_triple <| cachedKey_triple (fun _ _ => rfl) (fun _ holds => holds.root_eq)
    fun _ _ holds => holds.storeChange

theorem keeps_getPqKey (index : Int) : KeepsConsistent env root (getPqKey env index) :=
  keeps_of_triple <| getPqKey_triple (fun _ holds => holds) fun _ _ holds => holds.storePq

theorem keeps_getPqAddress (index : Int) (hrp : List Char) :
    KeepsConsistent env root (getPqAddress env index hrp) :=
  keeps_of_triple <| getPqAddress_triple (fun _ holds => holds)
    (fun _ _ holds => holds.storePq) fun _ _ holds => holds.storePqAddress

theorem keeps_getHybridAddress (index : Int) (hrp : List Char) :
    KeepsConsistent env root (getHybridAddress env index hrp) :=
  keeps_of_triple <| getHybridAddress_triple (fun _ holds => holds)
    (fun _ _ holds => holds.storeReceiving) (fun _ _ holds => holds.storePq)
    fun _ _ holds => holds.storeHybridAddress

theorem keeps_getReceivingAddress (index : Int) :
    KeepsConsistent env root (getReceivingAddress env index) :=
  (keeps_getReceivingKey index).bind fun _ => .reading _

theorem keeps_deriveFirst (indices : List Int) :
    KeepsConsistent env root (deriveFirst env indices) := by
  induction indices with
  | nil => exact .pure ()
  | cons index indices ih =>
      refine (keeps_getReceivingAddress index).bind fun _ => ?_
      refine (keeps_getPqAddress index _).bind fun _ => ?_
      exact (keeps_getHybridAddress index _).bind fun _ => ih

theorem keeps_indexedPqKey (index : Int) (address : List Char) :
    KeepsConsistent env root (indexedPqKey index address) :=
  (Keeps.reading _).bind fun _ => .pure _

theorem keeps_indexedHybridKeys (index : Int) (address : List Char) :
    KeepsConsistent env root (indexedHybridKeys env index address) :=
  (keeps_getReceivingKey index).bind fun _ => (Keeps.reading _).bind fun _ => .pure _

theorem keeps_findKeyForAddress (address : List Char) :
    KeepsConsistent env root (findKeyForAddress env address) :=
  (keeps_scan fun _ _ => .pure _).otherwise <| (keeps_scan fun _ _ => .pure _).otherwise <|
    keeps_lookAhead keeps_getReceivingKey fun _ _ => .pure _

theorem keeps_findPqKeyForAddress (address : List Char) :
    KeepsConsistent env root (findPqKeyForAddress env address) :=
  (keeps_scan keeps_indexedPqKey).otherwise <|
    keeps_lookAhead (fun index => keeps_getPqAddress index _) keeps_indexedPqKey

theorem keeps_findHybridKeysForAddress (address : List Char) :
    KeepsConsistent env root (findHybridKeysForAddress env address) :=
  (keeps_scan keeps_indexedHybridKeys).otherwise <|
    keeps_lookAhead (fun index => keeps_getHybridAddress index _) keeps_indexedHybridKeys

namespace Consistent

theorem afterCall (consistent : wallet.Consistent env root) (call : Call) :
    (wallet.afterCall env call).Consistent env root := by
  cases call with
  | getReceivingKey index => exact (keeps_getReceivingKey index).final consistent
  | getChangeKey index => exact (keeps_getChangeKey index).final consistent
  | getPqKey index => exact (keeps_getPqKey index).final consistent
  | getPqAddress index hrp => exact (keeps_getPqAddress index hrp).final consistent
  | getHybridAddress index hrp => exact (keeps_getHybridAddress index hrp).final consistent
  | findKeyForAddress address => exact (keeps_findKeyForAddress address).final consistent
  | findPqKeyForAddress address => exact (keeps_findPqKeyForAddress address).final consistent
  | findHybridKeysForAddress address =>
      exact (keeps_findHybridKeysForAddress address).final consistent

theorem afterCalls (consistent : wallet.Consistent env root) (calls : List Call) :
    (wallet.afterCalls env calls).Consistent env root := by
  induction calls generalizing wallet with
  | nil => exact consistent
  | cons call calls ih => exact ih (consistent.afterCall call)

end Consistent

/-- A new wallet, before its first calls. -/
theorem exists_of_new {mnemonic passphrase : String} {accountIndex : Int} {start : CachingWallet}
    (created : new env mnemonic passphrase accountIndex = .ok start) :
    WalletRoot.new env mnemonic passphrase accountIndex = .ok start.root ∧
      deriveFirst env [0, 1, 2, 3, 4] (unused start.root) = .ok () start ∧
      start.Consistent env start.root := by
  obtain ⟨root, isRoot, started⟩ := except_bind_eq_ok.mp created
  have empty : (unused root).Consistent env root := consistent_unused
  have keeps := (keeps_deriveFirst [0, 1, 2, 3, 4]).final empty
  cases derived : deriveFirst env [0, 1, 2, 3, 4] (unused root) with
  | error error after =>
      rw [derived] at started
      cases started
  | ok value after =>
      rw [derived] at started keeps
      cases started
      have consistent : start.Consistent env root := keeps
      rw [consistent.root_eq]
      exact ⟨isRoot, derived, consistent⟩

end CachingWallet

end QuantyCoin
