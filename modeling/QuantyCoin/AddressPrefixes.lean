import QuantyCoin.CachingWallet
import QuantyCoin.WalletRestore

/-!
# The prefixes of cached addresses

An address of a wallet is cached for its index alone.  A method returns the address with
the prefix that it is given, unless the cached address has another one.
-/

namespace QuantyCoin

open OrderedDict StateTriples

/-! ## Prefixes -/

/-- The part of an address before its last `1`. -/
def addressPrefix (address : List Char) : Option (List Char) :=
  (rfind '1' address).map fun pos => address.take pos

theorem addressPrefix_of_encode {hrp address : List Char} {version : Nat} {program : Bytes}
    (small : version < 32) (encoded : encodeSegwitAddress hrp version program = .ok address) :
    addressPrefix address = some hrp := by
  obtain ⟨characters, rest, encoded', spells, -⟩ :=
    exists_encodeSegwitAddress_spells hrp small program
  rw [encoded] at encoded'
  have noOne : '1' ∉ characters := fun member => one_notMem_charset (spells.coded _ member)
  rw [Except.ok.inj encoded', addressPrefix, rfind_append_cons hrp noOne, Option.map_some,
    List.take_left]

theorem AddressKind.version_lt (kind : AddressKind) : kind.version < 32 := by
  cases kind <;> decide

theorem WalletRoot.addressPrefix_of_addressAt {env : WalletEnvironment} {root : WalletRoot}
    {kind : AddressKind} {hrp address : List Char} {index : Int}
    (derived : root.addressAt env kind hrp index = .ok address) :
    addressPrefix address = some hrp := by
  obtain ⟨program, -, encoded⟩ := except_bind_eq_ok.mp derived
  exact addressPrefix_of_encode kind.version_lt encoded

/-- A derived address is the one with a prefix if it has that prefix. -/
theorem WalletRoot.addressAt_eq_iff {env : WalletEnvironment} {root : WalletRoot}
    {kind : AddressKind} {hrp address : List Char} {index : Int}
    (derived : ∃ hrp, root.addressAt env kind hrp index = .ok address) :
    .ok address = root.addressAt env kind hrp index ↔ addressPrefix address = some hrp := by
  constructor
  · exact fun same => addressPrefix_of_addressAt same.symm
  · obtain ⟨stored, derived⟩ := derived
    intro isPrefix
    rw [addressPrefix_of_addressAt derived] at isPrefix
    rw [← Option.some.inj isPrefix, derived]

namespace CachingWallet

variable {env : WalletEnvironment} {root : WalletRoot} {wallet : CachingWallet} {index : Int}
  {hrp : List Char}

/-! ## What the methods return -/

theorem returned_getReceivingKey (consistent : wallet.Consistent env root) :
    returned (getReceivingKey env index wallet) = root.chainKeyAt env 0 index := by
  unfold getReceivingKey
  cases stored : wallet.receivingKeys.get? index with
  | some key => rw [returned_cached_of_some stored, consistent.receiving index key stored]
  | none => rw [returned_cached_of_none stored, returned_reading, consistent.root_eq]

theorem returned_getPqKey (consistent : wallet.Consistent env root) :
    returned (getPqKey env index wallet) = root.pqKeyAt env index := by
  unfold getPqKey
  cases stored : wallet.pqKeys.get? index with
  | some key => rw [returned_cached_of_some stored, consistent.pq index key stored]
  | none => rw [returned_cached_of_none stored, returned_reading, consistent.root_eq]

theorem returned_getPqAddress_of_none (consistent : wallet.Consistent env root)
    (new : wallet.pqAddresses.get? index = none) :
    returned (getPqAddress env index hrp wallet) = root.addressAt env .pq hrp index := by
  rw [getPqAddress, returned_cached_of_none new, returned_bind, returned_getPqKey consistent,
    WalletRoot.addressAt_pq]
  simp only [returned_reading]

theorem returned_getHybridAddress_of_none (consistent : wallet.Consistent env root)
    (new : wallet.hybridAddresses.get? index = none) :
    returned (getHybridAddress env index hrp wallet) = root.addressAt env .hybrid hrp index := by
  have later := (keeps_getReceivingKey index).final consistent
  rw [getHybridAddress, returned_cached_of_none new, returned_bind,
    returned_getReceivingKey consistent, WalletRoot.addressAt_hybrid]
  congr 1
  funext secpKey
  rw [returned_bind, returned_getPqKey later]
  simp only [returned_reading]

theorem returned_getPqAddress_iff (consistent : wallet.Consistent env root) :
    returned (getPqAddress env index hrp wallet) = root.addressAt env .pq hrp index ↔
      ∀ stored, wallet.pqAddresses.get? index = some stored →
        addressPrefix stored = some hrp := by
  cases found : wallet.pqAddresses.get? index with
  | none => simp [returned_getPqAddress_of_none consistent found]
  | some stored =>
      have derived := (consistent.pqAddresses index stored found).2
      rw [getPqAddress, returned_cached_of_some found, WalletRoot.addressAt_eq_iff derived]
      simp

theorem returned_getHybridAddress_iff (consistent : wallet.Consistent env root) :
    returned (getHybridAddress env index hrp wallet) = root.addressAt env .hybrid hrp index ↔
      ∀ stored, wallet.hybridAddresses.get? index = some stored →
        addressPrefix stored = some hrp := by
  cases found : wallet.hybridAddresses.get? index with
  | none => simp [returned_getHybridAddress_of_none consistent found]
  | some stored =>
      have derived := (consistent.hybridAddresses index stored found).2.2
      rw [getHybridAddress, returned_cached_of_some found, WalletRoot.addressAt_eq_iff derived]
      simp

/-- After any calls, the methods return the addresses with the given prefix if, and only
if, no address with another prefix is cached for the index. -/
theorem addresses_transparent_iff (env : WalletEnvironment) {mnemonic passphrase : String}
    {accountIndex : Int} {start : CachingWallet}
    (created : new env mnemonic passphrase accountIndex = .ok start) (calls : List Call)
    (index : Int) (hrp : List Char) :
    (returned (getPqAddress env index hrp (start.afterCalls env calls)) =
        start.root.addressAt env .pq hrp index ↔
      ∀ stored, (start.afterCalls env calls).pqAddresses.get? index = some stored →
        addressPrefix stored = some hrp) ∧
    (returned (getHybridAddress env index hrp (start.afterCalls env calls)) =
        start.root.addressAt env .hybrid hrp index ↔
      ∀ stored, (start.afterCalls env calls).hybridAddresses.get? index = some stored →
        addressPrefix stored = some hrp) := by
  obtain ⟨-, -, consistent⟩ := exists_of_new created
  have later := consistent.afterCalls calls
  exact ⟨returned_getPqAddress_iff later, returned_getHybridAddress_iff later⟩

/-! ## An ignored prefix -/

open HDWallet in
/-- The constructor caches addresses with the first prefix. -/
theorem restoredWallet_caches : ∃ start,
    new restoreEnvironment restoreMnemonic "" 0 = .ok start ∧
      (start.pqAddresses.get? 0).map addressPrefix = some (some mainnetBech32Hrp) ∧
      (start.hybridAddresses.get? 0).map addressPrefix = some (some mainnetBech32Hrp) := by
  have derived : hasReturned (deriveFirst restoreEnvironment [0, 1, 2, 3, 4]
      (unused restoreRoot)) = true := by
    decide +kernel
  have stored : ((finalState (deriveFirst restoreEnvironment [0, 1, 2, 3, 4]
      (unused restoreRoot))).pqAddresses.get? 0).map addressPrefix =
        some (some mainnetBech32Hrp) := by
    decide +kernel
  have hybridStored : ((finalState (deriveFirst restoreEnvironment [0, 1, 2, 3, 4]
      (unused restoreRoot))).hybridAddresses.get? 0).map addressPrefix =
        some (some mainnetBech32Hrp) := by
    decide +kernel
  obtain ⟨value, start, returns⟩ := exists_of_hasReturned derived
  rw [returns] at stored hybridStored
  refine ⟨start, except_bind_eq_ok.mpr ⟨restoreRoot, restoreRoot_derived, ?_⟩, stored,
    hybridStored⟩
  rw [returns]

open HDWallet in
theorem restoredWallet_transparent : ∃ start,
    new restoreEnvironment restoreMnemonic "" 0 = .ok start ∧
      returned (getPqAddress restoreEnvironment 0 mainnetBech32Hrp
          (start.afterCalls restoreEnvironment [])) =
        start.root.addressAt restoreEnvironment .pq mainnetBech32Hrp 0 ∧
      returned (getHybridAddress restoreEnvironment 0 mainnetBech32Hrp
          (start.afterCalls restoreEnvironment [])) =
        start.root.addressAt restoreEnvironment .hybrid mainnetBech32Hrp 0 := by
  obtain ⟨start, created, pqPrefix, hybridPrefix⟩ := restoredWallet_caches
  obtain ⟨pqIff, hybridIff⟩ := addresses_transparent_iff restoreEnvironment created [] 0
    mainnetBech32Hrp
  refine ⟨start, created, pqIff.mpr fun stored found => ?_, hybridIff.mpr fun stored found => ?_⟩
  · change start.pqAddresses.get? 0 = some stored at found
    rw [found] at pqPrefix
    exact Option.some.inj pqPrefix
  · change start.hybridAddresses.get? 0 = some stored at found
    rw [found] at hybridPrefix
    exact Option.some.inj hybridPrefix

open HDWallet in
/-- A new wallet ignores the other prefix. -/
theorem otherPrefix_ignored : ∃ start,
    new restoreEnvironment restoreMnemonic "" 0 = .ok start ∧
      returned (getPqAddress restoreEnvironment 0 bech32AltHrp start) ≠
        start.root.addressAt restoreEnvironment .pq bech32AltHrp 0 ∧
      returned (getHybridAddress restoreEnvironment 0 bech32AltHrp start) ≠
        start.root.addressAt restoreEnvironment .hybrid bech32AltHrp 0 := by
  have different : mainnetBech32Hrp ≠ bech32AltHrp := by decide
  obtain ⟨start, created, pqPrefix, hybridPrefix⟩ := restoredWallet_caches
  obtain ⟨-, -, consistent⟩ := exists_of_new created
  obtain ⟨stored, found, isPrefix⟩ := Option.map_eq_some_iff.mp pqPrefix
  obtain ⟨hybridStored, hybridFound, isHybridPrefix⟩ := Option.map_eq_some_iff.mp hybridPrefix
  refine ⟨start, created, fun same => ?_, fun same => ?_⟩
  · have other := (returned_getPqAddress_iff consistent).mp same stored found
    exact different (Option.some.inj (isPrefix.symm.trans other))
  · have other := (returned_getHybridAddress_iff consistent).mp same hybridStored hybridFound
    exact different (Option.some.inj (isHybridPrefix.symm.trans other))

end CachingWallet

end QuantyCoin
