import QuantyCoin.WalletCaches

/-!
# The first keys of a wallet

The caches of a new wallet hold the first entries of their kinds.  What is asked for next
extends them, so that their lengths say which keys a wallet has derived.
-/

namespace QuantyCoin

open ByteDecoder DerivedCache PrimeCertificate Secp256k1 StateTriples

/-- How many entries the caches hold. -/
@[ext]
structure KeyCounts where
  receiving : Nat
  change : Nat
  pq : Nat
  pqAddresses : Nat
  hybrid : Nat
  deriving DecidableEq

namespace KeyCounts

variable (counts : KeyCounts) (count : Nat)

def receivingTo : KeyCounts := { counts with receiving := max counts.receiving count }

def changeTo : KeyCounts := { counts with change := max counts.change count }

def pqTo : KeyCounts := { counts with pq := max counts.pq count }

def pqAddressesTo : KeyCounts :=
  { counts with
    pq := max counts.pq count
    pqAddresses := max counts.pqAddresses count }

def hybridTo : KeyCounts :=
  { counts with
    receiving := max counts.receiving count
    pq := max counts.pq count
    hybrid := max counts.hybrid count }

/-- The numbers of entries in a new wallet. -/
def upTo (count : Nat) : KeyCounts := ⟨count, 0, count, count, count⟩

/-- The keys of all cached addresses are cached. -/
structure Ordered (counts : KeyCounts) : Prop where
  pqAddresses_le : counts.pqAddresses ≤ counts.pq
  hybrid_le : counts.hybrid ≤ counts.receiving
  hybrid_le_pq : counts.hybrid ≤ counts.pq

namespace Ordered

variable {counts : KeyCounts} (ordered : counts.Ordered) (count : Nat)
include ordered

theorem receivingTo : (counts.receivingTo count).Ordered where
  pqAddresses_le := ordered.pqAddresses_le
  hybrid_le := ordered.hybrid_le.trans (Nat.le_max_left _ _)
  hybrid_le_pq := ordered.hybrid_le_pq

theorem changeTo : (counts.changeTo count).Ordered where
  pqAddresses_le := ordered.pqAddresses_le
  hybrid_le := ordered.hybrid_le
  hybrid_le_pq := ordered.hybrid_le_pq

theorem pqTo : (counts.pqTo count).Ordered where
  pqAddresses_le := ordered.pqAddresses_le.trans (Nat.le_max_left _ _)
  hybrid_le := ordered.hybrid_le
  hybrid_le_pq := ordered.hybrid_le_pq.trans (Nat.le_max_left _ _)

theorem pqAddressesTo : (counts.pqAddressesTo count).Ordered where
  pqAddresses_le := max_le_max_right count ordered.pqAddresses_le
  hybrid_le := ordered.hybrid_le
  hybrid_le_pq := ordered.hybrid_le_pq.trans (Nat.le_max_left _ _)

theorem hybridTo : (counts.hybridTo count).Ordered where
  pqAddresses_le := ordered.pqAddresses_le.trans (Nat.le_max_left _ _)
  hybrid_le := max_le_max_right count ordered.hybrid_le
  hybrid_le_pq := max_le_max_right count ordered.hybrid_le_pq

theorem pqAddressesTo_self : counts.pqAddressesTo counts.pqAddresses = counts := by
  have below := ordered.pqAddresses_le
  ext <;> simp only [KeyCounts.pqAddressesTo] <;> omega

theorem pqAddressesTo_max :
    counts.pqAddressesTo (max counts.pqAddresses count) = counts.pqAddressesTo count := by
  have below := ordered.pqAddresses_le
  ext <;> simp only [KeyCounts.pqAddressesTo] <;> omega

theorem hybridTo_self : counts.hybridTo counts.hybrid = counts := by
  have below := ordered.hybrid_le
  have belowPq := ordered.hybrid_le_pq
  ext <;> simp only [KeyCounts.hybridTo] <;> omega

theorem hybridTo_max : counts.hybridTo (max counts.hybrid count) = counts.hybridTo count := by
  have below := ordered.hybrid_le
  have belowPq := ordered.hybrid_le_pq
  ext <;> simp only [KeyCounts.hybridTo] <;> omega

end Ordered

theorem Ordered.upTo (count : Nat) : (upTo count).Ordered :=
  ⟨Nat.le_refl count, Nat.le_refl count, Nat.le_refl count⟩

theorem pqAddressesTo_succ :
    (counts.pqAddressesTo count).pqAddressesTo (count + 1) = counts.pqAddressesTo (count + 1) := by
  ext <;> simp only [KeyCounts.pqAddressesTo] <;> omega

theorem hybridTo_succ :
    (counts.hybridTo count).hybridTo (count + 1) = counts.hybridTo (count + 1) := by
  ext <;> simp only [KeyCounts.hybridTo] <;> omega

theorem receivingTo_succ :
    (counts.receivingTo count).receivingTo (count + 1) = counts.receivingTo (count + 1) := by
  ext <;> simp only [KeyCounts.receivingTo]
  omega

theorem receivingTo_self : counts.receivingTo counts.receiving = counts := by
  rw [receivingTo, Nat.max_self]

theorem receivingTo_of_le {counts : KeyCounts} {count : Nat} (enough : count ≤ counts.receiving) :
    counts.receivingTo count = counts := by
  rw [receivingTo, Nat.max_eq_left enough]

theorem pqTo_zero : counts.pqTo 0 = counts := by
  rw [pqTo, Nat.max_eq_left (Nat.zero_le _)]

theorem pqTo_succ : (counts.pqTo count).pqTo (count + 1) = counts.pqTo (count + 1) := by
  ext <;> simp only [KeyCounts.pqTo]
  omega

end KeyCounts

/-- What a private node derives: a private child, whose scalar is not zero. -/
theorem HDKey.exists_of_deriveChild {hmacSha512 : Bytes → Bytes → Bytes} {hash160 : Bytes → Bytes}
    {node child : HDKey} {index : Int} (isPrivate : node.isPrivate = true)
    (derived : node.deriveChild hmacSha512 hash160 index = .ok child) :
    ∃ start suffix digest fingerprint, indexBytes index = .ok suffix ∧
      digest = hmacSha512 node.chainCode (start ++ suffix) ∧
      (beValue (digest.take 32) + beValue node.key) % N ≠ 0 ∧
      child = ⟨toBytesBig 32 ((beValue (digest.take 32) + beValue node.key) % N), digest.drop 32,
        node.depth + 1, index, fingerprint, true⟩ := by
  rw [deriveChild, if_pos isPrivate, derivePrivate] at derived
  split_ifs at derived
  all_goals
    obtain ⟨start, -, rest⟩ := except_bind_eq_ok.mp derived
    obtain ⟨suffix, written, rest⟩ := except_bind_eq_ok.mp rest
    simp only at rest
    split_ifs at rest with zero
    obtain ⟨fingerprint, -, isChild⟩ := except_bind_eq_ok.mp rest
    exact ⟨start, suffix, _, fingerprint, written, rfl, zero, (Except.ok.inj isChild).symm⟩

/-- A private node has private children. -/
theorem HDKey.isPrivate_deriveChild {hmacSha512 : Bytes → Bytes → Bytes} {hash160 : Bytes → Bytes}
    {node child : HDKey} {index : Int} (isPrivate : node.isPrivate = true)
    (derived : node.deriveChild hmacSha512 hash160 index = .ok child) : child.isPrivate = true := by
  obtain ⟨-, -, digest, fingerprint, -, -, -, rfl⟩ := exists_of_deriveChild isPrivate derived
  rfl

namespace HDWallet

variable {env : WalletEnvironment} {root : WalletRoot} {counts : KeyCounts} {wallet : HDWallet}
  {index : Nat}

/-- The caches hold the first entries of their kinds. -/
structure HoldsFirst (env : WalletEnvironment) (root : WalletRoot) (counts : KeyCounts)
    (wallet : HDWallet) : Prop where
  root_eq : wallet.root = root
  ordered : counts.Ordered
  receiving : FirstEntries (root.receivingKey env) counts.receiving wallet.receivingKeys
  change : FirstEntries (root.changeKey env) counts.change wallet.changeKeys
  pq : FirstEntries (root.pqKey env) counts.pq wallet.pqKeys
  pqAddresses : FirstEntries (root.address env .pq) counts.pqAddresses wallet.pqAddresses
  hybridAddresses : FirstEntries (root.address env .hybrid) counts.hybrid wallet.hybridAddresses

theorem HoldsFirst.consistent (holds : HoldsFirst env root counts wallet) :
    Consistent env root wallet where
  root_eq := holds.root_eq
  receiving := holds.receiving.sound
  change := holds.change.sound
  pq := holds.pq.sound
  pqAddresses := holds.pqAddresses.sound
  hybridAddresses := holds.hybridAddresses.sound

/-- A method derives what the root determines and leaves the given numbers of entries. -/
abbrev LeavesFirst (env : WalletEnvironment) (root : WalletRoot) {α : Type} (counts : KeyCounts)
    (method : WalletM α) (derived : Except PyException α) (after : KeyCounts) : Prop :=
  Yields (HoldsFirst env root counts) method derived (HoldsFirst env root after) fun _ => True

/-! ## Asking for an index -/

/-- A key method, by the entries that its cache has and gets. -/
theorem leavesFirst_key {β : Type} {keys : HDWallet → List (Nat × β)}
    {store : HDWallet → List (Nat × β) → HDWallet}
    {derive : WalletRoot → Nat → Except PyException β} {count : Nat} {after : KeyCounts}
    (next : index ≤ count)
    (first : ∀ wallet, HoldsFirst env root counts wallet →
      FirstEntries (derive root) count (keys wallet))
    (known : index < count → after = counts)
    (stores : index = count → ∀ wallet key, HoldsFirst env root counts wallet →
      derive root index = .ok key →
        HoldsFirst env root after (store wallet (keys wallet ++ [(index, key)]))) :
    LeavesFirst env root counts
      (storedOr keys store index (reading fun wallet => derive wallet.root index))
      (derive root index) after := by
  apply storedOr_first next first
  · intro old wallet holds
    rwa [known old]
  · intro new
    exact .reading (fun _ _ => True.intro) (fun _ holds => by rw [holds.root_eq])
      fun _ holds => holds
  · exact stores

theorem leavesFirst_getReceivingKey (next : index ≤ counts.receiving) :
    LeavesFirst env root counts (getReceivingKey env index) (root.receivingKey env index)
      (counts.receivingTo (index + 1)) := by
  apply leavesFirst_key next fun _ holds => holds.receiving
  · intro old
    rw [KeyCounts.receivingTo, Nat.max_eq_left old]
  · rintro rfl wallet key holds derived
    obtain ⟨root_eq, ordered, receiving, change, pq, pqAddresses, hybrid⟩ := holds
    refine ⟨root_eq, ordered.receivingTo _, ?_, change, pq, pqAddresses, hybrid⟩
    rw [KeyCounts.receivingTo, Nat.max_eq_right (Nat.le_succ _)]
    exact receiving.append derived

theorem leavesFirst_getChangeKey (next : index ≤ counts.change) :
    LeavesFirst env root counts (getChangeKey env index) (root.changeKey env index)
      (counts.changeTo (index + 1)) := by
  apply leavesFirst_key next fun _ holds => holds.change
  · intro old
    rw [KeyCounts.changeTo, Nat.max_eq_left old]
  · rintro rfl wallet key holds derived
    obtain ⟨root_eq, ordered, receiving, change, pq, pqAddresses, hybrid⟩ := holds
    refine ⟨root_eq, ordered.changeTo _, receiving, ?_, pq, pqAddresses, hybrid⟩
    rw [KeyCounts.changeTo, Nat.max_eq_right (Nat.le_succ _)]
    exact change.append derived

theorem leavesFirst_getPqKey (next : index ≤ counts.pq) :
    LeavesFirst env root counts (getPqKey env index) (root.pqKey env index)
      (counts.pqTo (index + 1)) := by
  apply leavesFirst_key next fun _ holds => holds.pq
  · intro old
    rw [KeyCounts.pqTo, Nat.max_eq_left old]
  · rintro rfl wallet key holds derived
    obtain ⟨root_eq, ordered, receiving, change, pq, pqAddresses, hybrid⟩ := holds
    refine ⟨root_eq, ordered.pqTo _, receiving, change, ?_, pqAddresses, hybrid⟩
    rw [KeyCounts.pqTo, Nat.max_eq_right (Nat.le_succ _)]
    exact pq.append derived

theorem leavesFirst_getPqAddress (ordered : counts.Ordered) (next : index ≤ counts.pqAddresses) :
    LeavesFirst env root counts (getPqAddress env index) (root.address env .pq index)
      (counts.pqAddressesTo (index + 1)) := by
  apply storedOr_first next fun _ holds => holds.pqAddresses
  · intro old wallet holds
    have oldKey : index + 1 ≤ counts.pq := Nat.le_trans old ordered.pqAddresses_le
    rwa [KeyCounts.pqAddressesTo, Nat.max_eq_left old, Nat.max_eq_left oldKey]
  · intro new
    rw [WalletRoot.address, WalletRoot.program, bind_assoc]
    apply (leavesFirst_getPqKey (Nat.le_trans next ordered.pqAddresses_le)).bind
    intro key _
    exact .reading (fun _ _ => True.intro) (fun _ _ => rfl) fun _ holds => holds
  · rintro rfl wallet key holds derived
    obtain ⟨root_eq, -, receiving, change, pq, pqAddresses, hybrid⟩ := holds
    refine ⟨root_eq, ordered.pqAddressesTo _, receiving, change, pq, ?_, hybrid⟩
    rw [KeyCounts.pqAddressesTo, Nat.max_eq_right (Nat.le_succ _)]
    exact pqAddresses.append derived

theorem leavesFirst_getHybridAddress (ordered : counts.Ordered) (next : index ≤ counts.hybrid) :
    LeavesFirst env root counts (getHybridAddress env index) (root.address env .hybrid index)
      (counts.hybridTo (index + 1)) := by
  apply storedOr_first next fun _ holds => holds.hybridAddresses
  · intro old wallet holds
    have oldKey : index + 1 ≤ counts.receiving := Nat.le_trans old ordered.hybrid_le
    have oldPqKey : index + 1 ≤ counts.pq := Nat.le_trans old ordered.hybrid_le_pq
    rwa [KeyCounts.hybridTo, Nat.max_eq_left old, Nat.max_eq_left oldKey, Nat.max_eq_left oldPqKey]
  · intro new
    rw [WalletRoot.address, WalletRoot.program, bind_assoc]
    apply (leavesFirst_getReceivingKey (Nat.le_trans next ordered.hybrid_le)).bind
    intro secpKey _
    rw [bind_assoc]
    have pqNext : index ≤ (counts.receivingTo (index + 1)).pq :=
      Nat.le_trans next ordered.hybrid_le_pq
    apply (leavesFirst_getPqKey pqNext).bind
    intro pqKey _
    exact .reading (fun _ _ => True.intro) (fun _ _ => rfl) fun _ holds => holds
  · rintro rfl wallet key holds derived
    obtain ⟨root_eq, -, receiving, change, pq, pqAddresses, hybrid⟩ := holds
    refine ⟨root_eq, ordered.hybridTo _, receiving, change, pq, pqAddresses, ?_⟩
    rw [KeyCounts.hybridTo, Nat.max_eq_right (Nat.le_succ _)]
    exact hybrid.append derived

/-! ## Matching indices -/

/-- The keys of a wallet are private, and the hashes have their lengths. -/
structure WellDerived (env : WalletEnvironment) (root : WalletRoot) : Prop where
  isPrivate : root.accountNode.isPrivate = true
  sha256_length : ∀ data, (env.prim.sha256 data).length = 32
  hash160_length : ∀ data, (env.prim.hash160 data).length = 20

theorem WellDerived.chainKey_isPrivate (derived : WellDerived env root) {chain : Nat} {key : HDKey}
    (isKey : root.chainKey env chain index = .ok key) : key.isPrivate = true := by
  obtain ⟨node, isNode, isChild⟩ := except_bind_eq_ok.mp isKey
  exact HDKey.isPrivate_deriveChild (HDKey.isPrivate_deriveChild derived.isPrivate isNode) isChild

/-- The program of an index is the given one. -/
def Matches (env : WalletEnvironment) (root : WalletRoot) (kind : AddressKind) (program : Bytes)
    (index : Nat) : Prop :=
  root.program env kind index = .ok program

instance (kind : AddressKind) (program : Bytes) (index : Nat) :
    Decidable (Matches env root kind program index) :=
  inferInstanceAs (Decidable (_ = _))

/-- The first matching index below a bound. -/
def firstMatch (env : WalletEnvironment) (root : WalletRoot) (kind : AddressKind)
    (program : Bytes) (bound : Nat) : Option Nat :=
  (List.range bound).find? fun index => Matches env root kind program index

theorem firstMatch_eq_some_iff {kind : AddressKind} {program : Bytes} {bound : Nat} :
    firstMatch env root kind program bound = some index ↔
      index < bound ∧ Matches env root kind program index ∧
        ∀ earlier < index, ¬ Matches env root kind program earlier := by
  rw [firstMatch, List.find?_range_eq_some]
  simp only [decide_eq_true_eq, List.mem_range, Bool.not_eq_true', decide_eq_false_iff_not]
  tauto

theorem firstMatch_eq_none_iff {kind : AddressKind} {program : Bytes} {bound : Nat} :
    firstMatch env root kind program bound = none ↔
      ∀ index < bound, ¬ Matches env root kind program index := by
  rw [firstMatch, List.find?_range_eq_none]
  simp only [Bool.not_eq_true', decide_eq_false_iff_not]

/-- The number of bytes of a program. -/
def programLength : AddressKind → Nat
  | .receiving | .change => 20
  | .pq | .hybrid => 32

/-- The address of a program. -/
structure Names (kind : AddressKind) (program : Bytes) (address : List Char) : Prop where
  encoded : encodeSegwitAddress mainnetBech32Hrp kind.version program = .ok address
  length : program.length = programLength kind

theorem WellDerived.program_length (derived : WellDerived env root) {kind : AddressKind}
    {program : Bytes} (isMatch : Matches env root kind program index) :
    program.length = programLength kind := by
  cases kind with
  | receiving | change =>
      obtain ⟨key, -, isProgram⟩ := except_bind_eq_ok.mp isMatch
      obtain ⟨pubkey, -, rfl⟩ := except_map_eq_ok.mp isProgram
      exact derived.hash160_length pubkey
  | pq =>
      obtain ⟨key, -, isProgram⟩ := except_bind_eq_ok.mp isMatch
      cases isProgram
      exact derived.sha256_length _
  | hybrid =>
      obtain ⟨secpKey, -, rest⟩ := except_bind_eq_ok.mp isMatch
      obtain ⟨pqKey, -, isProgram⟩ := except_bind_eq_ok.mp rest
      obtain ⟨pubkey, -, rfl⟩ := except_map_eq_ok.mp isProgram
      exact derived.sha256_length _

/-- An address is read back as its program. -/
theorem Names.addressWitness_eq {kind : AddressKind} {program : Bytes} {address : List Char}
    (names : Names kind program address) :
    addressWitness address = some (kind.version, program) := by
  have small : kind.version < 32 := by cases kind <;> decide
  have length : program.length = 20 ∨ program.length = 32 := by
    rw [names.length]
    cases kind <;> decide
  obtain ⟨characters, encoded, decoded⟩ := exists_witnessAddress small length
  cases names.encoded.symm.trans encoded
  exact decoded

theorem WellDerived.address_iff (derived : WellDerived env root) {kind : AddressKind}
    {program : Bytes} {address : List Char} (names : Names kind program address) :
    root.address env kind index = .ok address ↔ Matches env root kind program index := by
  constructor
  · intro isAddress
    obtain ⟨other, isMatch, encoded⟩ := except_bind_eq_ok.mp isAddress
    have otherNames : Names kind other address := ⟨encoded, derived.program_length isMatch⟩
    cases otherNames.addressWitness_eq.symm.trans names.addressWitness_eq
    exact isMatch
  · intro isMatch
    exact except_bind_eq_ok.mpr ⟨program, isMatch, names.encoded⟩

end HDWallet

end QuantyCoin
