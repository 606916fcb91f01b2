import QuantyCoin.WalletRestore
import Mathlib.Data.Rat.Defs

/-!
# Migration to post-quantum addresses

`get_quantum_vulnerability_report` and `build_pqc_migration_transaction` of
`wallet/hd_wallet.py`.  The amount of a migration and its fee add up to the total of the
vulnerable outputs, so that the coin selection takes all of them and leaves no change.  The
constructor of the wallet caches the address that they go to, and no call replaces it.
-/

namespace QuantyCoin

open ByteDecoder DerivedCache GreedySelection Secp256k1 StateTriples

namespace HDWallet

/-! ## The report -/

/-- What protects an output. -/
inductive QuantumStatus
  | pqc
  | hybrid
  | vulnerable
  deriving DecidableEq

/-- The class of an output in the report. -/
def Utxo.quantumStatus (utxo : Utxo) : QuantumStatus :=
  let addr := utxo.address.getD []
  let script := utxo.scriptPubKey.getD []
  if "qty1p".toList.isPrefixOf addr ∨ (script.length = 34 ∧ script.take 2 = [0x51, 0x20]) then .pqc
  else if "qty1z".toList.isPrefixOf addr ∨
      (script.length = 34 ∧ script.take 2 = [0x52, 0x20]) then .hybrid
  else .vulnerable

/-- The three lists of the report. -/
structure ClassifiedUtxos where
  vulnerableUtxos : List Utxo
  pqcUtxos : List Utxo
  hybridUtxos : List Utxo

/-- The body of the loop. -/
def ClassifiedUtxos.add (lists : ClassifiedUtxos) (utxo : Utxo) : ClassifiedUtxos :=
  match utxo.quantumStatus with
  | .pqc => { lists with pqcUtxos := lists.pqcUtxos ++ [utxo] }
  | .hybrid => { lists with hybridUtxos := lists.hybridUtxos ++ [utxo] }
  | .vulnerable => { lists with vulnerableUtxos := lists.vulnerableUtxos ++ [utxo] }

def classifyUtxos (utxos : List Utxo) : ClassifiedUtxos :=
  utxos.foldl ClassifiedUtxos.add ⟨[], [], []⟩

structure QuantumVulnerabilityReport where
  vulnerableCount : Nat
  vulnerableTotalSat : Int
  /-- Before it is rounded to a float. -/
  vulnerableRatio : Rat
  pqcCount : Nat
  pqcTotalSat : Int
  hybridCount : Nat
  hybridTotalSat : Int
  hasVulnerableUtxos : Bool
  migrationRecommended : Bool
  warningMessage : String
  vulnerableUtxos : List Utxo

def getQuantumVulnerabilityReport (utxos : List Utxo) : QuantumVulnerabilityReport :=
  let lists := classifyUtxos utxos
  let vulnerableTotalSat := totalValue lists.vulnerableUtxos
  let pqcTotalSat := totalValue lists.pqcUtxos
  let hybridTotalSat := totalValue lists.hybridUtxos
  let totalFunds := vulnerableTotalSat + pqcTotalSat + hybridTotalSat
  { vulnerableCount := lists.vulnerableUtxos.length
    vulnerableTotalSat := vulnerableTotalSat
    vulnerableRatio := if totalFunds > 0 then vulnerableTotalSat / totalFunds else 0
    pqcCount := lists.pqcUtxos.length
    pqcTotalSat := pqcTotalSat
    hybridCount := lists.hybridUtxos.length
    hybridTotalSat := hybridTotalSat
    hasVulnerableUtxos := lists.vulnerableUtxos.length > 0
    migrationRecommended := lists.vulnerableUtxos.length > 0
    warningMessage :=
      if lists.vulnerableUtxos.length > 0 then
        "WARNING: " ++ toString lists.vulnerableUtxos.length ++ " UTXOs (" ++
          formatQty vulnerableTotalSat.toNat ++ " QTY) rely on " ++
          "classical Secp256k1 ECDSA and are vulnerable to future Cryptographically Relevant " ++
          "Quantum Computers (CRQCs). Migrate balances to ML-DSA (qty1p...) or Hybrid " ++
          "(qty1z...) addresses immediately."
      else "All UTXOs are protected by Post-Quantum lattice cryptography."
    vulnerableUtxos := lists.vulnerableUtxos }

/-! ## The transaction -/

section

variable (env : WalletEnvironment)

/-- `target_address`.  No character outside ASCII has one of these letters as its lower
case. -/
def targetAddress (targetMode : String) : WalletM (List Char) :=
  if targetMode.toLower ∈ ["mldsa", "pq", "pqc"] then getPqAddress env 0
  else if targetMode.toLower ∈ ["hybrid", "dual"] then getHybridAddress env 0
  else throw (.valueError ("Unknown target migration mode: " ++ targetMode ++
    ". Expected 'mldsa' or 'hybrid'."))

def buildPqcMigrationTransaction (availableUtxos : List Utxo) (targetMode : String)
    (feeSat : Int) : WalletM Transaction :=
  let vulnerableUtxos := (getQuantumVulnerabilityReport availableUtxos).vulnerableUtxos
  let totalVal := totalValue vulnerableUtxos
  if vulnerableUtxos.isEmpty then
    throw (.valueError "No vulnerable classical UTXOs found to migrate.")
  else if totalVal ≤ feeSat then
    throw (.valueError ("Total vulnerable balance (" ++ toString totalVal ++
      " sat) is less than or equal to fee (" ++ toString feeSat ++ " sat)."))
  else do
    let address ← targetAddress env targetMode
    buildTransaction env ⟨address, totalVal - feeSat, vulnerableUtxos, feeSat, none⟩

end

/-! ## The address of the wallet -/

section

variable (env : WalletEnvironment)

/-- `get_pq_address(index, hrp)`. -/
def getPqAddressWith (hrp : List Char) (index : Nat) : WalletM (List Char) :=
  storedOr pqAddresses (fun wallet addresses => { wallet with pqAddresses := addresses }) index do
    let key ← getPqKey env index
    reading fun _ => encodeSegwitAddress hrp 1 (env.prim.sha256 key.publicKey)

/-- `get_hybrid_address(index, hrp)`. -/
def getHybridAddressWith (hrp : List Char) (index : Nat) : WalletM (List Char) :=
  storedOr hybridAddresses (fun wallet addresses => { wallet with hybridAddresses := addresses })
    index do
      let secpKey ← getReceivingKey env index
      let pqKey ← getPqKey env index
      reading fun _ => do
        encodeSegwitAddress hrp 2 (← WalletRoot.hybridProgram env secpKey pqKey)

/-- What a wallet is asked for. -/
inductive Demand
  | receivingKey (index : Nat)
  | changeKey (index : Nat)
  | pqKey (index : Nat)
  | address (kind : AddressKind) (index : Nat)
  | pqAddressWith (hrp : List Char) (index : Nat)
  | hybridAddressWith (hrp : List Char) (index : Nat)
  | keyForAddress (address : List Char)
  | pqKeyForAddress (address : List Char)
  | hybridKeysForAddress (address : List Char)
  | build (payment : Payment)
  | migrate (availableUtxos : List Utxo) (targetMode : String) (feeSat : Int)

/-- The wallet after a call, which may have raised. -/
def afterDemand (wallet : HDWallet) : Demand → HDWallet
  | .receivingKey index => finalState (getReceivingKey env index wallet)
  | .changeKey index => finalState (getChangeKey env index wallet)
  | .pqKey index => finalState (getPqKey env index wallet)
  | .address kind index => finalState (getAddressOf env kind index wallet)
  | .pqAddressWith hrp index => finalState (getPqAddressWith env hrp index wallet)
  | .hybridAddressWith hrp index => finalState (getHybridAddressWith env hrp index wallet)
  | .keyForAddress address => finalState (findKeyForAddress env address wallet)
  | .pqKeyForAddress address => finalState (findPqKeyForAddress env address wallet)
  | .hybridKeysForAddress address => finalState (findHybridKeysForAddress env address wallet)
  | .build payment => finalState (buildTransaction env payment wallet)
  | .migrate availableUtxos targetMode feeSat =>
      finalState (buildPqcMigrationTransaction env availableUtxos targetMode feeSat wallet)

/-- The wallet after some calls. -/
def afterDemands (wallet : HDWallet) (demands : List Demand) : HDWallet :=
  demands.foldl (afterDemand env) wallet

end

/-- The first addresses are cached. -/
structure CachesFirst (pqAddress hybridAddress : List Char) (wallet : HDWallet) : Prop where
  pq : wallet.pqAddresses.lookup 0 = some pqAddress
  hybrid : wallet.hybridAddresses.lookup 0 = some hybridAddress

theorem lookup_concat {β : Type} {entries : List (Nat × β)} {value : β} (entry : Nat × β)
    (found : entries.lookup 0 = some value) : (entries ++ [entry]).lookup 0 = some value := by
  rw [List.lookup_append, found, Option.some_or]

section

variable {env : WalletEnvironment} {pqAddress hybridAddress : List Char}

theorem cachesFirst_getPqAddressWith (hrp : List Char) (index : Nat)
    (keys : ∀ index, Keeps (CachesFirst pqAddress hybridAddress) (getPqKey env index)) :
    Keeps (CachesFirst pqAddress hybridAddress) (getPqAddressWith env hrp index) :=
  keeps_storedOr ((keys index).bind fun _ => .reading _)
    fun _ _ holds => { holds with pq := lookup_concat _ holds.pq }

theorem cachesFirst_getHybridAddressWith (hrp : List Char) (index : Nat)
    (receives : ∀ index, Keeps (CachesFirst pqAddress hybridAddress) (getReceivingKey env index))
    (keys : ∀ index, Keeps (CachesFirst pqAddress hybridAddress) (getPqKey env index)) :
    Keeps (CachesFirst pqAddress hybridAddress) (getHybridAddressWith env hrp index) :=
  keeps_storedOr ((receives index).bind fun _ => (keys index).bind fun _ => .reading _)
    fun _ _ holds => { holds with hybrid := lookup_concat _ holds.hybrid }

theorem cachesFirst_keptByStores :
    KeptByStores env (CachesFirst pqAddress hybridAddress) := by
  have receives (index : Nat) : Keeps (CachesFirst pqAddress hybridAddress)
      (getReceivingKey env index) := keeps_storedOr (.reading _) fun _ _ holds => { holds with }
  have keys (index : Nat) : Keeps (CachesFirst pqAddress hybridAddress)
      (getPqKey env index) := keeps_storedOr (.reading _) fun _ _ holds => { holds with }
  exact
    { receivingKey := receives
      changeKey := fun _ => keeps_storedOr (.reading _) fun _ _ holds => { holds with }
      pqKey := keys
      pqAddress := fun index => cachesFirst_getPqAddressWith _ index keys
      hybridAddress := fun index => cachesFirst_getHybridAddressWith _ index receives keys }

theorem keeps_targetAddress {invariant : HDWallet → Prop} (kept : KeptByStores env invariant)
    (targetMode : String) : Keeps invariant (targetAddress env targetMode) := by
  unfold targetAddress
  split_ifs
  · exact kept.pqAddress 0
  · exact kept.hybridAddress 0
  · exact .throw _

theorem keeps_buildPqcMigrationTransaction {invariant : HDWallet → Prop}
    (kept : KeptByStores env invariant) (availableUtxos : List Utxo) (targetMode : String)
    (feeSat : Int) :
    Keeps invariant (buildPqcMigrationTransaction env availableUtxos targetMode feeSat) := by
  simp only [buildPqcMigrationTransaction]
  split_ifs
  · exact .throw _
  · exact .throw _
  · exact (keeps_targetAddress kept targetMode).bind fun _ => keeps_buildTransaction kept _

theorem CachesFirst.afterDemand {wallet : HDWallet}
    (caches : CachesFirst pqAddress hybridAddress wallet) (demand : Demand) :
    CachesFirst pqAddress hybridAddress (wallet.afterDemand env demand) := by
  have kept := @cachesFirst_keptByStores env pqAddress hybridAddress
  cases demand with
  | receivingKey index => exact (kept.receivingKey index).final caches
  | changeKey index => exact (kept.changeKey index).final caches
  | pqKey index => exact (kept.pqKey index).final caches
  | address kind index => exact (keeps_getAddressOf kept kind index).final caches
  | pqAddressWith hrp index =>
      exact (cachesFirst_getPqAddressWith hrp index kept.pqKey).final caches
  | hybridAddressWith hrp index =>
      exact (cachesFirst_getHybridAddressWith hrp index kept.receivingKey kept.pqKey).final caches
  | keyForAddress address => exact (keeps_findKeyForAddress kept).final caches
  | pqKeyForAddress address => exact (keeps_findPqKeyForAddress kept).final caches
  | hybridKeysForAddress address => exact (keeps_findHybridKeysForAddress kept).final caches
  | build payment => exact (keeps_buildTransaction kept payment).final caches
  | migrate availableUtxos targetMode feeSat =>
      exact (keeps_buildPqcMigrationTransaction kept availableUtxos targetMode feeSat).final caches

theorem CachesFirst.afterDemands {wallet : HDWallet}
    (caches : CachesFirst pqAddress hybridAddress wallet) (demands : List Demand) :
    CachesFirst pqAddress hybridAddress (wallet.afterDemands env demands) := by
  induction demands generalizing wallet with
  | nil => exact caches
  | cons demand demands ih => exact ih (caches.afterDemand demand)

/-- The constructor caches the addresses that the root determines. -/
theorem exists_cachesFirst {mnemonic passphrase : String} {accountIndex : Int} {start : HDWallet}
    (created : new env mnemonic passphrase accountIndex = .ok start) :
    ∃ pqAddress hybridAddress, CachesFirst pqAddress hybridAddress start ∧
      start.root.address env .pq 0 = .ok pqAddress ∧
      start.root.address env .hybrid 0 = .ok hybridAddress := by
  obtain ⟨-, holds⟩ := new_first created
  have pqFound : start.pqAddresses.lookup 0 ≠ none := fun missing =>
    absurd (holds.pqAddresses.lookup_eq_none_iff.mp missing) (by decide)
  have hybridFound : start.hybridAddresses.lookup 0 ≠ none := fun missing =>
    absurd (holds.hybridAddresses.lookup_eq_none_iff.mp missing) (by decide)
  obtain ⟨pqAddress, pq⟩ := Option.ne_none_iff_exists'.mp pqFound
  obtain ⟨hybridAddress, hybrid⟩ := Option.ne_none_iff_exists'.mp hybridFound
  exact ⟨pqAddress, hybridAddress, ⟨pq, hybrid⟩, holds.pqAddresses.sound.lookup pq,
    holds.hybridAddresses.sound.lookup hybrid⟩

/-- The script pays the address with index 0 of the kind that the mode asks for. -/
inductive PaysMode (env : WalletEnvironment) (root : WalletRoot) (targetMode : String)
    (script : Bytes) : Prop
  | mldsa {key : MLDSAKey} {address : List Char}
      (mode : targetMode.toLower ∈ ["mldsa", "pq", "pqc"])
      (isKey : root.pqKey env 0 = .ok key) (isAddress : root.pqAddress env 0 = .ok address)
      (pays : script = addressToScriptpubkey env.prim address)
      (witness : script = [0x51, 0x20] ++ env.prim.sha256 key.publicKey)
  | hybrid {secpKey : HDKey} {pqKey : MLDSAKey} {program : Bytes} {address : List Char}
      (mode : targetMode.toLower ∈ ["hybrid", "dual"])
      (isSecpKey : root.receivingKey env 0 = .ok secpKey) (isPqKey : root.pqKey env 0 = .ok pqKey)
      (isProgram : WalletRoot.hybridProgram env secpKey pqKey = .ok program)
      (isAddress : root.hybridAddress env 0 = .ok address)
      (pays : script = addressToScriptpubkey env.prim address)
      (witness : script = [0x52, 0x20] ++ program)

/-- An address of 32 bytes is paid by the script of its version and program. -/
theorem Names.addressToScriptpubkey_eq {kind : AddressKind} {program : Bytes} {address : List Char}
    (names : Names kind program address) (prim : Primitives) (length : program.length = 32)
    (version : 0 < kind.version) :
    addressToScriptpubkey prim address = [UInt8.ofNat (0x50 + kind.version), 0x20] ++ program := by
  rw [addressToScriptpubkey, names.addressWitness_eq]
  dsimp only
  rw [if_neg version.ne', witnessScript, if_pos version, length]
  rfl

/-- The target address is the one that the root determines. -/
theorem paysMode_targetAddress {root : WalletRoot} {wallet middle : HDWallet} {targetMode : String}
    {address : List Char} (lengths : ∀ data, (env.prim.sha256 data).length = 32)
    (caches : CachesFirst pqAddress hybridAddress wallet)
    (pqDerived : root.address env .pq 0 = .ok pqAddress)
    (hybridDerived : root.address env .hybrid 0 = .ok hybridAddress)
    (target : targetAddress env targetMode wallet = .ok address middle) :
    PaysMode env root targetMode (addressToScriptpubkey env.prim address) := by
  unfold targetAddress at target
  split_ifs at target with mldsa hybrid
  · have cached : address = pqAddress :=
      eq_of_storedOr caches.pq target
    obtain ⟨program, isProgram, encoded⟩ := except_bind_eq_ok.mp pqDerived
    obtain ⟨key, isKey, returned⟩ := except_bind_eq_ok.mp isProgram
    cases returned
    have names : Names .pq (env.prim.sha256 key.publicKey) pqAddress := ⟨encoded, lengths _⟩
    rw [cached]
    exact .mldsa mldsa isKey (except_bind_eq_ok.mpr ⟨key, isKey, encoded⟩) rfl
      (names.addressToScriptpubkey_eq env.prim (lengths _) (by decide))
  · have cached : address = hybridAddress :=
      eq_of_storedOr caches.hybrid target
    obtain ⟨program, isMatch, encoded⟩ := except_bind_eq_ok.mp hybridDerived
    obtain ⟨secpKey, isSecpKey, rest⟩ := except_bind_eq_ok.mp isMatch
    obtain ⟨pqKey, isPqKey, isProgram⟩ := except_bind_eq_ok.mp rest
    have length : program.length = 32 := by
      obtain ⟨pubkey, -, rfl⟩ := except_map_eq_ok.mp isProgram
      exact lengths _
    have names : Names .hybrid program hybridAddress := ⟨encoded, length⟩
    rw [cached]
    exact .hybrid hybrid isSecpKey isPqKey isProgram
      (except_bind_eq_ok.mpr ⟨secpKey, isSecpKey, except_bind_eq_ok.mpr ⟨pqKey, isPqKey,
        except_bind_eq_ok.mpr ⟨program, isProgram, encoded⟩⟩⟩) rfl
      (names.addressToScriptpubkey_eq env.prim length (by decide))
  · cases target

end

/-! ## The sweep -/

/-- The report lists the outputs of a class in their order. -/
theorem classifyUtxos_vulnerableUtxos (utxos : List Utxo) :
    (classifyUtxos utxos).vulnerableUtxos = utxos.filter (·.quantumStatus = .vulnerable) := by
  have loop (lists : ClassifiedUtxos) : (utxos.foldl ClassifiedUtxos.add lists).vulnerableUtxos =
      lists.vulnerableUtxos ++ utxos.filter (·.quantumStatus = .vulnerable) := by
    induction utxos generalizing lists with
    | nil => simp
    | cons utxo utxos ih =>
        rw [List.foldl_cons, ih, ClassifiedUtxos.add]
        cases status : utxo.quantumStatus <;> simp [status]
  exact loop ⟨[], [], []⟩

/-- All outputs together are exactly enough: there is no change, and everything of
positive value is selected. -/
theorem swept_of_built {env : WalletEnvironment} {payment : Payment} {wallet middle : HDWallet}
    {tx : Transaction} {change : List TxOut}
    (all : payment.requiredTotal = totalValue payment.availableUtxos)
    (built : Built env payment wallet tx change middle) :
    change = [] ∧ ∀ utxo ∈ payment.availableUtxos, 0 < utxo.valueSat →
      utxo ∈ payment.selectedUtxos := by
  constructor
  · have noChange : ¬ payment.changeSat > 1000 := by
      have bounded := payment.accumulatedSat_le
      rw [Payment.changeSat]
      omega
    have made := built.made
    rw [changeOutput, if_neg noChange] at made
    cases made
    rfl
  · intro utxo member positive
    apply payment.selectedUtxos_reachingPrefix.mem_of_pos
    · exact fun other _ => other.weight_nonneg
    · rw [← totalValue_eq_total, payment.totalValue_sortedUtxos, all]
    · exact built.enough
    · exact payment.sortedUtxos_perm.mem_iff.mpr member
    · exact Int.natCast_pos.mpr positive

/-- A migration spends every vulnerable output of positive value and nothing that is
protected.  It pays their total less the fee to the post-quantum address of the wallet,
whatever the wallet has been asked for before. -/
theorem migration_sweeps (env : WalletEnvironment)
    (lengths : ∀ data, (env.prim.sha256 data).length = 32) {mnemonic passphrase : String}
    {accountIndex : Int} {start wallet' : HDWallet}
    (created : new env mnemonic passphrase accountIndex = .ok start) (demands : List Demand)
    (availableUtxos : List Utxo) (targetMode : String) (feeSat : Int) {tx : Transaction}
    (distinct : (availableUtxos.map Utxo.outpoint).Nodup)
    (returned : buildPqcMigrationTransaction env availableUtxos targetMode feeSat
      (start.afterDemands env demands) = .ok tx wallet') :
    (∀ utxo ∈ (getQuantumVulnerabilityReport availableUtxos).vulnerableUtxos,
      0 < utxo.valueSat → utxo.outpoint ∈ tx.vin.map TxIn.outpoint) ∧
    (∀ utxo ∈ availableUtxos, utxo.quantumStatus = .pqc ∨ utxo.quantumStatus = .hybrid →
      utxo.outpoint ∉ tx.vin.map TxIn.outpoint) ∧
    ∃ out, tx.vout = [out] ∧
      (out.value : Int) =
        (getQuantumVulnerabilityReport availableUtxos).vulnerableTotalSat - feeSat ∧
      PaysMode env start.root targetMode out.scriptPubkey := by
  obtain ⟨pqAddress, hybridAddress, caches, pqDerived, hybridDerived⟩ := exists_cachesFirst created
  simp only [buildPqcMigrationTransaction] at returned
  split_ifs at returned with empty poor
  · cases returned
  · cases returned
  obtain ⟨address, funded, target, rest⟩ := bind_eq_ok.mp returned
  obtain ⟨change, middle, built⟩ := built_of_buildTransaction rest
  obtain ⟨noChange, selected⟩ := swept_of_built (Int.sub_add_cancel _ _) built
  refine ⟨?_, ?_, ?_⟩
  · intro utxo vulnerable positive
    rw [built.spends]
    exact List.mem_map_of_mem (selected utxo vulnerable positive)
  · intro utxo member isSafe spent
    rw [built.spends] at spent
    obtain ⟨other, taken, same⟩ := List.mem_map.mp spent
    have vulnerable : other ∈ (classifyUtxos availableUtxos).vulnerableUtxos :=
      (Payment.selectedUtxos_subperm _).subset taken
    rw [classifyUtxos_vulnerableUtxos, List.mem_filter] at vulnerable
    have equal := List.inj_on_of_nodup_map distinct vulnerable.1 member same
    rw [equal] at vulnerable
    rcases isSafe with isPqc | isHybrid
    · simp [isPqc] at vulnerable
    · simp [isHybrid] at vulnerable
  · obtain ⟨out, outputs, value, script⟩ := built.pays
    rw [noChange] at outputs
    refine ⟨out, outputs, value, ?_⟩
    rw [script]
    exact paysMode_targetAddress lengths (caches.afterDemands demands) pqDerived hybridDerived
      target

/-- An output to a key hash. -/
def keyHashUtxo (vout : UInt32) (valueSat : Nat) : Utxo :=
  { mldsaUtxo vout valueSat with scriptPubKey := some ([0x00, 0x14] ++ sampleKeyHash) }

/-- Two vulnerable outputs, one of which is worth nothing, and one that is protected. -/
def mixedUtxos : List Utxo := [keyHashUtxo 0 0, mldsaUtxo 1 9000, keyHashUtxo 2 6000]

/-- Calls that derive another key, and an address with another prefix. -/
def earlierDemands : List Demand := [.changeKey 0, .pqAddressWith bech32AltHrp 0]

theorem mixedUtxos_swept : ∃ tx wallet' out,
    buildPqcMigrationTransaction restoreEnvironment mixedUtxos "Dual" 1000
      (restoredWallet.afterDemands restoreEnvironment earlierDemands) = .ok tx wallet' ∧
    (keyHashUtxo 2 6000).outpoint ∈ tx.vin.map TxIn.outpoint ∧
    (mldsaUtxo 1 9000).outpoint ∉ tx.vin.map TxIn.outpoint ∧
    tx.vout = [out] ∧ (out.value : Int) = 5000 ∧
    PaysMode restoreEnvironment restoreRoot "Dual" out.scriptPubkey := by
  have isReturned : hasReturned
      (buildPqcMigrationTransaction restoreEnvironment mixedUtxos "Dual" 1000
        (restoredWallet.afterDemands restoreEnvironment earlierDemands)) = true := by
    decide +kernel
  obtain ⟨tx, wallet', returned⟩ := exists_of_hasReturned isReturned
  obtain ⟨spent, kept, out, outputs, value, pays⟩ :=
    migration_sweeps restoreEnvironment restoreEnvironment_correct.sha256_length
      restoredWallet_new earlierDemands mixedUtxos "Dual" 1000 (by decide) returned
  refine ⟨tx, wallet', out, returned, ?_, ?_, outputs, value.trans (by decide), pays⟩
  · exact spent _ (by decide) (by decide)
  · exact kept _ (by decide) (by decide)

end HDWallet

end QuantyCoin
