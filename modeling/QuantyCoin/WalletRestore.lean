import QuantyCoin.KeyChoice

/-!
# Restored wallets

A wallet that is restored from its mnemonic has derived the first five entries of each kind
and no change key.  Which outputs of the original wallet it can spend depends on how far its
lookups go from there.
-/

namespace QuantyCoin

open ByteDecoder Secp256k1 StateTriples

namespace HDWallet

variable {env : WalletEnvironment} {root : WalletRoot} {utxo : Utxo}

/-! ## A new wallet -/

theorem deriveFirst_first (start count : Nat) :
    Triple (HoldsFirst env root (.upTo start)) (deriveFirst env (List.range' start count))
      (fun _ wallet => HoldsFirst env root (.upTo (start + count)) wallet) (fun _ => True) := by
  induction count generalizing start with
  | zero => exact .pure fun _ holds => holds
  | succ count ih =>
      have ordered := KeyCounts.Ordered.upTo start
      have receives : Triple (HoldsFirst env root (.upTo start)) (getReceivingAddress env start)
          (fun _ wallet =>
            HoldsFirst env root ((KeyCounts.upTo start).receivingTo (start + 1)) wallet)
          (fun _ => True) := by
        apply Triple.bind (leavesFirst_getReceivingKey (Nat.le_refl start))
        intro key
        exact .reading (fun _ _ => True.intro) fun _ _ holds _ => holds.2
      apply receives.bind
      intro address
      have orderedKeys := ordered.receivingTo (start + 1)
      apply Triple.bind (leavesFirst_getPqAddress orderedKeys (Nat.le_refl start))
      intro pqAddress
      apply Triple.assuming
      intro _
      have orderedPq := orderedKeys.pqAddressesTo (start + 1)
      apply Triple.bind (leavesFirst_getHybridAddress orderedPq (Nat.le_refl start))
      intro hybridAddress
      apply Triple.assuming
      intro _
      have next : (((KeyCounts.upTo start).receivingTo (start + 1)).pqAddressesTo
          (start + 1)).hybridTo (start + 1) = KeyCounts.upTo (start + 1) := by
        ext
        all_goals
          simp only [KeyCounts.upTo, KeyCounts.receivingTo, KeyCounts.pqAddressesTo,
            KeyCounts.hybridTo]
          try omega
      rw [next, Nat.add_comm count, ← Nat.add_assoc]
      exact ih (start + 1)

/-- The descendants of a private node are private. -/
theorem isPrivate_foldlM_deriveChild {indices : List Int} {node last : HDKey}
    (isPrivate : node.isPrivate = true)
    (derived : indices.foldlM (fun node index =>
      node.deriveChild env.hmacSha512 env.prim.hash160 (index + 0x80000000)) node = .ok last) :
    last.isPrivate = true := by
  induction indices generalizing node with
  | nil =>
      cases derived
      exact isPrivate
  | cons index indices ih =>
      rw [List.foldlM_cons] at derived
      obtain ⟨child, isChild, rest⟩ := except_bind_eq_ok.mp derived
      exact ih (HDKey.isPrivate_deriveChild isPrivate isChild) rest

theorem isPrivate_new {mnemonic passphrase : String} {accountIndex : Int}
    (created : WalletRoot.new env mnemonic passphrase accountIndex = .ok root) :
    root.accountNode.isPrivate = true := by
  unfold WalletRoot.new at created
  split_ifs at created
  obtain ⟨seed, -, rest⟩ := except_bind_eq_ok.mp created
  obtain ⟨accountNode, isNode, returned⟩ := except_bind_eq_ok.mp rest
  cases returned
  exact isPrivate_foldlM_deriveChild rfl isNode

/-- A new wallet has derived the first five entries of each kind. -/
theorem new_first {mnemonic passphrase : String} {accountIndex : Int} {wallet : HDWallet}
    (created : new env mnemonic passphrase accountIndex = .ok wallet) :
    WalletRoot.new env mnemonic passphrase accountIndex = .ok wallet.root ∧
      HoldsFirst env wallet.root (.upTo 5) wallet := by
  obtain ⟨root, isRoot, rest⟩ := except_bind_eq_ok.mp created
  have start : HoldsFirst env root (.upTo 0) ⟨root, [], [], [], [], []⟩ :=
    ⟨rfl, .upTo 0, .nil, .nil, .nil, .nil, .nil⟩
  have result := deriveFirst_first 0 5 _ start
  rw [← List.range_eq_range'] at result
  split at rest
  · rename_i value after derivedFirst
    rw [derivedFirst] at result
    cases rest
    rw [result.root_eq]
    exact ⟨isRoot, result⟩
  · cases rest

/-- The numbers of entries when the inputs are signed: the change may have gone to the first
change key. -/
def Payment.startCounts (payment : Payment) : KeyCounts :=
  if payment.changeSat > 1000 ∧ payment.changeAddress.getD [] = [] then
    (KeyCounts.upTo 5).changeTo 1
  else .upTo 5

theorem changeAddressOr_first (counts : KeyCounts) (changeAddress : Option (List Char)) :
    Triple (HoldsFirst env root counts) (changeAddressOr env changeAddress)
      (fun _ wallet => HoldsFirst env root
        (if changeAddress.getD [] = [] then counts.changeTo 1 else counts) wallet)
      (fun _ => True) := by
  have derives : Triple (HoldsFirst env root counts) (getChangeAddress env 0)
      (fun _ wallet => HoldsFirst env root (counts.changeTo 1) wallet) (fun _ => True) := by
    apply Triple.bind (leavesFirst_getChangeKey (Nat.zero_le _))
    intro key
    exact .reading (fun _ _ => True.intro) fun _ _ holds _ => holds.2
  match changeAddress with
  | none => exact derives
  | some [] => exact derives
  | some (first :: rest) => exact .pure fun _ holds => holds

theorem changeOutput_first (payment : Payment) :
    Triple (HoldsFirst env root (.upTo 5))
      (changeOutput env payment.changeSat payment.changeAddress)
      (fun _ wallet => HoldsFirst env root payment.startCounts wallet) (fun _ => True) := by
  by_cases worth : payment.changeSat > 1000
  · rw [changeOutput, if_pos worth]
    simp only [Payment.startCounts, worth, true_and]
    apply (changeAddressOr_first _ payment.changeAddress).bind
    intro address
    apply Triple.bind (.reading (fun _ _ => True.intro) fun _ _ holds _ => holds)
    intro out
    exact .pure fun _ holds => holds
  · rw [changeOutput, if_neg worth]
    apply Triple.pure
    intro wallet holds
    rwa [Payment.startCounts, if_neg fun both => worth both.1]

theorem Payment.startCounts_receiving_pos (payment : Payment) :
    0 < payment.startCounts.receiving := by
  rw [startCounts]
  split_ifs <;> decide

theorem buildTransaction_first (correct : env.signers.Correct env.prim)
    (derived : WellDerived env root) (pairs : KeyPairs env) {payment : Payment}
    (receives : ∀ utxo ∈ payment.availableUtxos, ∃ kind program,
      utxo.Receives env root kind program) :
    Triple (HoldsFirst env root (.upTo 5)) (buildTransaction env payment)
      (fun tx _ => AllVerified env.prim tx payment.selectedUtxos 0 ↔
        findsAll env root payment.startCounts payment.selectedUtxos = true)
      (fun _ => True) := by
  unfold buildTransaction
  split_ifs
  · exact fun _ _ => True.intro
  · exact fun _ _ => True.intro
  · apply Triple.bind (.reading (fun _ _ => True.intro) fun _ _ holds _ => holds)
    intro out
    apply (changeOutput_first payment).bind
    intro change
    exact signInputs_first correct derived pairs
      (fun utxo selected => receives utxo (payment.selectedUtxos_subperm.subset selected))
      payment.startCounts_receiving_pos 0 _

/-! ## Restored wallets -/

/-- An output to one of the addresses, with or without the address. -/
def Utxo.Pays (prim : Primitives) (utxo : Utxo) (addresses : List (List Char)) : Prop :=
  ∃ address ∈ addresses, utxo.scriptPubKey = some (addressToScriptpubkey prim address) ∧
    (utxo.address = none ∨ utxo.address = some address)

theorem Utxo.Pays.receives (derived : WellDerived env root) {addresses : List (List Char)}
    (known : ∀ address ∈ addresses,
      ∃ kind index, index < 50 ∧ root.address env kind index = .ok address)
    (pays : utxo.Pays env.prim addresses) :
    ∃ kind program, utxo.Receives env root kind program := by
  obtain ⟨address, returned, script, given⟩ := pays
  obtain ⟨kind, index, small, isAddress⟩ := known address returned
  obtain ⟨program, isMatch, encoded⟩ := except_bind_eq_ok.mp isAddress
  have length := derived.program_length isMatch
  have names : Names kind program address := ⟨encoded, length⟩
  refine ⟨kind, program, ?_, ?_, length, index, small, isMatch⟩
  · rw [script, addressToScriptpubkey, names.addressWitness_eq]
    dsimp only
    split_ifs with zero
    · rw [witnessScript, length]
      cases kind with
      | receiving | change => rfl
      | pq | hybrid => cases zero
    · rfl
  · intro other isGiven
    rcases given with missing | present
    · rw [missing] at isGiven
      cases isGiven
    · rw [present] at isGiven
      cases isGiven
      exact names

/-- A restored wallet signs all inputs with matching keys if, and only if, its lookups find
the keys of all outputs that it selects. -/
theorem restoredWallet_verified_iff (env : WalletEnvironment)
    (correct : env.signers.Correct env.prim) (pairs : KeyPairs env)
    {mnemonic passphrase : String} {accountIndex : Int} {original used restored after : HDWallet}
    {addresses : List (List Char)}
    (created : new env mnemonic passphrase accountIndex = .ok original)
    (run : WalletRun env original addresses used)
    (recreated : new env mnemonic passphrase accountIndex = .ok restored) {payment : Payment}
    (pays : ∀ utxo ∈ payment.availableUtxos, utxo.Pays env.prim addresses) {tx : Transaction}
    (returned : buildTransaction env payment restored = .ok tx after) :
    tx.vin.map TxIn.outpoint = payment.selectedUtxos.map Utxo.outpoint ∧
      (AllVerified env.prim tx payment.selectedUtxos 0 ↔
        findsAll env restored.root payment.startCounts payment.selectedUtxos = true) := by
  obtain ⟨isRoot, holds⟩ := new_first recreated
  have same : original = restored := Except.ok.inj (created.symm.trans recreated)
  rw [same] at run
  have derived : WellDerived env restored.root :=
    ⟨isPrivate_new isRoot, correct.sha256_length, correct.hash160_length⟩
  have known := (WalletRun.invariant holds.consistent run).2
  have receives (utxo : Utxo) (available : utxo ∈ payment.availableUtxos) :=
    (pays utxo available).receives derived known
  obtain ⟨change, middle, built⟩ := built_of_buildTransaction returned
  exact ⟨built.spends,
    (buildTransaction_first correct derived pairs receives).of_ok holds returned⟩

/-! ## A lost change output -/

/-- Scalars that stay small and differ for the two chains of an account. -/
def smallHmac (chainCode message : Bytes) : Bytes :=
  let last := (message.getLastD 0).toNat % 11
  toBytesBig 32 (last + if chainCode.getLastD 0 = 1 then 4 else 0) ++ toBytesBig 32 last

/-- The hash of a public key is its end. -/
def restoreEnvironment : WalletEnvironment :=
  { sampleEnvironment with
    prim := { signerPrimitives with hash160 := fun data => toBytesBig 20 (beValue data) }
    hmacSha512 := smallHmac
    pbkdf2Hmac := fun _ _ _ length => List.replicate length 2 }

def restoreMnemonic : String :=
  entropyToMnemonic restoreEnvironment.prim.sha256 (List.replicate 16 0)

def restoreRoot : WalletRoot where
  seed := List.replicate 64 2
  accountIndex := 0
  accountNode := ⟨toBytesBig 32 2, toBytesBig 32 0, 3, 0x80000000, [149, 192, 124, 216], true⟩

/-- What the mnemonic restores. -/
def restoredWallet : HDWallet where
  root := restoreRoot
  receivingKeys := (List.range 5).map fun index =>
    (index, ⟨toBytesBig 32 (index + 2), toBytesBig 32 index, 5, index, [149, 192, 124, 216], true⟩)
  changeKeys := []
  pqKeys := (List.range 5).map fun index => (index, sampleMldsaKey)
  pqAddresses := (List.range 5).map fun index =>
    (index, "qty1pqyqqqqqqqqqqqqqqqqqqqqqqqqqqqqqqqqqqqqqqqqqqqqqqqqqqe9x6p0".toList)
  hybridAddresses := (List.range 5).map fun index =>
    (index, "qty1zqyqqqqqqqqqqqqqqqqqqqqqqqqqqqqqqqqqqqqqqqqqqqqqqqqqq3cl40y".toList)

theorem restoreMnemonic_valid :
    validateMnemonic restoreEnvironment.prim.sha256 restoreMnemonic = true :=
  (validateMnemonic_iff_encoded (fun _ => leBytes_length 32 1) restoreMnemonic).1.mpr
    ⟨List.replicate 16 0, by decide, rfl⟩

theorem restoreRoot_derived :
    WalletRoot.new restoreEnvironment restoreMnemonic "" 0 = .ok restoreRoot := by
  have seed : mnemonicToSeed restoreEnvironment.prim.sha256 restoreEnvironment.pbkdf2Hmac
      restoreMnemonic "" = .ok restoreRoot.seed := by
    rw [mnemonicToSeed, restoreMnemonic_valid]
    rfl
  have path : ([44, 999, 0].foldlM (fun node index =>
      node.deriveChild restoreEnvironment.hmacSha512 restoreEnvironment.prim.hash160
        (index + 0x80000000)) (HDKey.fromSeed restoreEnvironment.hmacSha512 restoreRoot.seed)) =
      .ok restoreRoot.accountNode := by
    decide +kernel
  rw [WalletRoot.new, restoreMnemonic_valid, seed]
  simp only [Bool.not_true, Bool.false_eq_true, if_false]
  exact except_bind_eq_ok.mpr ⟨_, rfl, except_bind_eq_ok.mpr ⟨_, path, rfl⟩⟩

theorem restoredWallet_new :
    new restoreEnvironment restoreMnemonic "" 0 = .ok restoredWallet := by
  have derived : deriveFirst restoreEnvironment (List.range 5)
      ⟨restoreRoot, [], [], [], [], []⟩ = .ok () restoredWallet := by
    decide +kernel
  refine except_bind_eq_ok.mpr ⟨restoreRoot, restoreRoot_derived, ?_⟩
  rw [derived]

/-- The wallet is asked for one address. -/
theorem exists_walletRun {kind : AddressKind} {index : Nat} {address : List Char}
    (small : index < 50)
    (returned : returnedValue (getAddressOf restoreEnvironment kind index restoredWallet) =
      some address) :
    ∃ used, WalletRun restoreEnvironment restoredWallet [address] used := by
  obtain ⟨used, isReturned⟩ := exists_of_returnedValue returned
  have within : WithinFifty (.getAddress kind index) := small
  refine ⟨used, .step .start within ?_⟩
  rw [call, isReturned]

/-- An output to an address, without the address field. -/
def outputTo (address : List Char) : Utxo :=
  { mldsaUtxo 0 5000 with
    scriptPubKey := some (addressToScriptpubkey restoreEnvironment.prim address) }

/-- A payment that spends the output and leaves no change. -/
def spendingPayment (address : List Char) : Payment where
  destinationAddress := keyHashAddress
  amountSat := 4500
  availableUtxos := [outputTo address]
  feeSat := 500
  changeAddress := none

def lastReceivingAddress : List Char := "qty1qx4frt5uz7erjlptg5x9j7pt6z3szja2k74wwp8".toList

def firstChangeAddress : List Char := "qty1q7t485r3agxdhuqesuwwwj27aah9vf7duwl7850".toList

theorem spendingPayment_pays (address : List Char) :
    ∀ utxo ∈ (spendingPayment address).availableUtxos,
      utxo.Pays restoreEnvironment.prim [address] := by
  intro utxo member
  cases List.mem_singleton.mp member
  exact ⟨address, List.mem_singleton_self _, rfl, Or.inl rfl⟩

theorem spendingPayment_selects (address : List Char) :
    (spendingPayment address).selectedUtxos = [outputTo address] := by
  have reached : (0 : Int) + (outputTo address).valueSat ≥
      (spendingPayment address).requiredTotal := by
    change (0 : Int) + (5000 : Nat) ≥ 4500 + 500
    decide
  change accumulate (spendingPayment address).requiredTotal [outputTo address] 0 = _
  rw [accumulate, if_pos reached]

theorem restoreEnvironment_correct :
    restoreEnvironment.signers.Correct restoreEnvironment.prim :=
  { sampleSigners_correct with hash160_length := fun _ => toBytesBig_length 20 _ }

theorem restoreEnvironment_pairs : KeyPairs restoreEnvironment := by
  intro seed key isKey
  cases isKey
  exact List.length_replicate

theorem lastReceivingAddress_verified : ∃ tx after,
    buildTransaction restoreEnvironment (spendingPayment lastReceivingAddress) restoredWallet =
      .ok tx after ∧
    AllVerified restoreEnvironment.prim tx
      (spendingPayment lastReceivingAddress).selectedUtxos 0 := by
  have asked : returnedValue (getAddressOf restoreEnvironment .receiving 4 restoredWallet) =
      some lastReceivingAddress := by
    decide +kernel
  have isReturned : hasReturned (buildTransaction restoreEnvironment
      (spendingPayment lastReceivingAddress) restoredWallet) = true := by
    decide +kernel
  obtain ⟨used, run⟩ := exists_walletRun (by decide) asked
  obtain ⟨tx, after, returned⟩ := exists_of_hasReturned isReturned
  refine ⟨tx, after, returned, ?_⟩
  apply (restoredWallet_verified_iff restoreEnvironment restoreEnvironment_correct
    restoreEnvironment_pairs restoredWallet_new run restoredWallet_new (spendingPayment_pays _)
    returned).2.mpr
  decide +kernel

/-- The output to the first change address of the used wallet cannot be spent after all. -/
theorem firstChangeAddress_rejected :
    restoreEnvironment.signers.Correct restoreEnvironment.prim ∧ KeyPairs restoreEnvironment ∧
      ∃ original used restored tx after,
        new restoreEnvironment restoreMnemonic "" 0 = .ok original ∧
        WalletRun restoreEnvironment original [firstChangeAddress] used ∧
        new restoreEnvironment restoreMnemonic "" 0 = .ok restored ∧
        (∀ utxo ∈ (spendingPayment firstChangeAddress).availableUtxos,
          utxo.Pays restoreEnvironment.prim [firstChangeAddress]) ∧
        buildTransaction restoreEnvironment (spendingPayment firstChangeAddress) restored =
          .ok tx after ∧
        ¬ AllVerified restoreEnvironment.prim tx
          (spendingPayment firstChangeAddress).selectedUtxos 0 := by
  have asked : returnedValue (getAddressOf restoreEnvironment .change 0 restoredWallet) =
      some firstChangeAddress := by
    decide +kernel
  have rejected : (returnedValue (buildTransaction restoreEnvironment
      (spendingPayment firstChangeAddress) restoredWallet)).map (fun tx =>
        tx.verifyInputSignature restoreEnvironment.prim 0
          (addressToScriptpubkey restoreEnvironment.prim firstChangeAddress) 5000) =
      some false := by
    decide +kernel
  obtain ⟨used, run⟩ := exists_walletRun (by decide) asked
  obtain ⟨tx, isReturned, isRejected⟩ := Option.map_eq_some_iff.mp rejected
  obtain ⟨after, returned⟩ := exists_of_returnedValue isReturned
  refine ⟨restoreEnvironment_correct, restoreEnvironment_pairs, restoredWallet, used,
    restoredWallet, tx, after, restoredWallet_new, run, restoredWallet_new,
    spendingPayment_pays _, returned, fun all => ?_⟩
  rw [spendingPayment_selects] at all
  have accepted := all 0 (outputTo firstChangeAddress) _ rfl rfl
  exact Bool.false_ne_true (isRejected.symm.trans accepted)

end HDWallet

end QuantyCoin
