import QuantyCoin.ChainGrowth

/-!
# Authorization of the spends on the active chain

`apply_block` takes an output out of the set without looking at a signature or
at the age of a coinbase, and nothing else on the way of a block to the active
chain does.  The spends of the active chain are authorized in the runs that
only offer blocks whose inputs would pass these two checks, each against the
set that the replay of the block's ancestors gives its transaction.
-/

namespace QuantyCoin

open AncestorWalk BranchSwitch ByteDecoder MapJournal

/-! ## The entry an input consumes -/

/-- The unspent outputs an input meets in `apply_block`: the transactions
before its own are applied and the inputs before it are taken out. -/
def metAt (prim : Primitives) (height : Nat) (utxos : UtxoMap) (before : List Transaction)
    (spent : List TxIn) : UtxoMap :=
  settle utxos (blockEvents prim height before ++ spent.map fun inp => .take inp.outpoint)

/-- Every input is signed for the entry it consumes, and consumes a coinbase
only if it is mature. -/
def SpendsAuthorized (prim : Primitives) (height : Nat) (utxos : UtxoMap)
    (transactions : List Transaction) : Prop :=
  ∀ before tx after, transactions = before ++ tx :: after → tx.isCoinbase = false →
    ∀ spent inp rest, tx.vin = spent ++ inp :: rest →
      ∃ entry, (metAt prim height utxos before spent).lookup inp.outpoint = some entry ∧
        tx.verifyInputSignature prim spent.length entry.scriptPubkey entry.value = true ∧
        (entry.isCoinbase = true → entry.height + coinbaseMaturity ≤ height)

/-- An applied block finds an entry for each of its inputs. -/
theorem lookup_metAt_of_completed {prim : Primitives} {height : Nat} {utxos : UtxoMap}
    {before after : List Transaction} {tx : Transaction}
    {journal : Journal Outpoint UTXOEntry}
    (completed : run (start utxos) (blockEvents prim height (before ++ tx :: after)) =
      (journal, none))
    (notCoinbase : tx.isCoinbase = false) {spent rest : List TxIn} {inp : TxIn}
    (inputs : tx.vin = spent ++ inp :: rest) :
    ∃ entry, (metAt prim height utxos before spent).lookup inp.outpoint = some entry := by
  have split : blockEvents prim height (before ++ tx :: after) =
      (blockEvents prim height before ++ spent.map fun inp => .take inp.outpoint) ++
        .take inp.outpoint :: ((rest.map fun inp => .take inp.outpoint) ++
          createEvents prim height tx ++ blockEvents prim height after) := by
    simp [blockEvents, transactionEvents, spendEvents, notCoinbase, inputs]
  rw [split] at completed
  exact run_take_found completed

/-- The entry an input meets was there before its transaction. -/
theorem lookup_before_of_metAt {prim : Primitives} {height : Nat} {utxos : UtxoMap}
    {before : List Transaction} {spent : List TxIn} {outpoint : Outpoint} {entry : UTXOEntry}
    (met : (metAt prim height utxos before spent).lookup outpoint = some entry) :
    (settle utxos (blockEvents prim height before)).lookup outpoint = some entry := by
  have takes : (spent.map fun inp => (.take inp.outpoint : Event Outpoint UTXOEntry)) =
      (spent.map TxIn.outpoint).map .take := by
    rw [List.map_map]
    rfl
  rw [metAt, settle_append, takes] at met
  exact lookup_of_lookup_settle_takes met

/-! ## Checking a block before it is applied -/

/-- Every input that is there is signed, and mature if it is a coinbase. -/
def Authorized (prim : Primitives) (height : Nat) (utxos : UtxoMap) (tx : Transaction) :
    Prop :=
  tx.isCoinbase = false → ∀ input ∈ tx.vin.zipIdx, ∀ entry,
    utxos.lookup input.1.outpoint = some entry →
      tx.verifyInputSignature prim input.2 entry.scriptPubkey entry.value = true ∧
        (entry.isCoinbase = true → entry.height + coinbaseMaturity ≤ height)

/-- Each transaction is authorized in the set that those before it leave. -/
def AllAuthorized (prim : Primitives) (height : Nat) : UtxoMap → List Transaction → Prop
  | _, [] => True
  | utxos, tx :: rest =>
      Authorized prim height utxos tx ∧
        AllAuthorized prim height (settle utxos (transactionEvents prim height tx)) rest

theorem AllAuthorized.authorized {prim : Primitives} {height : Nat} {utxos : UtxoMap}
    {before after : List Transaction} {tx : Transaction}
    (all : AllAuthorized prim height utxos (before ++ tx :: after)) :
    Authorized prim height (settle utxos (blockEvents prim height before)) tx := by
  induction before generalizing utxos with
  | nil => exact all.1
  | cons first before ih =>
      have rest := ih all.2
      rwa [← settle_append] at rest

/-- An authorized block that is applied only makes authorized spends. -/
theorem AllAuthorized.spendsAuthorized {prim : Primitives} {height : Nat} {utxos : UtxoMap}
    {transactions : List Transaction} {journal : Journal Outpoint UTXOEntry}
    (all : AllAuthorized prim height utxos transactions)
    (completed : run (start utxos) (blockEvents prim height transactions) =
      (journal, none)) :
    SpendsAuthorized prim height utxos transactions := by
  rintro before tx after rfl notCoinbase spent inp rest inputs
  obtain ⟨entry, met⟩ := lookup_metAt_of_completed completed notCoinbase inputs
  have member : (inp, spent.length) ∈ tx.vin.zipIdx := by
    rw [List.mem_zipIdx_iff_getElem?, inputs]
    simp
  exact ⟨entry, met, all.authorized notCoinbase _ member entry (lookup_before_of_metAt met)⟩

/-! ## The active chain -/

def AuthorizedNode (prim : Primitives) (node : BlockIndexNode) (block : Block)
    (base : UTXOSet) : Prop :=
  AllAuthorized prim node.height base.utxos block.transactions

theorem genesis_authorized (prim : Primitives) :
    Behind prim (AuthorizedNode prim) [] (rootNode prim) := by
  intro base block used _ read
  obtain ⟨used', readGenesis⟩ := deserialize_genesis prim
  rw [readGenesis] at read
  cases read
  have coinbase : genesisCoinbase.isCoinbase = true := by decide
  refine ⟨?_, trivial⟩
  intro notCoinbase
  rw [coinbase] at notCoinbase
  cases notCoinbase

/-- The blocks of the active chain only make authorized spends, each on the
replay of the chain above it. -/
def ActiveSpendsAuthorized (prim : Primitives) (cs : Chainstate) : Prop :=
  ∃ line, Ancestry prim cs.blockIndex line cs.bestTip ∧
    cs.activeChain = line.map BlockIndexNode.hash ∧
    ∀ above node below, line = above ++ node :: below →
      ∃ base block used, replay prim above = (.ok (), base) ∧
        Block.deserialize node.rawBlock = .ok (block, used) ∧
        SpendsAuthorized prim node.height base.utxos block.transactions

/-- In a run of recoverable and authorized blocks the active chain only makes
authorized spends. -/
theorem reaches_spendsAuthorized (prim : Primitives) (hashNonzero : prim.HashNonzero)
    (cs : Chainstate)
    (reached : Reaches prim (fun cs block => Recovers prim cs block ∧
      Offers prim (AuthorizedNode prim) cs block) cs) :
    ActiveSpendsAuthorized prim cs := by
  have chain := reached.replayedChain hashNonzero fun _ _ both => both.1
  obtain ⟨line, tip, active⟩ := chain.tree.active
  refine ⟨line, tip, active, ?_⟩
  rintro above node below rfl
  have lineage := tip.of_member
  have authorized : Behind prim (AuthorizedNode prim) above node := by
    cases above with
    | nil =>
        have isRoot : rootNode prim = node := by simpa using lineage.root_mem
        rw [← isRoot]
        exact genesis_authorized prim
    | cons first rest => exact reached.behind hashNonzero lineage (List.cons_ne_nil _ _)
  obtain ⟨base, replayedAbove, connectedFrom⟩ :=
    runAll_append_ok.mp (chain.replayed _ tip)
  obtain ⟨next, connected, -⟩ := runAll_cons_ok.mp connectedFrom
  obtain ⟨block, used, undo, read, applied⟩ := connectNode_eq_ok.mp connected
  obtain ⟨journal, completed, -, -⟩ := applyBlock_eq_ok.mp applied
  exact ⟨base, block, used, replayedAbove, read,
    (authorized base block used replayedAbove read).spendsAuthorized completed⟩

/-- At height 1 the spends of the tip are those on the genesis outputs. -/
theorem ActiveSpendsAuthorized.atHeightOne {prim : Primitives} {cs : Chainstate}
    (authorized : ActiveSpendsAuthorized prim cs) (height : cs.bestTip.height = 1)
    (block : Block)
    (readBack : (Block.deserialize cs.bestTip.rawBlock).toOption.map Prod.fst = some block) :
    SpendsAuthorized prim 1 (genesisState prim).utxoSet.utxos block.transactions := by
  obtain ⟨line, tip, -, each⟩ := authorized
  have length := tip.length_eq
  rw [height] at length
  obtain ⟨first, last, rfl⟩ := List.length_eq_two.mp length
  obtain ⟨isTip, parent, above, -, -⟩ :=
    Lineage.of_append_singleton (List.cons_ne_nil first []) tip
  have isRoot : rootNode prim = first := by simpa using above.root_mem
  obtain ⟨base, read, used, replayed, readAs, spends⟩ := each [first] last [] rfl
  rw [← isRoot, replay_genesis] at replayed
  cases replayed
  rw [isTip] at readAs
  have same : read = block := by simpa [readAs, Except.toOption] using readBack
  rwa [isTip, height, same] at spends

/-- The genesis coinbase is spent at height 1 and without a signature. -/
theorem greedyBlock_unauthorized :
    let cs := (genesisState chainPrimitives).afterBlock chainPrimitives greedyBlock
    Reaches chainPrimitives (fun _ _ => True) cs ∧
      ¬ ActiveSpendsAuthorized chainPrimitives cs := by
  obtain ⟨message, returned⟩ := greedyBlock_answers.processBlock_eq
  refine ⟨.block (.genesis chainPrimitives_initGenesis) trivial returned, ?_⟩
  intro authorized
  have spends := authorized.atHeightOne (by decide +kernel) greedyBlock
    (by decide +kernel)
  obtain ⟨entry, -, signed, -⟩ := spends [greedyCoinbase] unsignedSpend [] rfl
    (by decide) [] _ [] rfl
  have unsigned : unsignedSpend.verifyInputSignature chainPrimitives 0 entry.scriptPubkey
      entry.value = false :=
    Transaction.verifyInputSignature_of_witness_nil chainPrimitives rfl rfl _ _
  exact Bool.false_ne_true (unsigned.symm.trans signed)

/-! ### A run that spends a matured output -/

/-- Offered blocks are recoverable and authorized. -/
def AdmitsAuthorized (prim : Primitives) (cs : Chainstate) (block : Block) : Prop :=
  Recovers prim cs block ∧ Offers prim (AuthorizedNode prim) cs block

theorem authorized_of_isCoinbase {prim : Primitives} {height : Nat} {utxos : UtxoMap}
    {tx : Transaction} (isCoinbase : tx.isCoinbase = true) : Authorized prim height utxos tx := by
  intro notCoinbase
  rw [isCoinbase] at notCoinbase
  cases notCoinbase

/-- Each block of the chain may be offered to a node that is behind its parent. -/
theorem longChain_admitted {cs : Chainstate} {mined : MinedBlock} {previous : Nat}
    (reached : Reaches longChainPrimitives (AdmitsAuthorized longChainPrimitives) cs)
    (member : mined ∈ longChain) (tip : cs.bestTip.hash = leBytes 32 previous)
    (unspent : ∀ vout, cs.utxoSet.utxos.lookup (leBytes 32 mined.txid, vout) = none) :
    AdmitsAuthorized longChainPrimitives cs (mined.toBlock previous) := by
  have chain := reached.replayedChain longChainPrimitives_hashNonzero fun _ _ both => both.1
  have sound := longChain_coinbases mined member
  have wellFormed := @MinedBlock.toBlock_wellFormed mined previous sound
  have spends := @MinedBlock.spentOutpoints_toBlock mined previous sound
  constructor
  · refine @ReplayedChain.offers _ _ _ chain (RecoverableNode _) _ wellFormed tip.symm ?_
    intro work
    apply Clean.recoverable
    refine ⟨by simp [spends], ?_⟩
    rintro ⟨txid, vout⟩ created
    have same : txid = leBytes 32 mined.txid :=
      MinedBlock.of_mem_createdOutpoints (longChain_txid_eq mined member) created
    rw [same, ← Finmap.lookup_eq_none]
    exact unspent vout
  · refine @ReplayedChain.offers _ _ _ chain (AuthorizedNode _) _ wellFormed tip.symm ?_
    intro work
    exact ⟨authorized_of_isCoinbase sound.isCoinbase, trivial⟩

theorem createdOutpoints_spendingBlock :
    createdOutpoints longChainPrimitives spendingBlock.transactions =
      [(leBytes 32 spendingCoinbaseTxid, 0), (leBytes 32 signedSpend.txid, 0)] := by
  rw [← spendingCoinbase_txid, ← signedSpend_txid]
  rfl

theorem signedSpend_verifies :
    signedSpend.tx.verifyInputSignature longChainPrimitives 0 fundingEntry.scriptPubkey
      fundingEntry.value = true := by
  decide +kernel

/-- Its outputs are new to the set and it does not spend them itself. -/
theorem spendingBlock_clean {cs : Chainstate}
    (grown : Grown longChainPrimitives (genesisState longChainPrimitives) cs genesisDigest
      longChain) :
    Clean longChainPrimitives spendingBlock.transactions cs.utxoSet.utxos := by
  have others : ∀ txid ∈ [spendingCoinbaseTxid, signedSpend.txid],
      leBytes 32 txid ≠ leBytes 32 genesisTxid ∧
        ∀ mined ∈ longChain, leBytes 32 txid ≠ leBytes 32 mined.txid := by
    intro txid member
    have fits : txid < 256 ^ 32 ∧ txid ≠ genesisTxid :=
      (by decide : ∀ txid ∈ [spendingCoinbaseTxid, signedSpend.txid],
        txid < 256 ^ 32 ∧ txid ≠ genesisTxid) txid member
    refine ⟨fun same => fits.2 (leBytes_injective fits.1 (by decide) same), ?_⟩
    intro mined isMined same
    have equal := leBytes_injective fits.1 (longChain_txids_fit mined isMined) same
    exact (longChain_checked.1 mined isMined).2.2.2 (equal ▸ List.mem_cons_of_mem _ member)
  constructor
  · rw [createdOutpoints_spendingBlock, spentOutpoints_spendingBlock]
    decide
  · rw [createdOutpoints_spendingBlock]
    rintro ⟨txid, vout⟩ created
    obtain ⟨number, member, rfl⟩ : ∃ number ∈ [spendingCoinbaseTxid, signedSpend.txid],
        txid = leBytes 32 number := by
      rcases List.mem_cons.mp created with same | created
      · exact ⟨_, List.mem_cons_self, congrArg Prod.fst same⟩
      · exact ⟨_, by simp, congrArg Prod.fst (List.mem_singleton.mp created)⟩
    rw [← Finmap.lookup_eq_none, grown.untouched _ (others number member).2]
    exact lookup_genesis_of_ne (others number member).1

/-- The spend of the matured output may be offered behind the chain. -/
theorem spendingBlock_admitted {cs : Chainstate}
    (reached : Reaches longChainPrimitives (AdmitsAuthorized longChainPrimitives) cs)
    (grown : Grown longChainPrimitives (genesisState longChainPrimitives) cs genesisDigest
      longChain) (funded : cs.utxoSet.utxos.lookup fundingOutpoint = some fundingEntry) :
    AdmitsAuthorized longChainPrimitives cs spendingBlock := by
  have chain := reached.replayedChain longChainPrimitives_hashNonzero fun _ _ both => both.1
  have tip : spendingBlock.header.prevBlock = cs.bestTip.hash := grown.tip.symm
  have height : cs.bestTip.height = 256 := by
    rw [grown.height, longChain_length]
    rfl
  have matured : fundingEntry.height + coinbaseMaturity ≤ cs.bestTip.height + 1 := by
    rw [height]
    decide
  constructor
  · refine @ReplayedChain.offers _ _ _ chain (RecoverableNode _) _ spendingBlock_wellFormed tip ?_
    intro work
    exact (spendingBlock_clean grown).recoverable _
  · refine @ReplayedChain.offers _ _ _ chain (AuthorizedNode _) _ spendingBlock_wellFormed tip ?_
    intro work
    refine ⟨authorized_of_isCoinbase (heightCoinbase_sound 257 0).isCoinbase, ?_, trivial⟩
    intro _ input member entry found
    rw [List.mem_singleton.mp member] at found ⊢
    -- The output of the coinbase before is another one.
    have created : fundingOutpoint ≠ ((heightCoinbase 257 0).txid longChainPrimitives, 0) := by
      rw [spendingCoinbase_txid]
      decide
    have kept : (cs.utxoSet.utxos.insert ((heightCoinbase 257 0).txid longChainPrimitives, 0)
        ⟨50 * coin, [0x51], cs.bestTip.height + 1, true⟩).lookup fundingOutpoint =
          some fundingEntry := by
      rw [Finmap.lookup_insert_of_ne _ created, funded]
    obtain rfl : fundingEntry = entry := Option.some.inj (kept.symm.trans found)
    exact ⟨signedSpend_verifies, fun _ => matured⟩

/-- An output that matured on the chain is spent with a signature, and nothing else is
spent. -/
theorem spendingBlock_authorized : ∃ cs,
    Reaches longChainPrimitives (AdmitsAuthorized longChainPrimitives) cs ∧
      cs.bestTip.height = 257 ∧ cs.bestTip.rawBlock = spendingBlock.serialize ∧
      spentOutpoints spendingBlock.transactions = [fundingOutpoint] ∧
      ActiveSpendsAuthorized longChainPrimitives cs := by
  obtain ⟨cs, reached, grown, funded⟩ :=
    @longChain_grown (AdmitsAuthorized longChainPrimitives)
      fun _ _ _ reached member tip unspent => longChain_admitted reached member tip unspent
  obtain ⟨-, message, next, processed, tip⟩ := spendingBlock_accepted reached grown funded
  have spent : Reaches longChainPrimitives (AdmitsAuthorized longChainPrimitives) next :=
    .block reached (spendingBlock_admitted reached grown funded) processed
  have height : cs.bestTip.height = 256 := by
    rw [grown.height, longChain_length]
    rfl
  refine ⟨next, spent, ?_, ?_, spentOutpoints_spendingBlock, ?_⟩
  · rw [tip]
    exact congrArg (· + 1) height
  · rw [tip, childNode_rawBlock]
  · exact reaches_spendsAuthorized longChainPrimitives longChainPrimitives_hashNonzero next spent

end QuantyCoin
