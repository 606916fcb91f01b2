import Mathlib.Algebra.BigOperators.Ring.Finset
import Mathlib.Algebra.Order.BigOperators.Group.Finset
import QuantyCoin.ChainReplay
import QuantyCoin.HeaderRules

/-!
# Monetary supply

Before the first halving a block earns 25 coins, and 25 more on Lane A.  The
first halving comes at height 2,100,000, long after the cap of 21,000,000 coins
is used up, so the cap holds only up to a length that depends on the lanes.

`process_block` never compares outputs with inputs or a coinbase with its
subsidy.  The supply is bounded by the subsidies of the active chain in the
runs that only offer blocks which would pass these comparisons.
-/

namespace QuantyCoin

open AncestorWalk BranchSwitch Finset MapJournal

/-! ## Subsidies -/

/-- The number of heights below `n` that are mined on Lane A. -/
def laneACount (n : Nat) (lane : Nat → Nat) : Nat :=
  ((range n).filter fun height => lane height = powTypeSha256d).card

/-- Before the first halving every block earns one share of 25 coins, and a
second share on Lane A. -/
theorem getBlockSubsidy_first_era {height : Nat} (early : height < subsidyHalvingInterval)
    (powType : Nat) :
    getBlockSubsidy height powType =
      laneBBaseSubsidy * (1 + if powType = powTypeSha256d then 1 else 0) := by
  have noHalving : height / subsidyHalvingInterval = 0 := Nat.div_eq_of_lt early
  rw [getBlockSubsidy, noHalving]
  by_cases laneA : powType = powTypeSha256d
  · simp [laneA, laneABaseSubsidy, laneBBaseSubsidy]
  · simp [laneA]

theorem sum_getBlockSubsidy_first_era {n : Nat} (early : n ≤ subsidyHalvingInterval)
    (lane : Nat → Nat) :
    ∑ height ∈ range n, getBlockSubsidy height (lane height) =
      laneBBaseSubsidy * (n + laneACount n lane) := by
  calc
    ∑ height ∈ range n, getBlockSubsidy height (lane height)
        = ∑ height ∈ range n,
            laneBBaseSubsidy * (1 + if lane height = powTypeSha256d then 1 else 0) := by
          apply Finset.sum_congr rfl
          intro height member
          exact getBlockSubsidy_first_era
            (lt_of_lt_of_le (mem_range.mp member) early) (lane height)
    _ = laneBBaseSubsidy * (n + laneACount n lane) := by
          rw [← Finset.mul_sum, Finset.sum_add_distrib, laneACount, Finset.card_filter]
          simp

/-- The subsidies of a chain of length `n` stay within the cap exactly if `n`
and the number of its Lane A blocks are together at most 840,000. -/
theorem sum_getBlockSubsidy_le_maxMoney_iff (n : Nat) (lane : Nat → Nat) :
    ∑ height ∈ range n, getBlockSubsidy height (lane height) ≤ maxMoneySatoshis ↔
      n + laneACount n lane ≤ 840000 := by
  rcases Nat.lt_or_ge subsidyHalvingInterval n with late | early
  · -- The first era alone exceeds the cap.
    have firstEra := sum_getBlockSubsidy_first_era le_rfl lane
    have grows : ∑ height ∈ range subsidyHalvingInterval,
          getBlockSubsidy height (lane height) ≤
        ∑ height ∈ range n, getBlockSubsidy height (lane height) :=
      Finset.sum_le_sum_of_subset (Finset.range_subset_range.mpr late.le)
    simp only [maxMoneySatoshis, laneBBaseSubsidy, subsidyHalvingInterval] at *
    omega
  · rw [sum_getBlockSubsidy_first_era early]
    simp only [maxMoneySatoshis, laneBBaseSubsidy]
    omega

theorem sum_getBlockSubsidy_laneA {n : Nat} (early : n ≤ subsidyHalvingInterval) :
    ∑ height ∈ range n, getBlockSubsidy height powTypeSha256d =
      laneABaseSubsidy * n := by
  have every : laneACount n (fun _ => powTypeSha256d) = n := by
    simp [laneACount]
  rw [sum_getBlockSubsidy_first_era early fun _ => powTypeSha256d, every,
    laneABaseSubsidy, laneBBaseSubsidy]
  omega

/-- A chain of 420,001 blocks on Lane A issues 50 coins more than the cap. -/
theorem sum_getBlockSubsidy_laneA_not_le :
    ¬ ∑ height ∈ range 420001, getBlockSubsidy height powTypeSha256d ≤
      maxMoneySatoshis := by
  rw [sum_getBlockSubsidy_laneA (by decide)]
  decide

/-! ## Value accounting -/

/-- The value of the entries a transaction spends. -/
def inputValue (utxos : UtxoMap) (tx : Transaction) : Nat :=
  takenWeight UTXOEntry.value utxos (spendEvents tx)

/-- The fees of transactions that are applied one after another. -/
def totalFees (prim : Primitives) (height : Nat) : UtxoMap → List Transaction → Nat
  | _, [] => 0
  | utxos, tx :: rest =>
      (inputValue utxos tx - tx.totalOut) +
        totalFees prim height (settle utxos (transactionEvents prim height tx)) rest

/-- No transaction pays out more than it spends. -/
def Covered (prim : Primitives) (height : Nat) : UtxoMap → List Transaction → Prop
  | _, [] => True
  | utxos, tx :: rest =>
      tx.totalOut ≤ inputValue utxos tx ∧
        Covered prim height (settle utxos (transactionEvents prim height tx)) rest

/-- The coinbase passes `CheckCoinbase` with the fees of the other
transactions, and these are covered. -/
def Funded (prim : Primitives) (height powType : Nat) (utxos : UtxoMap) :
    List Transaction → Prop
  | [] => True
  | coinbase :: rest =>
      let behind := settle utxos (transactionEvents prim height coinbase)
      (checkCoinbase coinbase height powType (totalFees prim height behind rest)).1 = true ∧
        Covered prim height behind rest

theorem putWeight_transactionEvents (prim : Primitives) (height : Nat) (tx : Transaction) :
    putWeight UTXOEntry.value (transactionEvents prim height tx) = tx.totalOut := by
  have spends : putWeight UTXOEntry.value (spendEvents tx) = 0 := by
    unfold spendEvents
    split_ifs
    · rfl
    · induction tx.vin with
      | nil => rfl
      | cons inp rest ih => exact ih
  have creates : ∀ outs : List (TxOut × Nat),
      putWeight UTXOEntry.value (outs.map fun out =>
        (.put (tx.txid prim, out.2) ⟨out.1.value, out.1.scriptPubkey, height,
          tx.isCoinbase⟩ : Event Outpoint UTXOEntry)) =
        (outs.map fun out => out.1.value).sum := by
    intro outs
    induction outs with
    | nil => rfl
    | cons out outs ih => simp [putWeight, ih]
  have values : tx.vout.zipIdx.map (fun out => out.1.value) = tx.vout.map TxOut.value := by
    conv_rhs => rw [← List.zipIdx_map_fst 0 tx.vout]
    rw [List.map_map]
    rfl
  rw [transactionEvents, putWeight_append, spends, createEvents, creates, values, Nat.zero_add,
    Transaction.totalOut]

theorem takenWeight_transactionEvents (prim : Primitives) (height : Nat) (utxos : UtxoMap)
    (tx : Transaction) :
    takenWeight UTXOEntry.value utxos (transactionEvents prim height tx) =
      inputValue utxos tx := by
  have creates : ∀ (outs : List (TxOut × Nat)) (store : UtxoMap),
      takenWeight UTXOEntry.value store (outs.map fun out =>
        (.put (tx.txid prim, out.2) ⟨out.1.value, out.1.scriptPubkey, height,
          tx.isCoinbase⟩ : Event Outpoint UTXOEntry)) = 0 := by
    intro outs
    induction outs with
    | nil => intro store; rfl
    | cons out outs ih => intro store; exact ih _
  rw [transactionEvents, takenWeight_append, createEvents, creates, inputValue, Nat.add_zero]

/-- Covered transactions put exactly what they take, less their fees. -/
theorem Covered.putWeight_add_totalFees {prim : Primitives} {height : Nat} {utxos : UtxoMap}
    {transactions : List Transaction} (covered : Covered prim height utxos transactions) :
    putWeight UTXOEntry.value (blockEvents prim height transactions) +
        totalFees prim height utxos transactions =
      takenWeight UTXOEntry.value utxos (blockEvents prim height transactions) := by
  induction transactions generalizing utxos with
  | nil => rfl
  | cons tx rest ih =>
      obtain ⟨enough, coveredRest⟩ := covered
      have restEq := ih coveredRest
      simp only [blockEvents, List.flatMap_cons, putWeight_append, takenWeight_append,
        putWeight_transactionEvents, takenWeight_transactionEvents, totalFees] at restEq ⊢
      omega

theorem checkCoinbase_eq_true {tx : Transaction} {height powType fees : Nat} :
    (checkCoinbase tx height powType fees).1 = true ↔
      tx.isCoinbase = true ∧ tx.totalOut ≤ getBlockSubsidy height powType + fees := by
  unfold checkCoinbase
  cases coinbase : tx.isCoinbase with
  | false => simp
  | true =>
      by_cases much : tx.totalOut > getBlockSubsidy height powType + fees
      · simp [much, Nat.not_le.mpr much]
      · simp [much, Nat.not_lt.mp much]

/-- A funded block adds at most its subsidy to the circulation. -/
theorem Funded.total_le {prim : Primitives} {height powType : Nat} {utxos : UtxoMap}
    {transactions : List Transaction} (funded : Funded prim height powType utxos transactions) :
    total UTXOEntry.value (settle utxos (blockEvents prim height transactions)) ≤
      total UTXOEntry.value utxos + getBlockSubsidy height powType := by
  have conserved := total_settle_le UTXOEntry.value utxos
    (blockEvents prim height transactions)
  cases transactions with
  | nil => exact Nat.le_add_right _ _
  | cons coinbase rest =>
      obtain ⟨checked, covered⟩ := funded
      have paid := (checkCoinbase_eq_true.mp checked).2
      have balanced := covered.putWeight_add_totalFees
      simp only [blockEvents, List.flatMap_cons, putWeight_append, takenWeight_append,
        putWeight_transactionEvents] at conserved balanced ⊢
      omega

/-! ## Circulation along the active chain -/

/-- The subsidy of the block of a node. -/
def BlockIndexNode.subsidy (node : BlockIndexNode) : Nat :=
  getBlockSubsidy node.height node.header.powType

/-- The sum of the subsidies of the blocks of the active chain. -/
def Chainstate.activeSubsidies (cs : Chainstate) : Nat :=
  (cs.activeChain.map fun hash =>
    ((cs.blockIndex.lookup hash).map BlockIndexNode.subsidy).getD 0).sum

def FundedNode (prim : Primitives) (node : BlockIndexNode) (block : Block)
    (base : UTXOSet) : Prop :=
  Funded prim node.height node.header.powType base.utxos block.transactions

theorem connectNode_totalCirculation_le {prim : Primitives} {set next : UTXOSet}
    {node : BlockIndexNode} (connected : connectNode prim set node = (.ok (), next))
    (funded : ∀ block used, Block.deserialize node.rawBlock = .ok (block, used) →
      FundedNode prim node block set) :
    next.totalCirculation ≤ set.totalCirculation + node.subsidy := by
  obtain ⟨block, used, undo, read, applied⟩ := connectNode_eq_ok.mp connected
  obtain ⟨journal, completed, -, rfl⟩ := applyBlock_eq_ok.mp applied
  have store : journal.store =
      settle set.utxos (blockEvents prim node.height block.transactions) :=
    run_store completed
  have bounded := (funded block used read).total_le
  rw [← store] at bounded
  exact bounded

theorem genesis_totalCirculation_le (prim : Primitives) :
    (genesisState prim).utxoSet.totalCirculation ≤ (rootNode prim).subsidy := by
  have connected := replay_genesis prim
  rw [replay, runAll_singleton] at connected
  have bounded := connectNode_totalCirculation_le connected (by
    intro block used read
    obtain ⟨used', readGenesis⟩ := deserialize_genesis prim
    rw [readGenesis] at read
    cases read
    refine ⟨checkCoinbase_eq_true.mpr ⟨by decide, ?_⟩, trivial⟩
    have lane : (rootNode prim).header.powType = 0 := genesisHeader_powType prim
    rw [rootNode_height, lane]
    exact le_trans (by decide) (Nat.le_add_right (getBlockSubsidy 0 0) _))
  have emptyTotal : UTXOSet.empty.totalCirculation = 0 := rfl
  omega

/-- A replayed path of funded nodes circulates at most its subsidies. -/
theorem replay_totalCirculation_le {prim : Primitives} {index : BlockIndex}
    {line : List BlockIndexNode} {node : BlockIndexNode}
    (lineage : Ancestry prim index line node)
    (funded : ∀ above last, Ancestry prim index (above ++ [last]) last → above ≠ [] →
      Behind prim (FundedNode prim) above last)
    {set : UTXOSet} (replayed : replay prim line = (.ok (), set)) :
    set.totalCirculation ≤ (line.map BlockIndexNode.subsidy).sum := by
  induction lineage generalizing set with
  | root =>
      rw [replay_genesis] at replayed
      cases replayed
      rw [List.map_singleton, List.sum_singleton]
      exact genesis_totalCirculation_le prim
  | @child line last node above stored linked ranked ih =>
      obtain ⟨base, replayedAbove, connected⟩ := runAll_append_ok.mp replayed
      rw [runAll_singleton] at connected
      have nonempty : line ≠ [] := List.ne_nil_of_mem above.node_mem
      have behind := funded line node (above.child stored linked ranked) nonempty
      have grown := connectNode_totalCirculation_le connected fun block used read =>
        behind base block used replayedAbove read
      have before := ih replayedAbove
      rw [List.map_append, List.sum_append, List.map_singleton, List.sum_singleton]
      omega

theorem activeSubsidies_eq {prim : Primitives} {cs : Chainstate}
    {line : List BlockIndexNode} {node : BlockIndexNode}
    (lineage : Ancestry prim cs.blockIndex line node)
    (active : cs.activeChain = line.map BlockIndexNode.hash) :
    cs.activeSubsidies = (line.map BlockIndexNode.subsidy).sum := by
  rw [Chainstate.activeSubsidies, active, List.map_map]
  congr 1
  apply List.map_congr_left
  intro member memberOf
  simp [lineage.stored member memberOf]

/-- In a run of recoverable and funded blocks the circulation is at most the
sum of the subsidies of the active chain. -/
theorem reaches_totalCirculation_le (prim : Primitives) (hashNonzero : prim.HashNonzero)
    (cs : Chainstate)
    (reached : Reaches prim (fun cs block => Recovers prim cs block ∧
      Offers prim (FundedNode prim) cs block) cs) :
    cs.utxoSet.totalCirculation ≤ cs.activeSubsidies := by
  have chain := reached.replayedChain hashNonzero fun _ _ both => both.1
  obtain ⟨line, tip, active⟩ := chain.tree.active
  rw [activeSubsidies_eq tip active]
  apply replay_totalCirculation_le tip _ (chain.replayed line tip)
  intro above last lineage nonempty
  exact reached.behind hashNonzero lineage nonempty

/-- A block whose coinbase pays 10,000 coins becomes the tip. -/
theorem greedyBlock_inflates :
    let cs := (genesisState chainPrimitives).afterBlock chainPrimitives greedyBlock
    Reaches chainPrimitives (fun _ _ => True) cs ∧ cs.bestTip.height = 1 ∧
      ¬ cs.utxoSet.totalCirculation ≤ cs.activeSubsidies := by
  obtain ⟨message, returned⟩ := greedyBlock_answers.processBlock_eq
  refine ⟨.block (.genesis chainPrimitives_initGenesis) trivial returned, ?_⟩
  decide +kernel

theorem coinbaseBlock_circulation :
    let cs := (genesisState chainPrimitives).afterBlock chainPrimitives coinbaseBlock
    cs.utxoSet.totalCirculation = 100 * coin ∧
      cs.utxoSet.totalCirculation ≤ cs.activeSubsidies := by
  obtain ⟨message, returned⟩ := coinbaseBlock_answers.processBlock_eq
  have checked : Funded chainPrimitives 1 coinbaseBlock.header.powType
      (genesisState chainPrimitives).utxoSet.utxos coinbaseBlock.transactions :=
    ⟨by decide, trivial⟩
  have funded : Offers chainPrimitives (FundedNode chainPrimitives)
      (genesisState chainPrimitives) coinbaseBlock :=
    Offers.atGenesis chainPrimitives_hashNonzero (by decide +kernel) fun _ => checked
  exact ⟨by decide +kernel, reaches_totalCirculation_le chainPrimitives
    chainPrimitives_hashNonzero _ (.block (.genesis chainPrimitives_initGenesis)
      ⟨coinbaseBlock_cleanOffer.recovers, funded⟩ returned)⟩

end QuantyCoin
