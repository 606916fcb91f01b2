import QuantyCoin.ChainReplay
import QuantyCoin.MempoolAdmission

/-!
# When the memory pool can be mined

The pool is cleaned by transaction id when a branch is connected.  That is not
enough: a connected transaction may spend an outpoint of a pooled one, and
disconnecting a block takes its outputs away.  Here runs are restricted to
blocks that do neither, and to blocks that can be taken back where a call has
to; then every input of every pooled transaction stays unspent, and a coinbase
followed by the whole pool, in any order, applies.
-/

namespace QuantyCoin

open AncestorWalk BranchSwitch ByteDecoder MapJournal

/-! ## The transactions of a branch -/

/-- The transactions of the block of a node, as they are read back. -/
def nodeTransactions (node : BlockIndexNode) : List Transaction :=
  match Block.deserialize node.rawBlock with
  | .ok (block, _) => block.transactions
  | .error _ => []

def branchTransactions (nodes : List BlockIndexNode) : List Transaction :=
  nodes.flatMap nodeTransactions

/-- Everything that connecting a branch does to the unspent outputs. -/
def branchEvents (prim : Primitives) (nodes : List BlockIndexNode) :
    List (Event Outpoint UTXOEntry) :=
  nodes.flatMap fun node => blockEvents prim node.height (nodeTransactions node)

theorem branchEvents_cons (prim : Primitives) (node : BlockIndexNode)
    (nodes : List BlockIndexNode) :
    branchEvents prim (node :: nodes) =
      blockEvents prim node.height (nodeTransactions node) ++ branchEvents prim nodes :=
  List.flatMap_cons

theorem branchTransactions_cons (node : BlockIndexNode) (nodes : List BlockIndexNode) :
    branchTransactions (node :: nodes) = nodeTransactions node ++ branchTransactions nodes :=
  List.flatMap_cons

theorem nodeTransactions_eq {node : BlockIndexNode} {block : Block} {used : Nat}
    (read : Block.deserialize node.rawBlock = .ok (block, used)) :
    nodeTransactions node = block.transactions := by
  rw [nodeTransactions, read]

theorem runAll_connectNode_utxos {prim : Primitives} {base last : UTXOSet}
    {nodes : List BlockIndexNode}
    (connected : runAll (connectNode prim) base nodes = (.ok (), last)) :
    last.utxos = settle base.utxos (branchEvents prim nodes) := by
  induction nodes generalizing base with
  | nil =>
      cases connected
      rfl
  | cons node nodes ih =>
      obtain ⟨next, first, rest⟩ := runAll_cons_ok.mp connected
      obtain ⟨block, used, undo, read, applied⟩ := connectNode_eq_ok.mp first
      obtain ⟨journal, completed, -, rfl⟩ := applyBlock_eq_ok.mp applied
      have left : journal.store = settle base.utxos
          (blockEvents prim node.height (nodeTransactions node)) := by
        rw [nodeTransactions_eq read]
        exact run_store completed
      rw [ih rest, left, branchEvents_cons, settle_append]

theorem takeKeys_branchEvents (prim : Primitives) (nodes : List BlockIndexNode) :
    takeKeys (branchEvents prim nodes) = spentOutpoints (branchTransactions nodes) := by
  induction nodes with
  | nil => rfl
  | cons node nodes ih =>
      rw [branchEvents_cons, takeKeys_append, takeKeys_blockEvents, ih,
        branchTransactions_cons, spentOutpoints_append]

theorem putKeys_branchEvents (prim : Primitives) (nodes : List BlockIndexNode) :
    putKeys (branchEvents prim nodes) = createdOutpoints prim (branchTransactions nodes) := by
  induction nodes with
  | nil => rfl
  | cons node nodes ih =>
      rw [branchEvents_cons, putKeys_append, putKeys_blockEvents, ih,
        branchTransactions_cons, createdOutpoints, createdOutpoints, createdOutpoints,
        List.flatMap_append]

/-- Behind a connected branch the pool is cleaned of its transactions. -/
theorem runAll_cleanMined_eq {prim : Primitives} {base last : UTXOSet}
    {nodes : List BlockIndexNode}
    (connected : runAll (connectNode prim) base nodes = (.ok (), last)) (pool : Mempool) :
    (runAll (cleanMined prim) pool nodes).2 =
      pool.removeMinedTransactions prim (branchTransactions nodes) := by
  induction nodes generalizing base pool with
  | nil => rfl
  | cons node nodes ih =>
      obtain ⟨next, first, rest⟩ := runAll_cons_ok.mp connected
      obtain ⟨block, used, undo, read, -⟩ := connectNode_eq_ok.mp first
      have cleaned : cleanMined prim pool node =
          (.ok (), pool.removeMinedTransactions prim (nodeTransactions node)) := by
        rw [cleanMined, read, nodeTransactions_eq read]
      simp only [runAll, cleaned]
      rw [ih rest, branchTransactions_cons, Mempool.removeMinedTransactions,
        Mempool.removeMinedTransactions, Mempool.removeMinedTransactions, List.foldl_append]

/-! ## Pools whose inputs are unspent -/

namespace Mempool

theorem lookup_entries_removeTransaction (pool : Mempool) (removed txid : Bytes) :
    (pool.removeTransaction removed).entries.lookup txid =
      if txid = removed then none else pool.entries.lookup txid := by
  by_cases same : txid = removed
  · subst same
    rw [if_pos rfl]
    cases found : pool.entries.lookup txid with
    | none => rwa [removeTransaction_of_missing found]
    | some entry =>
        rw [removeTransaction_of_entry found]
        exact Finmap.lookup_erase txid pool.entries
  · rw [if_neg same]
    cases found : pool.entries.lookup removed with
    | none => rw [removeTransaction_of_missing found]
    | some entry =>
        rw [removeTransaction_of_entry found]
        exact Finmap.lookup_erase_ne same

theorem lookup_entries_removeMined (prim : Primitives) (pool : Mempool)
    (mined : List Transaction) (txid : Bytes) :
    (pool.removeMinedTransactions prim mined).entries.lookup txid =
      if txid ∈ mined.map (Transaction.txid prim) then none
      else pool.entries.lookup txid := by
  induction mined generalizing pool with
  | nil => simp [removeMinedTransactions]
  | cons tx mined ih =>
      have unfolded : pool.removeMinedTransactions prim (tx :: mined) =
          (pool.removeTransaction (tx.txid prim)).removeMinedTransactions prim mined := rfl
      rw [unfolded, ih, lookup_entries_removeTransaction, List.map_cons]
      by_cases later : txid ∈ mined.map (Transaction.txid prim)
      · rw [if_pos later, if_pos (List.mem_cons_of_mem _ later)]
      · rw [if_neg later]
        by_cases same : txid = tx.txid prim
        · rw [if_pos same, if_pos (by simp [same])]
        · rw [if_neg same, if_neg (by simp [same, later])]

/-- What `get_sorted_transactions` returns, up to the order: the fee rate it
sorts by is a floating-point number. -/
def Sorted (pool : Mempool) (txs : List Transaction) : Prop :=
  (txs : Multiset Transaction) = pool.entries.entries.map fun entry => entry.2.tx

/-- The inputs of pooled transactions are unspent and named only once. -/
structure Backed (prim : Primitives) (pool : Mempool) (utxos : UtxoMap) : Prop where
  consistent : pool.Consistent prim
  funded : ∀ txid entry, pool.entries.lookup txid = some entry →
    ∀ outpoint ∈ entry.tx.outpoints, outpoint ∈ utxos
  distinct : ∀ txid entry, pool.entries.lookup txid = some entry → entry.tx.outpoints.Nodup
  not_coinbase : ∀ txid entry, pool.entries.lookup txid = some entry →
    entry.tx.isCoinbase = false

variable {prim : Primitives} {pool : Mempool}

theorem backed_empty (prim : Primitives) (utxos : UtxoMap) : Backed prim empty utxos := by
  refine ⟨consistent_empty prim, ?_, ?_, ?_⟩ <;>
  · intro txid entry found
    simp [empty] at found

theorem lookup_entries_register {tx : Transaction} {totalIn now : Nat} {txid : Bytes}
    {entry : MempoolEntry}
    (found : (pool.register prim tx totalIn now).entries.lookup txid = some entry) :
    entry.tx = tx ∨ pool.entries.lookup txid = some entry := by
  by_cases same : txid = tx.txid prim
  · subst same
    rw [register, Finmap.lookup_insert] at found
    cases found
    exact Or.inl rfl
  · rw [register, Finmap.lookup_insert_of_ne _ same] at found
    exact Or.inr found

namespace Backed

theorem addTransaction {utxoSet : UTXOSet} (backed : Backed prim pool utxoSet.utxos)
    {tx : Transaction} (distinct : tx.outpoints.Nodup) (now : Nat) :
    Backed prim (pool.addTransaction prim tx utxoSet now).2 utxoSet.utxos := by
  have consistent := backed.consistent.addTransaction tx utxoSet now
  rcases addTransaction_cases prim pool tx utxoSet now with
    ⟨message, refused⟩ | ⟨totalIn, admitted, accepted⟩
  · rw [refused]
    exact backed
  rw [accepted] at consistent ⊢
  refine ⟨consistent, ?_, ?_, ?_⟩
  · intro txid entry found outpoint member
    rcases lookup_entries_register found with isNew | old
    · exact admitted.unspent_output (isNew ▸ member)
    · exact backed.funded txid entry old outpoint member
  · intro txid entry found
    rcases lookup_entries_register found with isNew | old
    · rwa [isNew]
    · exact backed.distinct txid entry old
  · intro txid entry found
    rcases lookup_entries_register found with isNew | old
    · rw [isNew]
      exact admitted.not_coinbase
    · exact backed.not_coinbase txid entry old

theorem removeMined {utxos utxos' : UtxoMap} (backed : Backed prim pool utxos)
    {mined : List Transaction}
    (kept : ∀ txid entry, pool.entries.lookup txid = some entry →
      txid ∉ mined.map (Transaction.txid prim) →
      ∀ outpoint ∈ entry.tx.outpoints, outpoint ∈ utxos → outpoint ∈ utxos') :
    Backed prim (pool.removeMinedTransactions prim mined) utxos' := by
  have remains : ∀ txid entry,
      (pool.removeMinedTransactions prim mined).entries.lookup txid = some entry →
      txid ∉ mined.map (Transaction.txid prim) ∧
        pool.entries.lookup txid = some entry := by
    intro txid entry found
    rw [lookup_entries_removeMined] at found
    split_ifs at found with gone
    exact ⟨gone, found⟩
  refine ⟨backed.consistent.removeMinedTransactions mined, ?_, ?_, ?_⟩
  · intro txid entry found outpoint member
    obtain ⟨unmined, before⟩ := remains txid entry found
    exact kept txid entry before unmined outpoint member
      (backed.funded txid entry before outpoint member)
  · intro txid entry found
    exact backed.distinct txid entry (remains txid entry found).2
  · intro txid entry found
    exact backed.not_coinbase txid entry (remains txid entry found).2

/-- The pooled transactions together name no outpoint twice. -/
theorem nodup_outpoints {utxos : UtxoMap} (backed : Backed prim pool utxos)
    {txs : List Transaction} (sorted : pool.Sorted txs) :
    (txs.flatMap Transaction.outpoints).Nodup := by
  obtain ⟨entries, entriesEq⟩ := Quot.exists_rep pool.entries.entries
  have distinctKeys : entries.NodupKeys := by
    have keys := pool.entries.nodupKeys
    rw [← entriesEq] at keys
    exact keys
  have stored : ∀ entry ∈ entries, pool.entries.lookup entry.1 = some entry.2 := by
    intro entry member
    apply Finmap.lookup_eq_some_iff.mpr
    rw [← entriesEq]
    exact member
  have order : txs.Perm (entries.map fun entry => entry.2.tx) := by
    apply Multiset.coe_eq_coe.mp
    rw [sorted, ← entriesEq]
    rfl
  rw [(order.flatMap_right _).nodup_iff, List.flatMap_map, List.nodup_flatMap]
  constructor
  · intro entry member
    exact backed.distinct _ _ (stored entry member)
  · apply List.Pairwise.imp_of_mem _ (List.nodupKeys_iff_pairwise.mp distinctKeys)
    intro first second firstMem secondMem apart outpoint spends spends'
    exact apart (backed.consistent.unique (stored first firstMem) (stored second secondMem)
      spends spends')

theorem mem_of_sorted {utxos : UtxoMap} (backed : Backed prim pool utxos)
    {txs : List Transaction} (sorted : pool.Sorted txs) {tx : Transaction}
    (member : tx ∈ txs) :
    tx.isCoinbase = false ∧ ∀ outpoint ∈ tx.outpoints, outpoint ∈ utxos := by
  have pooled : tx ∈ pool.entries.entries.map fun entry => entry.2.tx := by
    rw [← sorted]
    exact member
  obtain ⟨entry, entryMem, rfl⟩ := Multiset.mem_map.mp pooled
  have found := Finmap.lookup_eq_some_iff.mpr entryMem
  exact ⟨backed.not_coinbase _ _ found, backed.funded _ _ found⟩

end Backed

end Mempool

theorem spentOutpoints_of_spending {txs : List Transaction}
    (spending : ∀ tx ∈ txs, tx.isCoinbase = false) :
    spentOutpoints txs = txs.flatMap Transaction.outpoints := by
  induction txs with
  | nil => rfl
  | cons tx txs ih =>
      rw [List.forall_mem_cons] at spending
      rw [spentOutpoints_cons spending.1, ih spending.2, List.flatMap_cons]

/-- A coinbase and all pooled transactions apply, in every order of the pool. -/
theorem Mempool.Backed.applyBlock {prim : Primitives} {pool : Mempool} {set : UTXOSet}
    (backed : pool.Backed prim set.utxos) {coinbase : Transaction}
    (isCoinbase : coinbase.isCoinbase = true) {txs : List Transaction}
    (sorted : pool.Sorted txs) (blockHash : Bytes) (height : Nat) :
    ∃ undo next, set.applyBlock prim blockHash height (coinbase :: txs) =
      (.ok undo, next) := by
  have spent : QuantyCoin.spentOutpoints (coinbase :: txs) =
      txs.flatMap Transaction.outpoints := by
    rw [← List.singleton_append, spentOutpoints_append,
      spentOutpoints_coinbases (by simpa using isCoinbase), List.nil_append]
    exact spentOutpoints_of_spending fun tx member => (backed.mem_of_sorted sorted member).1
  apply applyBlock_of_distinct
  · rw [spent]
    exact backed.nodup_outpoints sorted
  · rw [spent]
    intro outpoint member
    obtain ⟨tx, txMem, spends⟩ := List.mem_flatMap.mp member
    exact (backed.mem_of_sorted sorted txMem).2 outpoint spends

/-! ## Blocks that spare the pool -/

/-- A change of branches takes no input away from a pooled transaction that is
not itself connected: no connected transaction spends it, and if a
disconnected one created it, so does a connected one. -/
def SparesPool (prim : Primitives) (pool : Mempool)
    (disconnected connected : List Transaction) : Prop :=
  ∀ txid entry, pool.entries.lookup txid = some entry →
    txid ∉ connected.map (Transaction.txid prim) →
    ∀ outpoint ∈ entry.tx.outpoints, outpoint ∉ spentOutpoints connected ∧
      (outpoint ∈ createdOutpoints prim disconnected →
        outpoint ∈ createdOutpoints prim connected)

/-- Every node of a branch is recoverable on the replay of those before it. -/
def RecoverableBranch (prim : Primitives) (shared branch : List BlockIndexNode) : Prop :=
  ∀ before node after, branch = before ++ node :: after →
    Behind prim (RecoverableNode prim) (shared ++ before) node

/-- The blocks a call takes back are recoverable, and the change of branches
spares the pool. -/
structure Spares (prim : Primitives) (cs : Chainstate) (block : Block) : Prop where
  old_recoverable : ∀ shared old new, Replaces prim cs block shared old new →
    RecoverableBranch prim shared old
  new_recoverable : ∀ shared old new error, Replaces prim cs block shared old new →
    (replay prim (shared ++ new)).1 = .error error → RecoverableBranch prim shared new
  pool_spared : ∀ shared old new, Replaces prim cs block shared old new →
    SparesPool prim cs.mempool (branchTransactions old) (branchTransactions new)

theorem RecoverableBranch.undoableAlong {prim : Primitives} {base : UTXOSet}
    {shared branch : List BlockIndexNode} (recoverable : RecoverableBranch prim shared branch)
    (replayed : replay prim shared = (.ok (), base))
    (distinct : ((shared ++ branch).map BlockIndexNode.hash).Nodup) :
    UndoableAlong (connectNode prim) disconnectNode base branch := by
  induction branch generalizing shared base with
  | nil => trivial
  | cons node branch ih =>
      constructor
      · apply connectNode_undoable
        · rw [mem_undoHistory_replay replayed]
          rw [List.map_append, List.nodup_append] at distinct
          intro repeated
          exact distinct.2.2 _ repeated node.hash (by simp) rfl
        · intro block used read
          have behind := recoverable [] node branch rfl
          rw [List.append_nil] at behind
          exact behind base block used replayed read
      · intro next connected
        apply @ih next (shared ++ [node])
        · intro before member after split
          have behind := recoverable (node :: before) member after (by rw [split]; rfl)
          rwa [List.append_assoc]
        · exact runAll_append_ok.mpr ⟨base, replayed, by rw [runAll_singleton, connected]⟩
        · rwa [List.append_assoc]

theorem Spares.canTakeBack {prim : Primitives} {offered : Block → Prop} {cs : Chainstate}
    {block : Block} (spares : Spares prim cs block) (tree : BlockTree prim offered cs)
    (hashNonzero : prim.HashNonzero) : CanTakeBack prim cs block := by
  intro shared old new base replaces replayedShared
  obtain ⟨parent, work, line, fresh, admissible, above, -, targetEq⟩ := replaces.target
  have goal := tree.index.ancestry_child hashNonzero admissible rfl fresh above
  rw [targetEq] at goal
  refine ⟨(spares.old_recoverable shared old new replaces).undoableAlong replayedShared
    replaces.current.keys_nodup, ?_⟩
  rintro ⟨error, failed⟩
  rw [← runAll_append replayedShared new] at failed
  exact (spares.new_recoverable shared old new error replaces failed).undoableAlong
    replayedShared goal.keys_nodup

/-- A change of branches that spares the pool keeps it backed. -/
theorem Mempool.Backed.switch {prim : Primitives} {pool : Mempool} {base set next : UTXOSet}
    {old new : List BlockIndexNode} (backed : pool.Backed prim set.utxos)
    (oldRun : runAll (connectNode prim) base old = (.ok (), set))
    (newRun : runAll (connectNode prim) base new = (.ok (), next))
    (spared : SparesPool prim pool (branchTransactions old) (branchTransactions new)) :
    (runAll (cleanMined prim) pool new).2.Backed prim next.utxos := by
  rw [runAll_cleanMined_eq newRun]
  apply backed.removeMined
  intro txid entry found unmined outpoint member unspent
  obtain ⟨untouched, recreated⟩ := spared txid entry found unmined outpoint member
  rw [runAll_connectNode_utxos oldRun] at unspent
  rw [runAll_connectNode_utxos newRun]
  apply mem_settle_of_not_taken
  · rwa [takeKeys_branchEvents]
  · rcases mem_of_mem_settle unspent with shared | created
    · exact Or.inl shared
    · rw [putKeys_branchEvents] at created ⊢
      exact Or.inr (recreated created)

/-! ## Runs -/

/-- The chainstates reached from genesis by processing blocks that spare the
pool and by adding transactions that name no outpoint twice. -/
inductive SparingRun (prim : Primitives) : Chainstate → Prop
  | genesis {cs : Chainstate} (built : Chainstate.initGenesis prim = .ok cs) :
      SparingRun prim cs
  | block {cs next : Chainstate} {block : Block}
      {outcome : Except PyException (Bool × String)} (reached : SparingRun prim cs)
      (spares : Spares prim cs block)
      (processed : cs.processBlock prim block = some (outcome, next)) : SparingRun prim next
  | transaction {cs : Chainstate} {tx : Transaction} (reached : SparingRun prim cs)
      (distinct : tx.outpoints.Nodup) (now : Nat) :
      SparingRun prim (cs.addTransaction prim tx now).2

/-- The unspent outputs are the replay of the active chain and back the pool. -/
structure MinableChain (prim : Primitives) (cs : Chainstate) : Prop where
  tree : BlockTree prim (fun _ => True) cs
  replayed : ∀ line, Ancestry prim cs.blockIndex line cs.bestTip →
    replay prim line = (.ok (), cs.utxoSet)
  backed : cs.mempool.Backed prim cs.utxoSet.utxos

theorem MinableChain.step {prim : Primitives} {cs next : Chainstate} {block : Block}
    {outcome : Except PyException (Bool × String)} (chain : MinableChain prim cs)
    (hashNonzero : prim.HashNonzero) (spares : Spares prim cs block)
    (returned : cs.processBlock prim block = some (outcome, next)) :
    MinableChain prim next := by
  obtain ⟨outcome', next', returned', processed, change⟩ := processed_of_canTakeBack
    chain.tree hashNonzero chain.replayed (spares.canTakeBack chain.tree hashNonzero)
  rw [returned] at returned'
  cases returned'
  refine ⟨processed.blockTree chain.tree hashNonzero trivial,
    processed.replayed chain.tree hashNonzero chain.replayed, ?_⟩
  rcases change with ⟨sameSet, samePool⟩ |
    ⟨shared, old, new, base, replaces, oldRun, newRun, cleaned⟩
  · rw [sameSet, samePool]
    exact chain.backed
  · rw [cleaned]
    exact chain.backed.switch oldRun newRun (spares.pool_spared shared old new replaces)

theorem SparingRun.minableChain {prim : Primitives} (hashNonzero : prim.HashNonzero)
    {cs : Chainstate} (reached : SparingRun prim cs) : MinableChain prim cs := by
  induction reached with
  | genesis built =>
      have chain : ReplayedChain prim (fun _ => True) _ :=
        ReplayedChain.genesis hashNonzero built
      obtain ⟨-, rfl⟩ := initGenesis_eq_ok.mp built
      exact ⟨chain.tree, chain.replayed, Mempool.backed_empty prim _⟩
  | block _ spares processed ih => exact ih.step hashNonzero spares processed
  | transaction _ distinct now ih =>
      exact ⟨⟨ih.tree.index, ih.tree.active, ih.tree.heaviest⟩, ih.replayed,
        ih.backed.addTransaction distinct now⟩

/-- In a run of blocks that spare the pool, every input of every pooled
transaction is unspent, and a coinbase followed by the pool applies. -/
theorem sparingRun_minable (prim : Primitives) (hashNonzero : prim.HashNonzero)
    (cs : Chainstate) (reached : SparingRun prim cs) :
    (∀ txid entry outpoint, cs.mempool.entries.lookup txid = some entry →
      outpoint ∈ entry.tx.outpoints → outpoint ∈ cs.utxoSet.utxos) ∧
    ∀ coinbase txs blockHash height, coinbase.isCoinbase = true → cs.mempool.Sorted txs →
      ∃ undo next, cs.utxoSet.applyBlock prim blockHash height (coinbase :: txs) =
        (.ok undo, next) := by
  have backed := (reached.minableChain hashNonzero).backed
  constructor
  · intro txid entry outpoint found member
    exact backed.funded txid entry found outpoint member
  · intro coinbase txs blockHash height isCoinbase sorted
    exact backed.applyBlock isCoinbase sorted blockHash height

/-! ## A rival in the next block -/

/-- At genesis there is nothing to replace. -/
theorem Replaces.atGenesis {prim : Primitives} (hashNonzero : prim.HashNonzero)
    {block : Block} {shared old new : List BlockIndexNode}
    (replaces : Replaces prim (genesisState prim) block shared old new) :
    shared = [rootNode prim] ∧ old = [] ∧
      ∃ parent work, Admissible prim (genesisState prim).blockIndex block parent work ∧
        Ancestry prim (genesisState prim).blockIndex [rootNode prim] parent ∧
        new = [childNode prim block parent work] := by
  have current := ancestry_genesisState hashNonzero replaces.current
  obtain ⟨parent, work, line, -, admissible, above, -, targetEq⟩ := replaces.target
  obtain rfl := ancestry_genesisState hashNonzero above
  cases shared with
  | nil =>
      exfalso
      rw [List.nil_append] at targetEq current
      apply replaces.apart (rootNode prim) (by rw [← targetEq]; simp)
      simp [current]
  | cons first rest =>
      obtain ⟨rfl, others⟩ := List.cons.inj current
      obtain ⟨rfl, rfl⟩ := List.append_eq_nil_iff.mp others
      exact ⟨rfl, rfl, parent, work, admissible, above, (List.cons.inj targetEq).2.symm⟩

theorem CleanOffer.sparesAtGenesis {prim : Primitives} (hashNonzero : prim.HashNonzero)
    {block : Block} (clean : CleanOffer prim (genesisState prim) block) :
    Spares prim (genesisState prim) block := by
  constructor
  · intro shared old new replaces before node after split
    obtain ⟨-, rfl, -⟩ := replaces.atGenesis hashNonzero
    simp at split
  · intro shared old new error replaces _ before node after split
    obtain ⟨rfl, -, parent, work, admissible, above, rfl⟩ := replaces.atGenesis hashNonzero
    obtain ⟨rfl, rfl⟩ : before = [] ∧ node = childNode prim block parent work := by
      cases before with
      | nil => exact ⟨rfl, (List.cons.inj split).1.symm⟩
      | cons first rest => simp at split
    exact clean.recovers parent work [rootNode prim] admissible above
  · intro shared old new _ txid entry found
    simp [genesisState, Mempool.empty] at found

/-- Pays the key of the signed samples. -/
def fundingBlock : Block := sampleBlock fundingDigest 1 [fundingCoinbase]

def nextCoinbase : Transaction :=
  ⟨1, [⟨zeroHash, 0xFFFFFFFF, [0x01, 0x02], 0xFFFFFFFF, []⟩], [sampleOut], 0⟩

/-- Mines the rival of the signed spend behind the funding block. -/
def rivalBlock : Block where
  header :=
    { version := 1
      prevBlock := leBytes 32
        0x39af866a036e38d00963de0ace4a17f48f11560490dd391ce7a452e8132afc0d
      merkleRoot := leBytes 32
        0x3008e9fd29235c287ca2ec44e54e8b7b82a47701c0d0d9bbd1c0b197b0005750
      timestamp := genesisTimestamp + 240
      bits := 0x207fffff
      nonce := 3 }
  transactions := [nextCoinbase, rivalSpend.tx]

def rivalDigests : List (Bytes × Nat) :=
  [(fundingCoinbase.serialize false, fundingDigest),
    (nextCoinbase.serialize false,
      0xd699412043852d676010abdd2cc28d5ee94116e949154974f406816aa35a50a3),
    (leBytes 32 0xd699412043852d676010abdd2cc28d5ee94116e949154974f406816aa35a50a3 ++
      leBytes 32 rivalSpend.txid,
      0x3008e9fd29235c287ca2ec44e54e8b7b82a47701c0d0d9bbd1c0b197b0005750),
    (fundingBlock.header.serialize,
      0x39af866a036e38d00963de0ace4a17f48f11560490dd391ce7a452e8132afc0d),
    (rivalBlock.header.serialize,
      0x2dfce28a935384e413e2e980bd10dfd209547b635313099d7d43912d2ce0de6c)]

def rivalPrimitives : Primitives := .ofSignedSamples (rivalDigests ++ chainDigests)

theorem rivalPrimitives_hashNonzero : rivalPrimitives.HashNonzero := by
  intro header
  exact @Primitives.ofDigests_hash256_ne_zeroHash
    (signedSamples.flatMap SignedSample.digests ++ (rivalDigests ++ chainDigests))
    (by decide) _

def fundedState : Chainstate :=
  (genesisState rivalPrimitives).afterBlock rivalPrimitives fundingBlock

def signedEntry : MempoolEntry := ⟨signedSpend.tx, 0, 0⟩

/-- The signed spend waits in the pool. -/
def pooledState : Chainstate := (fundedState.addTransaction rivalPrimitives signedSpend.tx 0).2

def rivalState : Chainstate := pooledState.afterBlock rivalPrimitives rivalBlock

/-- One evaluation of the two blocks answers for all parts of the run. -/
theorem rivalRun_checked :
    ((rootNode rivalPrimitives).hash = genesisHash.reverse ∧
      Answers rivalPrimitives (genesisState rivalPrimitives) fundingBlock true ∧
      Answers rivalPrimitives pooledState rivalBlock true) ∧
    (pooledState.mempool.entries.lookup (leBytes 32 signedSpend.txid) = some signedEntry ∧
      pooledState.mempool.Sorted [signedSpend.tx]) ∧
    rivalState.mempool.entries.lookup (leBytes 32 signedSpend.txid) = some signedEntry ∧
      fundingOutpoint ∈ signedEntry.tx.outpoints ∧
      fundingOutpoint ∉ rivalState.utxoSet.utxos ∧
      rivalState.mempool.Sorted [signedSpend.tx] ∧
      (rivalState.utxoSet.applyBlock rivalPrimitives (leBytes 32 8) 3
        [sampleCoinbase, signedSpend.tx]).1.isOk = false := by
  unfold Mempool.Sorted
  decide +kernel

theorem rivalPrimitives_initGenesis :
    Chainstate.initGenesis rivalPrimitives = .ok (genesisState rivalPrimitives) :=
  initGenesis_eq_ok.mpr ⟨rivalRun_checked.1.1, rfl⟩

theorem fundingBlock_cleanOffer :
    CleanOffer rivalPrimitives (genesisState rivalPrimitives) fundingBlock :=
  .atGenesis rivalPrimitives_hashNonzero (by decide +kernel)

/-- The rival has spent the input of the signed transaction, which stays in the
pool: a block made of the pool does not apply any more. -/
theorem rivalBlock_strands_signedSpend :
    Reaches rivalPrimitives (fun _ _ => True) rivalState ∧
      rivalState.mempool.entries.lookup (leBytes 32 signedSpend.txid) = some signedEntry ∧
      fundingOutpoint ∈ signedEntry.tx.outpoints ∧
      fundingOutpoint ∉ rivalState.utxoSet.utxos ∧
      rivalState.mempool.Sorted [signedSpend.tx] ∧
      (rivalState.utxoSet.applyBlock rivalPrimitives (leBytes 32 8) 3
        [sampleCoinbase, signedSpend.tx]).1.isOk = false := by
  obtain ⟨⟨-, answersFunding, answersRival⟩, -, stranded⟩ := rivalRun_checked
  obtain ⟨message, funded⟩ := answersFunding.processBlock_eq
  obtain ⟨message', mined⟩ := answersRival.processBlock_eq
  exact ⟨.block (.transaction (.block (.genesis rivalPrimitives_initGenesis) trivial funded)
    signedSpend.tx 0) trivial mined, stranded⟩

theorem pooledState_sparing : SparingRun rivalPrimitives pooledState := by
  obtain ⟨message, funded⟩ := rivalRun_checked.1.2.1.processBlock_eq
  have spares := fundingBlock_cleanOffer.sparesAtGenesis rivalPrimitives_hashNonzero
  have distinct : signedSpend.tx.outpoints.Nodup := by decide
  exact .transaction (.block (.genesis rivalPrimitives_initGenesis) spares funded) distinct 0

/-- Before the rival the signed spend can be mined. -/
theorem signedSpend_minable :
    fundingOutpoint ∈ pooledState.utxoSet.utxos ∧
      ∃ undo next, pooledState.utxoSet.applyBlock rivalPrimitives (leBytes 32 8) 2
        [nextCoinbase, signedSpend.tx] = (.ok undo, next) := by
  have minable := sparingRun_minable rivalPrimitives rivalPrimitives_hashNonzero pooledState
    pooledState_sparing
  have spends : fundingOutpoint ∈ signedEntry.tx.outpoints := by decide
  have pooled := rivalRun_checked.2.1
  -- The elaborator would otherwise run the chainstate to look into the membership.
  generalize pooledState = cs at minable pooled ⊢
  constructor
  · exact minable.1 _ _ _ pooled.1 spends
  · exact minable.2 nextCoinbase [signedSpend.tx] (leBytes 32 8) 2 (by decide) pooled.2

end QuantyCoin
