import QuantyCoin.BlockCodec
import QuantyCoin.BlockTree

/-!
# The unspent outputs as a replay of the active chain

Replaying a path means connecting its nodes in order, starting from the empty
set.  If every offered block is recoverable on the replay of its ancestors,
each step of a reorganization can be undone, so a run of `process_block` keeps
the unspent outputs equal to the replay of the active chain, and a call that
does not accept its block changes nothing.
-/

namespace QuantyCoin

open AncestorWalk BranchSwitch ByteDecoder

/-- Connect nodes in order, starting from the empty set. -/
def replay (prim : Primitives) (nodes : List BlockIndexNode) :
    Except PyException Unit × UTXOSet :=
  runAll (connectNode prim) UTXOSet.empty nodes

/-! ## Connecting and disconnecting one node -/

theorem connectNode_eq_ok {prim : Primitives} {set next : UTXOSet} {node : BlockIndexNode} :
    connectNode prim set node = (.ok (), next) ↔
      ∃ block used undo, Block.deserialize node.rawBlock = .ok (block, used) ∧
        set.applyBlock prim node.hash node.height block.transactions = (.ok undo, next) := by
  rw [connectNode]
  cases read : Block.deserialize node.rawBlock with
  | error error => simp
  | ok pair =>
      obtain ⟨block, used⟩ := pair
      rcases applied : set.applyBlock prim node.hash node.height block.transactions with
        ⟨result, left⟩
      cases result with
      | error error => simp [applied]
      | ok undo => simp [applied]

/-- Connecting a node adds its undo record and touches no other. -/
theorem lookup_undoHistory_connectNode {prim : Primitives} {set next : UTXOSet}
    {node : BlockIndexNode} (connected : connectNode prim set node = (.ok (), next))
    {hash : Bytes} (other : hash ≠ node.hash) :
    next.undoHistory.lookup hash = set.undoHistory.lookup hash := by
  obtain ⟨block, used, undo, -, applied⟩ := connectNode_eq_ok.mp connected
  obtain ⟨journal, -, -, rfl⟩ := applyBlock_eq_ok.mp applied
  rw [Finmap.lookup_insert_of_ne _ other]

theorem mem_undoHistory_connectNode {prim : Primitives} {set next : UTXOSet}
    {node : BlockIndexNode} (connected : connectNode prim set node = (.ok (), next))
    (hash : Bytes) :
    hash ∈ next.undoHistory ↔ hash = node.hash ∨ hash ∈ set.undoHistory := by
  obtain ⟨block, used, undo, -, applied⟩ := connectNode_eq_ok.mp connected
  obtain ⟨journal, -, -, rfl⟩ := applyBlock_eq_ok.mp applied
  exact Finmap.mem_insert

theorem lookup_undoHistory_runAll {prim : Primitives} {set last : UTXOSet}
    {nodes : List BlockIndexNode}
    (connected : runAll (connectNode prim) set nodes = (.ok (), last)) {hash : Bytes}
    (others : hash ∉ nodes.map BlockIndexNode.hash) :
    last.undoHistory.lookup hash = set.undoHistory.lookup hash := by
  induction nodes generalizing set with
  | nil =>
      cases connected
      rfl
  | cons node nodes ih =>
      obtain ⟨next, first, rest⟩ := runAll_cons_ok.mp connected
      simp only [List.map_cons, List.mem_cons, not_or] at others
      rw [ih rest others.2, lookup_undoHistory_connectNode first others.1]

theorem mem_undoHistory_runAll {prim : Primitives} {set last : UTXOSet}
    {nodes : List BlockIndexNode}
    (connected : runAll (connectNode prim) set nodes = (.ok (), last)) (hash : Bytes) :
    hash ∈ last.undoHistory ↔
      hash ∈ nodes.map BlockIndexNode.hash ∨ hash ∈ set.undoHistory := by
  induction nodes generalizing set with
  | nil =>
      cases connected
      simp
  | cons node nodes ih =>
      obtain ⟨next, first, rest⟩ := runAll_cons_ok.mp connected
      rw [ih rest, mem_undoHistory_connectNode first, List.map_cons, List.mem_cons]
      tauto

theorem mem_undoHistory_replay {prim : Primitives} {set : UTXOSet}
    {nodes : List BlockIndexNode} (replayed : replay prim nodes = (.ok (), set))
    (hash : Bytes) : hash ∈ set.undoHistory ↔ hash ∈ nodes.map BlockIndexNode.hash := by
  rw [mem_undoHistory_runAll replayed]
  simp [UTXOSet.empty, Finmap.notMem_empty]

/-- Connecting a recoverable node can be undone. -/
theorem connectNode_undoable {prim : Primitives} {set : UTXOSet} {node : BlockIndexNode}
    (fresh : node.hash ∉ set.undoHistory)
    (recoverable : ∀ block used, Block.deserialize node.rawBlock = .ok (block, used) →
      Recoverable prim node.height block.transactions set.utxos) :
    Undoable (connectNode prim) disconnectNode set node := by
  constructor
  · intro next connected
    obtain ⟨block, used, undo, read, applied⟩ := connectNode_eq_ok.mp connected
    exact (recoverable block used read).revertBlock_eq fresh applied
  · intro error next failed
    rw [connectNode] at failed
    cases read : Block.deserialize node.rawBlock with
    | error readError =>
        simp only [read, Prod.mk.injEq] at failed
        exact failed.2.symm
    | ok pair =>
        obtain ⟨block, used⟩ := pair
        rcases applied : set.applyBlock prim node.hash node.height block.transactions with
          ⟨result, left⟩
        cases result with
        | ok undo => simp [read, applied] at failed
        | error applyError =>
            simp only [read, applied, Prod.mk.injEq] at failed
            rw [← failed.2]
            exact (recoverable block used read).failed_eq applied

/-! ## The invariant -/

/-- The block of a node, as it is read back, has a property that depends on the
replay of the path to its parent, if there is such a replay. -/
def Behind (prim : Primitives) (good : BlockIndexNode → Block → UTXOSet → Prop)
    (line : List BlockIndexNode) (node : BlockIndexNode) : Prop :=
  ∀ base block used, replay prim line = (.ok (), base) →
    Block.deserialize node.rawBlock = .ok (block, used) → good node block base

/-- An offered block would have the property behind the ancestors that the
chainstate has for it. -/
def Offers (prim : Primitives) (good : BlockIndexNode → Block → UTXOSet → Prop)
    (cs : Chainstate) (block : Block) : Prop :=
  ∀ parent work line, Admissible prim cs.blockIndex block parent work →
    Ancestry prim cs.blockIndex line parent →
    Behind prim good line (childNode prim block parent work)

def RecoverableNode (prim : Primitives) (node : BlockIndexNode) (block : Block)
    (base : UTXOSet) : Prop :=
  Recoverable prim node.height block.transactions base.utxos

def Recovers (prim : Primitives) : Chainstate → Block → Prop :=
  Offers prim (RecoverableNode prim)

/-- The unspent outputs are the replay of the active chain, and every step of
every replay in the tree can be undone. -/
structure ReplayedChain (prim : Primitives) (offered : Block → Prop) (cs : Chainstate) :
    Prop where
  tree : BlockTree prim offered cs
  undoable : ∀ line node, Ancestry prim cs.blockIndex line node →
    UndoableAlong (connectNode prim) disconnectNode UTXOSet.empty line
  replayed : ∀ line, Ancestry prim cs.blockIndex line cs.bestTip →
    replay prim line = (.ok (), cs.utxoSet)

/-- A path extended by a recoverable node can be undone step by step. -/
theorem undoableAlong_child {prim : Primitives} {line : List BlockIndexNode}
    {node : BlockIndexNode}
    (undoable : UndoableAlong (connectNode prim) disconnectNode UTXOSet.empty line)
    (fresh : node.hash ∉ line.map BlockIndexNode.hash)
    (recoverable : Behind prim (RecoverableNode prim) line node) :
    UndoableAlong (connectNode prim) disconnectNode UTXOSet.empty (line ++ [node]) := by
  apply undoable.append
  intro base replayed
  apply UndoableAlong.singleton
  apply connectNode_undoable
  · rw [mem_undoHistory_replay replayed]
    exact fresh
  · intro block used read
    exact recoverable base block used replayed read

/-! ## Genesis -/

theorem genesisBlock_wellFormed (prim : Primitives) : (genesisBlock prim).WellFormed := by
  refine ⟨⟨by rfl, ?_⟩, by simp [genesisBlock], ?_⟩
  · exact prim.hash256_length _
  · intro tx member
    rw [List.mem_singleton.mp member]
    refine ⟨by decide, by decide, ?_, ?_⟩
    · intro inp member
      rw [List.mem_singleton.mp member]
      exact ⟨by decide, by decide, by decide, by decide⟩
    · intro out member
      rw [List.mem_singleton.mp member]
      unfold TxOut.WellFormed
      decide

theorem deserialize_genesis (prim : Primitives) :
    ∃ used, Block.deserialize (rootNode prim).rawBlock = .ok (genesisBlock prim, used) := by
  refine ⟨_, deserialize_serialize (genesisBlock_wellFormed prim) ?_⟩
  intro tx member
  rw [List.mem_singleton.mp member]
  decide

theorem replay_genesis (prim : Primitives) :
    replay prim [rootNode prim] = (.ok (), (genesisState prim).utxoSet) := by
  obtain ⟨used, read⟩ := deserialize_genesis prim
  obtain ⟨undo, applied⟩ := applyBlock_genesis prim
  rw [replay, runAll_singleton]
  exact connectNode_eq_ok.mpr ⟨_, used, undo, read, applied⟩

/-- At genesis there is only the path to the root. -/
theorem ancestry_genesisState {prim : Primitives} (hashNonzero : prim.HashNonzero)
    {line : List BlockIndexNode} {node : BlockIndexNode}
    (lineage : Ancestry prim (genesisState prim).blockIndex line node) :
    line = [rootNode prim] := by
  rcases lookup_storeNode_cases lineage.node_stored with ⟨-, rfl⟩ | stored
  · exact lineage.unique (ancestry_rootNode hashNonzero)
  · simp at stored

theorem genesis_recoverable (prim : Primitives) :
    Behind prim (RecoverableNode prim) [] (rootNode prim) := by
  intro base block used replayed read
  obtain ⟨used', readGenesis⟩ := deserialize_genesis prim
  rw [readGenesis] at read
  cases read
  cases replayed
  apply Clean.recoverable
  refine ⟨fun outpoint _ => ?_, fun outpoint _ => Finmap.notMem_empty⟩
  have coinbase : genesisCoinbase.isCoinbase = true := by decide
  simp [spentOutpoints, genesisBlock, coinbase]

namespace ReplayedChain

variable {prim : Primitives} {offered : Block → Prop} {cs next : Chainstate} {block : Block}

theorem genesis (hashNonzero : prim.HashNonzero)
    (built : Chainstate.initGenesis prim = .ok cs) : ReplayedChain prim offered cs := by
  have tree : BlockTree prim offered cs := BlockTree.genesis hashNonzero built
  obtain ⟨-, rfl⟩ := initGenesis_eq_ok.mp built
  refine ⟨tree, ?_, ?_⟩
  · intro line node lineage
    rw [ancestry_genesisState hashNonzero lineage, ← List.nil_append [rootNode prim]]
    exact undoableAlong_child trivial (by simp) (genesis_recoverable prim)
  · intro line lineage
    rw [ancestry_genesisState hashNonzero lineage]
    exact replay_genesis prim

end ReplayedChain

/-! ## One call of `process_block` -/

/-- What a call can do as long as every replay can be undone. -/
inductive Processed (prim : Primitives) (cs : Chainstate) (block : Block) :
    Except PyException (Bool × String) → Chainstate → Prop
  | refused {result : Except PyException (Bool × String)}
      (reason : (∃ message, result = .ok (false, message)) ∨
        ∃ error, result = .error error ∧
          getBlockWork block.header.bits.toNat block.header.powType = .error error)
      (barred : block.hash prim ∈ cs.blockIndex ∨
        ∀ parent work, ¬ Admissible prim cs.blockIndex block parent work) :
      Processed prim cs block result cs
  | side {parent node : BlockIndexNode} {work : Nat} (fresh : node.hash ∉ cs.blockIndex)
      (admissible : Admissible prim cs.blockIndex block parent work)
      (made : node = childNode prim block parent work)
      (lighter : node.chainwork ≤ cs.bestTip.chainwork) :
      Processed prim cs block (.ok (true, "Accepted (Side Chain / Fork)"))
        { cs with blockIndex := storeNode cs.blockIndex node }
  | adopted {parent node : BlockIndexNode} {work : Nat} {line : List BlockIndexNode}
      {utxoSet : UTXOSet} {pool : Mempool} (fresh : node.hash ∉ cs.blockIndex)
      (admissible : Admissible prim cs.blockIndex block parent work)
      (made : node = childNode prim block parent work)
      (heavier : cs.bestTip.chainwork < node.chainwork)
      (above : Ancestry prim cs.blockIndex line parent)
      (replayed : replay prim (line ++ [node]) = (.ok (), utxoSet)) :
      Processed prim cs block (.ok (true, "Accepted (New Best Tip)"))
        ⟨utxoSet, pool, storeNode cs.blockIndex node,
          (line ++ [node]).map BlockIndexNode.hash, node⟩
  | pruned {parent node : BlockIndexNode} {work : Nat} {line : List BlockIndexNode}
      {message : String} (fresh : node.hash ∉ cs.blockIndex)
      (admissible : Admissible prim cs.blockIndex block parent work)
      (made : node = childNode prim block parent work)
      (heavier : cs.bestTip.chainwork < node.chainwork)
      (above : Ancestry prim cs.blockIndex line parent)
      (failed : ∃ error, (replay prim (line ++ [node])).1 = .error error) :
      Processed prim cs block (.ok (false, message)) cs

/-- The call for a block would take the nodes `old` off the active chain and
connect the nodes `new` behind those that stay. -/
structure Replaces (prim : Primitives) (cs : Chainstate) (block : Block)
    (shared old new : List BlockIndexNode) : Prop where
  current : Ancestry prim cs.blockIndex (shared ++ old) cs.bestTip
  target : ∃ parent work line, block.hash prim ∉ cs.blockIndex ∧
    Admissible prim cs.blockIndex block parent work ∧
    Ancestry prim cs.blockIndex line parent ∧
    cs.bestTip.chainwork < (childNode prim block parent work).chainwork ∧
    line ++ [childNode prim block parent work] = shared ++ new
  apart : ∀ node ∈ new, node.hash ∉ (shared ++ old).map BlockIndexNode.hash

/-- What a call has to take back can be taken back: the replaced nodes and, if
the new ones do not all apply, those that do. -/
def CanTakeBack (prim : Primitives) (cs : Chainstate) (block : Block) : Prop :=
  ∀ shared old new base, Replaces prim cs block shared old new →
    replay prim shared = (.ok (), base) →
    UndoableAlong (connectNode prim) disconnectNode base old ∧
      ((∃ error, (runAll (connectNode prim) base new).1 = .error error) →
        UndoableAlong (connectNode prim) disconnectNode base new)

/-- The unspent outputs and the memory pool stay, or both go from one branch to
the other. -/
def StaysOrSwitches (prim : Primitives) (cs : Chainstate) (block : Block)
    (next : Chainstate) : Prop :=
  (next.utxoSet = cs.utxoSet ∧ next.mempool = cs.mempool) ∨
    ∃ shared old new base, Replaces prim cs block shared old new ∧
      runAll (connectNode prim) base old = (.ok (), cs.utxoSet) ∧
      runAll (connectNode prim) base new = (.ok (), next.utxoSet) ∧
      next.mempool = (runAll (cleanMined prim) cs.mempool new).2

section Processing

variable {prim : Primitives} {offered : Block → Prop} {cs next : Chainstate} {block : Block}

/-- One call refuses the block, stores it, adopts it or prunes it. -/
theorem processed_of_canTakeBack (tree : BlockTree prim offered cs)
    (hashNonzero : prim.HashNonzero)
    (replayed : ∀ line, Ancestry prim cs.blockIndex line cs.bestTip →
      replay prim line = (.ok (), cs.utxoSet)) (takesBack : CanTakeBack prim cs block) :
    ∃ outcome next, cs.processBlock prim block = some (outcome, next) ∧
      Processed prim cs block outcome next ∧ StaysOrSwitches prim cs block next := by
  rcases Chainstate.processBlock_cases prim cs block with
    ⟨result, unchanged, reason, barred⟩ | ⟨fresh, parent, work, admissible, processed⟩
  · exact ⟨result, cs, unchanged, .refused reason barred, Or.inl ⟨rfl, rfl⟩⟩
  rw [processed]
  generalize made : childNode prim block parent work = node
  have freshNode : node.hash ∉ cs.blockIndex := made ▸ fresh
  rcases Nat.lt_or_ge cs.bestTip.chainwork node.chainwork with heavier | lighter
  · obtain ⟨current, tip, -⟩ := tree.active
    obtain ⟨line, above⟩ := tree.index.ancestry hashNonzero admissible.parent_stored
    obtain ⟨shared, old, new, rfl, targetEq, apart, chosen⟩ :=
      Chainstate.chooseFork_heavier tree.index tree.active hashNonzero admissible made.symm
        freshNode heavier tip above
    have replaces : Replaces prim cs block shared old new := by
      refine ⟨tip, ⟨parent, work, line, fresh, admissible, above, ?_, ?_⟩, apart⟩
      · rwa [made]
      · rwa [made]
    -- Both branches leave the replay of the shared part.
    obtain ⟨base, replayedShared, oldRun⟩ := runAll_append_ok.mp (replayed _ tip)
    have replayedTarget : replay prim (line ++ [node]) =
        runAll (connectNode prim) base new := by
      rw [targetEq]
      exact runAll_append replayedShared new
    obtain ⟨oldUndoable, newUndoable⟩ := takesBack shared old new base replaces replayedShared
    rw [chosen]
    rcases newRun : runAll (connectNode prim) base new with ⟨result, last⟩
    rw [newRun] at newUndoable
    cases result with
    | ok =>
        rw [switchBranch_completes oldUndoable oldRun newRun]
        exact ⟨_, _, rfl, .adopted freshNode admissible made.symm heavier above
          (replayedTarget.trans newRun),
          Or.inr ⟨shared, old, new, base, replaces, oldRun, newRun, rfl⟩⟩
    | error error =>
        rcases switchBranch_spec oldUndoable oldRun (newUndoable ⟨error, rfl⟩) with
          ⟨last', newRun', -⟩ | ⟨error', newRun', switched⟩
        · rw [newRun] at newRun'
          cases newRun'
        · rw [switched]
          exact ⟨_, _, rfl, .pruned freshNode admissible made.symm heavier above
            ⟨error', by rw [replayedTarget, newRun']⟩, Or.inl ⟨rfl, rfl⟩⟩
  · rw [Chainstate.chooseFork_side lighter]
    exact ⟨_, _, rfl, .side freshNode admissible made.symm lighter, Or.inl ⟨rfl, rfl⟩⟩

/-- A call keeps the block tree. -/
theorem Processed.blockTree {outcome : Except PyException (Bool × String)}
    (processed : Processed prim cs block outcome next) (tree : BlockTree prim offered cs)
    (hashNonzero : prim.HashNonzero) (isOffered : offered block) :
    BlockTree prim offered next := by
  cases processed with
  | refused => exact tree
  | pruned => exact tree
  | side fresh admissible made lighter =>
      exact tree.sideBranch hashNonzero isOffered admissible made fresh lighter
  | adopted fresh admissible made heavier above =>
      exact tree.newTip hashNonzero isOffered admissible made fresh heavier above _ _

/-- A call keeps the unspent outputs equal to the replay of the active chain. -/
theorem Processed.replayed {outcome : Except PyException (Bool × String)}
    (processed : Processed prim cs block outcome next) (tree : BlockTree prim offered cs)
    (hashNonzero : prim.HashNonzero)
    (replayed : ∀ line, Ancestry prim cs.blockIndex line cs.bestTip →
      replay prim line = (.ok (), cs.utxoSet))
    (line : List BlockIndexNode)
    (lineage : Ancestry prim next.blockIndex line next.bestTip) :
    replay prim line = (.ok (), next.utxoSet) := by
  cases processed with
  | refused => exact replayed line lineage
  | pruned => exact replayed line lineage
  | side fresh admissible made =>
      obtain ⟨current, tip, -⟩ := tree.active
      have kept := tree.index.ancestry_storeNode hashNonzero made fresh tip
      rw [lineage.unique kept]
      exact replayed current tip
  | adopted fresh admissible made heavier above extended =>
      have goal := tree.index.ancestry_child hashNonzero admissible made fresh above
      rw [lineage.unique goal]
      exact extended

end Processing

namespace ReplayedChain

variable {prim : Primitives} {offered : Block → Prop} {cs next : Chainstate} {block : Block}

/-- The path to a new node can be undone step by step. -/
theorem undoable_child (chain : ReplayedChain prim offered cs)
    (recovers : Recovers prim cs block) {parent node : BlockIndexNode} {work : Nat}
    (fresh : node.hash ∉ cs.blockIndex)
    (admissible : Admissible prim cs.blockIndex block parent work)
    (made : node = childNode prim block parent work) {line : List BlockIndexNode}
    (above : Ancestry prim cs.blockIndex line parent) :
    UndoableAlong (connectNode prim) disconnectNode UTXOSet.empty (line ++ [node]) := by
  apply undoableAlong_child (chain.undoable line parent above)
  · intro repeated
    obtain ⟨member, memberOf, sameHash⟩ := List.mem_map.mp repeated
    have stored := above.stored member memberOf
    rw [sameHash] at stored
    exact fresh (Finmap.mem_of_lookup_eq_some stored)
  · subst made
    exact recovers parent work line admissible above

theorem canTakeBack (chain : ReplayedChain prim offered cs)
    (recovers : Recovers prim cs block) : CanTakeBack prim cs block := by
  intro shared old new base replaces replayedShared
  obtain ⟨parent, work, line, fresh, admissible, above, -, targetEq⟩ := replaces.target
  have oldUndoable := chain.undoable _ _ replaces.current
  have newUndoable := chain.undoable_child recovers fresh admissible rfl above
  rw [targetEq] at newUndoable
  exact ⟨oldUndoable.of_append replayedShared,
    fun _ => newUndoable.of_append replayedShared⟩

theorem processed (chain : ReplayedChain prim offered cs) (hashNonzero : prim.HashNonzero)
    (recovers : Recovers prim cs block) :
    ∃ outcome next, cs.processBlock prim block = some (outcome, next) ∧
      Processed prim cs block outcome next := by
  obtain ⟨outcome, next, processed, step, -⟩ := processed_of_canTakeBack chain.tree
    hashNonzero chain.replayed (chain.canTakeBack recovers)
  exact ⟨outcome, next, processed, step⟩

theorem processed_of_eq (chain : ReplayedChain prim offered cs)
    (hashNonzero : prim.HashNonzero) (recovers : Recovers prim cs block)
    {outcome : Except PyException (Bool × String)}
    (processed : cs.processBlock prim block = some (outcome, next)) :
    Processed prim cs block outcome next := by
  obtain ⟨outcome', next', processed', step⟩ := chain.processed hashNonzero recovers
  rw [processed] at processed'
  cases processed'
  exact step

/-- Storing a recoverable node keeps every path undoable. -/
theorem undoable_storeNode (chain : ReplayedChain prim offered cs)
    (hashNonzero : prim.HashNonzero) (recovers : Recovers prim cs block)
    {parent node last : BlockIndexNode} {work : Nat} (fresh : node.hash ∉ cs.blockIndex)
    (admissible : Admissible prim cs.blockIndex block parent work)
    (made : node = childNode prim block parent work) {line : List BlockIndexNode}
    (lineage : Ancestry prim (storeNode cs.blockIndex node) line last) :
    UndoableAlong (connectNode prim) disconnectNode UTXOSet.empty line := by
  obtain ⟨parentLine, above⟩ :=
    chain.tree.index.ancestry hashNonzero admissible.parent_stored
  rcases chain.tree.index.ancestry_storeNode_cases hashNonzero admissible made fresh
    above lineage with ⟨-, rfl⟩ | lineage
  · exact chain.undoable_child recovers fresh admissible made above
  · exact chain.undoable line last lineage

/-- A call keeps the invariant. -/
theorem step (chain : ReplayedChain prim offered cs) (hashNonzero : prim.HashNonzero)
    (isOffered : offered block) (recovers : Recovers prim cs block)
    {outcome : Except PyException (Bool × String)}
    (processed : Processed prim cs block outcome next) : ReplayedChain prim offered next := by
  refine ⟨processed.blockTree chain.tree hashNonzero isOffered, ?_,
    processed.replayed chain.tree hashNonzero chain.replayed⟩
  cases processed with
  | refused => exact chain.undoable
  | pruned => exact chain.undoable
  | side fresh admissible made =>
      exact fun _ _ => chain.undoable_storeNode hashNonzero recovers fresh admissible made
  | adopted fresh admissible made =>
      exact fun _ _ => chain.undoable_storeNode hashNonzero recovers fresh admissible made

theorem addTransaction (chain : ReplayedChain prim offered cs) (tx : Transaction)
    (now : Nat) : ReplayedChain prim offered (cs.addTransaction prim tx now).2 :=
  ⟨⟨chain.tree.index, chain.tree.active, chain.tree.heaviest⟩, chain.undoable,
    chain.replayed⟩

end ReplayedChain

/-! ## Clean offers -/

/-- The conditions on an offered block: it was decoded, its bits are accepted,
it spends none of its own outputs and creates no outpoint that is unspent in
the replay of its ancestors. -/
structure CleanOffer (prim : Primitives) (cs : Chainstate) (block : Block) : Prop where
  decoded : ∃ data used, Block.deserialize data = .ok (block, used)
  bits_accepted : ∃ target, bitsToTarget block.header.bits.toNat = .ok target
  not_spent : ∀ outpoint ∈ createdOutpoints prim block.transactions,
    outpoint ∉ spentOutpoints block.transactions
  absent : ∀ parent line base, cs.blockIndex.lookup block.header.prevBlock = some parent →
    Ancestry prim cs.blockIndex line parent → replay prim line = (.ok (), base) →
    ∀ outpoint ∈ createdOutpoints prim block.transactions, outpoint ∉ base.utxos

/-- A decoded and structurally valid block is read back as it was. -/
theorem deserialize_decoded {prim : Primitives} {block : Block} {data : Bytes} {used : Nat}
    (decoded : Block.deserialize data = .ok (block, used))
    (structured : block.Structured prim) :
    Block.deserialize block.serialize = .ok (block, block.serialize.length) :=
  deserialize_serialize (deserialize_wellFormed decoded) fun tx member =>
    tx.vin_ne_nil_of_valid (structured.transactions tx member)

theorem CleanOffer.recovers {prim : Primitives} {cs : Chainstate} {block : Block}
    (clean : CleanOffer prim cs block) : Recovers prim cs block := by
  intro parent work line admissible above base read used replayed readBack
  obtain ⟨data, used', decoded⟩ := clean.decoded
  rw [childNode_rawBlock, deserialize_decoded decoded admissible.structured] at readBack
  cases readBack
  apply Clean.recoverable
  exact ⟨clean.not_spent, clean.absent parent line base admissible.parent_stored above
    replayed⟩

theorem getBlockWork_ok {bits : Int} {target : Nat} (accepted : bitsToTarget bits = .ok target)
    (powType : Nat) : ∃ work, getBlockWork bits powType = .ok work := by
  rw [getBlockWork, accepted]
  by_cases zero : target ≤ 0
  · exact ⟨0, by simp [zero]⟩
  · simp only [zero, if_false, Except.ok.injEq, exists_eq']

/-- Behind genesis the conditions can be checked on the genesis outputs. -/
theorem CleanOffer.atGenesis {prim : Primitives} (hashNonzero : prim.HashNonzero)
    {block : Block}
    (checked : (Block.deserialize block.serialize).toOption.map Prod.fst = some block ∧
      (bitsToTarget block.header.bits.toNat).isOk = true ∧
      (∀ outpoint ∈ createdOutpoints prim block.transactions,
        outpoint ∉ spentOutpoints block.transactions) ∧
      ∀ outpoint ∈ createdOutpoints prim block.transactions,
        outpoint ∉ (genesisState prim).utxoSet.utxos) :
    CleanOffer prim (genesisState prim) block := by
  obtain ⟨decoded, accepted, not_spent, absent⟩ := checked
  refine ⟨?_, ?_, not_spent, ?_⟩
  · cases read : Block.deserialize block.serialize with
    | error error => simp [read, Except.toOption] at decoded
    | ok pair =>
        have same : pair.1 = block := by simpa [read, Except.toOption] using decoded
        exact ⟨_, pair.2, by rw [read, ← same]⟩
  · cases read : bitsToTarget block.header.bits.toNat with
    | error error => simp [read, Except.isOk, Except.toBool] at accepted
    | ok target => exact ⟨target, rfl⟩
  · intro parent line base _ above replayed
    rw [ancestry_genesisState hashNonzero above, replay_genesis] at replayed
    cases replayed
    exact absent

/-- A property of a block behind genesis can be checked on the genesis
outputs. -/
theorem Offers.atGenesis {prim : Primitives} (hashNonzero : prim.HashNonzero)
    {good : BlockIndexNode → Block → UTXOSet → Prop} {block : Block}
    (decoded : (Block.deserialize block.serialize).toOption.map Prod.fst = some block)
    (holds : ∀ work, good (childNode prim block (rootNode prim) work) block
      (genesisState prim).utxoSet) :
    Offers prim good (genesisState prim) block := by
  intro parent work line admissible above base read used replayed readBack
  rw [ancestry_genesisState hashNonzero above, replay_genesis] at replayed
  cases replayed
  have parentRoot : parent = rootNode prim := by
    rcases lookup_storeNode_cases admissible.parent_stored with ⟨-, same⟩ | stored
    · exact same
    · simp at stored
  rw [childNode_rawBlock] at readBack
  have same : read = block := by
    simpa [readBack, Except.toOption] using decoded
  rw [same, parentRoot]
  exact holds work

/-! ## Runs -/

/-- A run that only admits recoverable blocks keeps the invariant. -/
theorem Reaches.replayedChain {prim : Primitives} (hashNonzero : prim.HashNonzero)
    {admits : Chainstate → Block → Prop}
    (admitsRecoverable : ∀ cs block, admits cs block → Recovers prim cs block)
    {cs : Chainstate} (reached : Reaches prim admits cs) :
    ReplayedChain prim (fun _ => True) cs := by
  induction reached with
  | genesis built => exact ReplayedChain.genesis hashNonzero built
  | @block cs next block outcome _ admitted processed ih =>
      have recovers := admitsRecoverable _ _ admitted
      exact ih.step hashNonzero trivial recovers
        (ih.processed_of_eq hashNonzero recovers processed)
  | transaction _ tx now ih => exact ih.addTransaction tx now

/-- What holds of every offered block behind its ancestors holds of every
stored node but the root. -/
theorem Reaches.behind {prim : Primitives} (hashNonzero : prim.HashNonzero)
    {good : BlockIndexNode → Block → UTXOSet → Prop}
    {cs : Chainstate}
    (reached : Reaches prim (fun cs block => Recovers prim cs block ∧
      Offers prim good cs block) cs) {line : List BlockIndexNode} {node : BlockIndexNode}
    (lineage : Ancestry prim cs.blockIndex (line ++ [node]) node) (notRoot : line ≠ []) :
    Behind prim good line node := by
  induction reached generalizing line node with
  | genesis built =>
      obtain ⟨-, rfl⟩ := initGenesis_eq_ok.mp built
      have only := ancestry_genesisState hashNonzero lineage
      cases line with
      | nil => exact (notRoot rfl).elim
      | cons first rest => simp at only
  | @block cs next block outcome reached admitted processed ih =>
      have chain := reached.replayedChain hashNonzero fun _ _ both => both.1
      have stored : ∀ parent node' work, node'.hash ∉ cs.blockIndex →
          Admissible prim cs.blockIndex block parent work →
          node' = childNode prim block parent work →
          Ancestry prim (storeNode cs.blockIndex node') (line ++ [node]) node →
          Behind prim good line node := by
        intro parent node' work fresh admissible made lineage'
        obtain ⟨parentLine, above⟩ :=
          chain.tree.index.ancestry hashNonzero admissible.parent_stored
        rcases chain.tree.index.ancestry_storeNode_cases hashNonzero admissible made fresh
          above lineage' with ⟨rfl, same⟩ | before
        · obtain ⟨rfl, -⟩ := List.append_inj' same rfl
          rw [made]
          exact admitted.2 parent work line admissible above
        · exact ih before notRoot
      cases chain.processed_of_eq hashNonzero admitted.1 processed with
      | refused => exact ih lineage notRoot
      | pruned => exact ih lineage notRoot
      | side fresh admissible made => exact stored _ _ _ fresh admissible made lineage
      | adopted fresh admissible made => exact stored _ _ _ fresh admissible made lineage
  | transaction _ tx now ih => exact ih lineage notRoot

/-- In a run of recoverable blocks, a call that does not accept its block
leaves the whole chainstate as it was. -/
theorem processBlock_rejected_eq (prim : Primitives) (hashNonzero : prim.HashNonzero)
    (cs : Chainstate) (reached : Reaches prim (Recovers prim) cs) (block : Block)
    (recovers : Recovers prim cs block) (outcome : Except PyException (Bool × String))
    (next : Chainstate) (processed : cs.processBlock prim block = some (outcome, next))
    (rejected : ∀ message, outcome ≠ .ok (true, message)) : next = cs := by
  have chain := reached.replayedChain hashNonzero fun _ _ admitted => admitted
  cases chain.processed_of_eq hashNonzero recovers processed with
  | refused => rfl
  | pruned => rfl
  | side => exact (rejected _ rfl).elim
  | adopted => exact (rejected _ rfl).elim

/-- A rejected block that passes its own coinbase on leaves the coinbase in the
unspent outputs. -/
theorem ownSpendBlock_leaves_coinbase :
    let cs := genesisState chainPrimitives
    Reaches chainPrimitives (fun _ _ => True) cs ∧
      Answers chainPrimitives cs ownSpendBlock false ∧
      cs.utxoSet.utxos.lookup (sampleCoinbaseTxid, 0) = none ∧
      (cs.afterBlock chainPrimitives ownSpendBlock).utxoSet.utxos.lookup
        (sampleCoinbaseTxid, 0) = some ⟨50 * coin, [0x51], 1, true⟩ := by
  refine ⟨.genesis chainPrimitives_initGenesis, ?_⟩
  decide +kernel

theorem missingBlock_cleanOffer :
    CleanOffer chainPrimitives (genesisState chainPrimitives) missingBlock :=
  .atGenesis chainPrimitives_hashNonzero (by decide +kernel)

/-- The rejected block with a missing input leaves no trace. -/
theorem missingBlock_rejected_eq :
    (genesisState chainPrimitives).afterBlock chainPrimitives missingBlock =
      genesisState chainPrimitives := by
  have rejects : Answers chainPrimitives (genesisState chainPrimitives)
      missingBlock false := by decide +kernel
  obtain ⟨message, processed⟩ := rejects.processBlock_eq
  exact processBlock_rejected_eq chainPrimitives chainPrimitives_hashNonzero _
    (.genesis chainPrimitives_initGenesis) missingBlock missingBlock_cleanOffer.recovers
    _ _ processed (by simp)

/-- In a run of clean offers every call returns, a call that refuses its block
changes nothing, the unspent outputs are the replay of the active chain, and
there is exactly one undo record for every active block, which takes back
exactly that block. -/
theorem reaches_replay (prim : Primitives) (hashNonzero : prim.HashNonzero)
    (cs : Chainstate) (reached : Reaches prim (CleanOffer prim) cs) :
    (∀ block, CleanOffer prim cs block →
      ∃ accepted message next,
        cs.processBlock prim block = some (.ok (accepted, message), next) ∧
          (accepted = false → next = cs)) ∧
    ∃ line, Ancestry prim cs.blockIndex line cs.bestTip ∧
      cs.activeChain = line.map BlockIndexNode.hash ∧
      replay prim line = (.ok (), cs.utxoSet) ∧
      cs.activeChain.Nodup ∧
      (∀ hash, hash ∈ cs.utxoSet.undoHistory ↔ hash ∈ cs.activeChain) ∧
      ∀ before node after, line = before ++ node :: after →
        ∃ base next, replay prim before = (.ok (), base) ∧
          connectNode prim base node = (.ok (), next) ∧
          cs.utxoSet.undoHistory.lookup node.hash = next.undoHistory.lookup node.hash ∧
          next.revertBlock node.hash = (.ok (), base) := by
  have chain := reached.replayedChain hashNonzero fun _ _ clean => clean.recovers
  obtain ⟨line, tip, active⟩ := chain.tree.active
  have replayed := chain.replayed line tip
  refine ⟨?_, line, tip, active, replayed, active ▸ tip.keys_nodup, ?_, ?_⟩
  · intro block clean
    obtain ⟨outcome, next, processed, step⟩ := chain.processed hashNonzero clean.recovers
    rw [processed]
    cases step with
    | refused reason barred =>
        rcases reason with ⟨message, rfl⟩ | ⟨error, rfl, failed⟩
        · exact ⟨false, message, cs, rfl, fun _ => rfl⟩
        · obtain ⟨target, accepted⟩ := clean.bits_accepted
          obtain ⟨work, worked⟩ := getBlockWork_ok accepted block.header.powType
          rw [worked] at failed
          cases failed
    | pruned => exact ⟨_, _, _, rfl, fun _ => rfl⟩
    | side => exact ⟨_, _, _, rfl, fun impossible => by cases impossible⟩
    | adopted => exact ⟨_, _, _, rfl, fun impossible => by cases impossible⟩
  · intro hash
    rw [mem_undoHistory_replay replayed, active]
  · rintro before node after rfl
    obtain ⟨base, replayedBefore, rest⟩ := runAll_append_ok.mp replayed
    obtain ⟨next, connected, restAfter⟩ := runAll_cons_ok.mp rest
    have undoable := (chain.undoable _ _ tip).of_append replayedBefore
    have distinct := tip.keys_nodup
    rw [List.map_append, List.map_cons, List.nodup_append, List.nodup_cons] at distinct
    exact ⟨base, next, replayedBefore, connected,
      lookup_undoHistory_runAll restAfter distinct.2.1.1,
      undoable.1.revert_applied next connected⟩

theorem coinbaseBlock_cleanOffer :
    CleanOffer chainPrimitives (genesisState chainPrimitives) coinbaseBlock :=
  .atGenesis chainPrimitives_hashNonzero (by decide +kernel)

/-- Behind the first block the unspent outputs are the replay of a path of two
nodes. -/
theorem coinbaseBlock_replay :
    let cs := (genesisState chainPrimitives).afterBlock chainPrimitives coinbaseBlock
    cs.activeChain.length = 2 ∧
      ∃ line, cs.activeChain = line.map BlockIndexNode.hash ∧
        replay chainPrimitives line = (.ok (), cs.utxoSet) := by
  obtain ⟨message, returned⟩ := coinbaseBlock_answers.processBlock_eq
  obtain ⟨-, line, -, active, replayed, -⟩ := reaches_replay chainPrimitives
    chainPrimitives_hashNonzero _
    (.block (.genesis chainPrimitives_initGenesis) coinbaseBlock_cleanOffer returned)
  exact ⟨by decide +kernel, line, active, replayed⟩

end QuantyCoin
