import QuantyCoin.Chainstate
import QuantyCoin.UtxoUndoExactness

/-!
# The block tree and fork choice

The block index is a tree with the genesis node at its root: every other node
was made by `process_block` behind a stored parent.  This module states what
one call of `process_block` can do to the tree, and shows by induction over
the calls that the best tip has the most work of all stored nodes, that the
active chain is its path from genesis, and that the ancestor walks of a
reorganization end at a common ancestor.
-/

namespace QuantyCoin

open AncestorWalk BranchSwitch ByteDecoder

/-! ## The root -/

/-- The work of the genesis block. -/
def genesisWork : Nat := 2 ^ 256 / (0xfffff * 256 ^ 27 + 1)

theorem getBlockWork_genesis :
    getBlockWork genesisBits.toNat powTypeSha256d = .ok genesisWork := by
  rfl

/-- The node `_init_genesis` stores. -/
def rootNode (prim : Primitives) : BlockIndexNode := genesisNode prim genesisWork

/-- The chainstate `_init_genesis` builds. -/
def genesisState (prim : Primitives) : Chainstate where
  utxoSet := (UTXOSet.empty.applyBlock prim (rootNode prim).hash 0 [genesisCoinbase]).2
  mempool := Mempool.empty
  blockIndex := storeNode ∅ (rootNode prim)
  activeChain := [(rootNode prim).hash]
  bestTip := rootNode prim

theorem applyBlock_genesis (prim : Primitives) :
    ∃ undo, UTXOSet.empty.applyBlock prim (rootNode prim).hash 0 [genesisCoinbase] =
      (.ok undo, (genesisState prim).utxoSet) := by
  exact ⟨_, rfl⟩

theorem genesisHeader_powType (prim : Primitives) : (genesisHeader prim).powType = 0 := by
  simp only [BlockHeader.powType, genesisHeader]
  decide

/-- Of the checks of `_init_genesis` only the one on the hash depends on the
primitives; the proof of work and the Merkle root follow from it. -/
theorem initGenesis_eq_ok {prim : Primitives} {cs : Chainstate} :
    Chainstate.initGenesis prim = .ok cs ↔
      (rootNode prim).hash = genesisHash.reverse ∧ cs = genesisState prim := by
  by_cases named : ((genesisHeader prim).hash prim).reverse = genesisHash
  · have hashEq : (genesisHeader prim).hash prim = genesisHash.reverse := by
      rw [← named, List.reverse_reverse]
    have pow : (genesisHeader prim).verifyPow prim = true := by
      have target : (genesisHeader prim).getTarget = 0xfffff * 256 ^ 27 := by
        have bits : (genesisHeader prim).bits = genesisBits := rfl
        rw [BlockHeader.getTarget, bits]
        decide
      rw [BlockHeader.verifyPow, BlockHeader.powHash, genesisHeader_powType,
        if_neg (by decide), hashEq,
        target]
      decide
    have merkle : (genesisBlock prim).verifyMerkleRoot prim = true := by
      simp [Block.verifyMerkleRoot, Block.calculateMerkleRoot, genesisBlock, genesisHeader]
    have built : Chainstate.initGenesis prim = .ok (genesisState prim) := by
      obtain ⟨undo, applied⟩ := applyBlock_genesis prim
      simp only [rootNode] at applied
      simp [Chainstate.initGenesis, named, pow, merkle, getBlockWork_genesis, applied]
      rfl
    rw [built]
    constructor
    · intro same
      exact ⟨hashEq, (Except.ok.inj same).symm⟩
    · rintro ⟨-, rfl⟩
      rfl
  · constructor
    · intro built
      simp [Chainstate.initGenesis, named] at built
    · rintro ⟨hashEq, -⟩
      exact (named (by
        have same : (genesisHeader prim).hash prim = genesisHash.reverse := hashEq
        rw [same, List.reverse_reverse])).elim

/-- The nodes from genesis to a stored node. -/
abbrev Ancestry (prim : Primitives) (index : BlockIndex) :
    List BlockIndexNode → BlockIndexNode → Prop :=
  Lineage index BlockIndexNode.hash BlockIndexNode.prevHash BlockIndexNode.height
    (rootNode prim)

/-! ## The index -/

/-- What `process_block` checks before it stores a node for a block. -/
structure Admissible (prim : Primitives) (index : BlockIndex) (block : Block)
    (parent : BlockIndexNode) (work : Nat) : Prop where
  structured : block.Structured prim
  parent_stored : index.lookup block.header.prevBlock = some parent
  timely : (parent.header.timestamp.toNat : Int) - 7200 < block.header.timestamp.toNat
  work_eq : getBlockWork block.header.bits.toNat block.header.powType = .ok work

/-- Every stored node is the root or was made for one of the offered blocks,
behind a stored parent. -/
structure IndexTree (prim : Primitives) (offered : Block → Prop) (index : BlockIndex) :
    Prop where
  root_stored : index.lookup (rootNode prim).hash = some (rootNode prim)
  hash_eq : ∀ hash node, index.lookup hash = some node → node.hash = hash
  origin : ∀ hash node, index.lookup hash = some node → node = rootNode prim ∨
    ∃ block parent work, offered block ∧ Admissible prim index block parent work ∧
      node = childNode prim block parent work

@[simp]
theorem rootNode_height (prim : Primitives) : (rootNode prim).height = 0 := rfl

@[simp]
theorem rootNode_prevHash (prim : Primitives) : (rootNode prim).prevHash = zeroHash := rfl

theorem Admissible.mono {prim : Primitives} {index index' : BlockIndex} {block : Block}
    {parent : BlockIndexNode} {work : Nat}
    (admissible : Admissible prim index block parent work)
    (kept : ∀ hash node, index.lookup hash = some node → index'.lookup hash = some node) :
    Admissible prim index' block parent work :=
  { admissible with parent_stored := kept _ _ admissible.parent_stored }

theorem Admissible.unique {prim : Primitives} {index : BlockIndex} {block : Block}
    {parent parent' : BlockIndexNode} {work work' : Nat}
    (admissible : Admissible prim index block parent work)
    (admissible' : Admissible prim index block parent' work') :
    parent = parent' ∧ work = work' :=
  ⟨Option.some.inj (admissible.parent_stored.symm.trans admissible'.parent_stored),
    Except.ok.inj (admissible.work_eq.symm.trans admissible'.work_eq)⟩

/-- Storing a node under a fresh hash keeps all others. -/
theorem lookup_storeNode {index : BlockIndex} {node : BlockIndexNode}
    (fresh : node.hash ∉ index) {hash : Bytes} {found : BlockIndexNode}
    (stored : index.lookup hash = some found) :
    (storeNode index node).lookup hash = some found := by
  have other : hash ≠ node.hash := by
    rintro rfl
    exact fresh (Finmap.mem_of_lookup_eq_some stored)
  rw [storeNode, Finmap.lookup_insert_of_ne _ other, stored]

/-- What is found afterwards is the new node or was there before. -/
theorem lookup_storeNode_cases {index : BlockIndex} {node found : BlockIndexNode}
    {hash : Bytes} (stored : (storeNode index node).lookup hash = some found) :
    (hash = node.hash ∧ found = node) ∨ index.lookup hash = some found := by
  by_cases same : hash = node.hash
  · subst same
    rw [storeNode, Finmap.lookup_insert] at stored
    exact Or.inl ⟨rfl, (Option.some.inj stored).symm⟩
  · rw [storeNode, Finmap.lookup_insert_of_ne _ same] at stored
    exact Or.inr stored

theorem erase_storeNode {index : BlockIndex} {node : BlockIndexNode}
    (fresh : node.hash ∉ index) : (storeNode index node).erase node.hash = index := by
  apply Finmap.ext_lookup
  intro hash
  by_cases same : hash = node.hash
  · subst same
    rw [Finmap.lookup_erase, Finmap.lookup_eq_none.mpr fresh]
  · rw [Finmap.lookup_erase_ne same, storeNode, Finmap.lookup_insert_of_ne _ same]

namespace IndexTree

variable {prim : Primitives} {offered : Block → Prop} {index : BlockIndex}

theorem header_hash (tree : IndexTree prim offered index) {hash : Bytes}
    {node : BlockIndexNode} (stored : index.lookup hash = some node) :
    node.header.hash prim = hash := by
  have keyed := tree.hash_eq hash node stored
  rcases tree.origin hash node stored with rfl | ⟨block, parent, work, -, -, rfl⟩
  · exact keyed
  · exact keyed

theorem zeroHash_missing (tree : IndexTree prim offered index)
    (hashNonzero : prim.HashNonzero) : index.lookup zeroHash = none := by
  cases stored : index.lookup zeroHash with
  | none => rfl
  | some node => exact (hashNonzero node.header (tree.header_hash stored)).elim

/-- Every stored node has a path from genesis. -/
theorem ancestry (tree : IndexTree prim offered index) (hashNonzero : prim.HashNonzero)
    {hash : Bytes} {node : BlockIndexNode} (stored : index.lookup hash = some node) :
    ∃ line, Ancestry prim index line node := by
  -- The height falls by one from a node to its parent.
  induction height : node.height generalizing hash node with
  | zero =>
      rcases tree.origin hash node stored with rfl | ⟨block, parent, work, -, -, rfl⟩
      · exact ⟨_, .root tree.root_stored (tree.zeroHash_missing hashNonzero) rfl⟩
      · cases height
  | succ below ih =>
      rcases tree.origin hash node stored with rfl | ⟨block, parent, work, -, made, rfl⟩
      · cases height
      · have parentHeight : parent.height = below := Nat.succ.inj height
        obtain ⟨line, above⟩ := ih made.parent_stored parentHeight
        have keyed := tree.hash_eq _ _ stored
        have linked := tree.hash_eq _ _ made.parent_stored
        exact ⟨_, above.child (keyed ▸ stored) linked.symm rfl⟩

section Store

variable {block : Block} {parent node : BlockIndexNode} {work : Nat}

theorem storeNode (tree : IndexTree prim offered index) (isOffered : offered block)
    (admissible : Admissible prim index block parent work)
    (made : node = childNode prim block parent work) (fresh : node.hash ∉ index) :
    IndexTree prim offered (storeNode index node) := by
  have kept : ∀ hash found, index.lookup hash = some found →
      (QuantyCoin.storeNode index node).lookup hash = some found :=
    fun _ _ stored => lookup_storeNode fresh stored
  refine ⟨kept _ _ tree.root_stored, ?_, ?_⟩
  · intro hash found stored
    rcases lookup_storeNode_cases stored with ⟨rfl, rfl⟩ | stored
    · rfl
    · exact tree.hash_eq hash found stored
  · intro hash found stored
    rcases lookup_storeNode_cases stored with ⟨rfl, rfl⟩ | stored
    · exact Or.inr ⟨block, parent, work, isOffered, admissible.mono kept, made⟩
    · rcases tree.origin hash found stored with
        rfl | ⟨other, above, otherWork, known, admitted, rfl⟩
      · exact Or.inl rfl
      · exact Or.inr ⟨other, above, otherWork, known, admitted.mono kept, rfl⟩

/-- Paths from genesis stay when a node is stored. -/
theorem ancestry_storeNode (tree : IndexTree prim offered index)
    (hashNonzero : prim.HashNonzero) (made : node = childNode prim block parent work)
    (fresh : node.hash ∉ index) {line : List BlockIndexNode} {last : BlockIndexNode}
    (lineage : Ancestry prim index line last) :
    Ancestry prim (QuantyCoin.storeNode index node) line last := by
  have notZero : zeroHash ≠ node.hash := by
    subst made
    exact (hashNonzero block.header).symm
  apply lineage.mono fun _ _ stored => lookup_storeNode fresh stored
  rw [rootNode_prevHash, QuantyCoin.storeNode, Finmap.lookup_insert_of_ne _ notZero]
  exact tree.zeroHash_missing hashNonzero

/-- The new node extends the path of its parent. -/
theorem ancestry_child (tree : IndexTree prim offered index)
    (hashNonzero : prim.HashNonzero)
    (admissible : Admissible prim index block parent work)
    (made : node = childNode prim block parent work) (fresh : node.hash ∉ index)
    {line : List BlockIndexNode} (above : Ancestry prim index line parent) :
    Ancestry prim (QuantyCoin.storeNode index node) (line ++ [node]) node := by
  have kept := tree.ancestry_storeNode hashNonzero made fresh above
  have linked := tree.hash_eq _ _ admissible.parent_stored
  subst made
  exact kept.child (Finmap.lookup_insert _) linked.symm rfl

/-- Every path after storing a node is the new one or was there before. -/
theorem ancestry_storeNode_cases (tree : IndexTree prim offered index)
    (hashNonzero : prim.HashNonzero)
    (admissible : Admissible prim index block parent work)
    (made : node = childNode prim block parent work) (fresh : node.hash ∉ index)
    {parentLine line : List BlockIndexNode} {last : BlockIndexNode}
    (above : Ancestry prim index parentLine parent)
    (lineage : Ancestry prim (QuantyCoin.storeNode index node) line last) :
    (last = node ∧ line = parentLine ++ [node]) ∨ Ancestry prim index line last := by
  rcases lookup_storeNode_cases lineage.node_stored with ⟨-, rfl⟩ | stored
  · exact Or.inl ⟨rfl, lineage.unique
      (tree.ancestry_child hashNonzero admissible made fresh above)⟩
  · obtain ⟨oldLine, oldLineage⟩ := tree.ancestry hashNonzero stored
    have kept := tree.ancestry_storeNode hashNonzero made fresh oldLineage
    rw [lineage.unique kept]
    exact Or.inr oldLineage

end Store

end IndexTree

/-! ## Reorganizations -/

theorem hashIndices_append_singleton (branch : List BlockIndexNode) (node : BlockIndexNode) :
    hashIndices (branch ++ [node]) = (hashIndices branch).insert node.hash branch.length := by
  simp [hashIndices, List.zipIdx_append]

theorem mem_hashIndices (branch : List BlockIndexNode) (hash : Bytes) :
    hash ∈ hashIndices branch ↔ hash ∈ branch.map BlockIndexNode.hash := by
  induction branch using List.reverseRecOn with
  | nil => simp [hashIndices, Finmap.notMem_empty]
  | append_singleton branch node ih =>
      simp [hashIndices_append_singleton, ih, or_comm, eq_comm]

/-- The index of a node on a branch without repeated hashes. -/
theorem lookup_hashIndices {before after : List BlockIndexNode} {node : BlockIndexNode}
    (distinct : ((before ++ node :: after).map BlockIndexNode.hash).Nodup) :
    (hashIndices (before ++ node :: after)).lookup node.hash = some before.length := by
  induction after using List.reverseRecOn with
  | nil => rw [hashIndices_append_singleton, Finmap.lookup_insert]
  | append_singleton after last ih =>
      rw [← List.cons_append, ← List.append_assoc] at distinct ⊢
      rw [List.map_append, List.nodup_append] at distinct
      obtain ⟨distinctInit, -, apart⟩ := distinct
      have other : node.hash ≠ last.hash := apart _ (by simp) _ (by simp)
      rw [hashIndices_append_singleton, Finmap.lookup_insert_of_ne _ other]
      exact ih distinctInit

/-- Connecting nodes has read all their blocks, so the memory pool can be
cleaned of them. -/
theorem runAll_cleanMined {prim : Primitives} {base last : UTXOSet}
    {nodes : List BlockIndexNode}
    (connected : runAll (connectNode prim) base nodes = (.ok (), last)) (pool : Mempool) :
    ∃ pool', runAll (cleanMined prim) pool nodes = (.ok (), pool') := by
  apply runAll_ok_of_forall
  intro node member pool
  obtain ⟨before, after, connectedNode⟩ := runAll_ok_mem connected member
  rw [connectNode] at connectedNode
  rw [cleanMined]
  split at connectedNode
  · cases connectedNode
  · exact ⟨_, rfl⟩

namespace Chainstate

variable {prim : Primitives} {cs : Chainstate}

/-- The two ancestor walks of a reorganization. -/
theorem walks_eq {current target : List BlockIndexNode} {node : BlockIndexNode}
    (tip : Ancestry prim cs.blockIndex current cs.bestTip)
    (goal : Ancestry prim cs.blockIndex target node) :
    ∃ shared ancestor old new,
      current = shared ++ ancestor :: old ∧ target = shared ++ ancestor :: new ∧
      branchTo cs.blockIndex cs.bestTip = some current.reverse ∧
      branchToFork cs.blockIndex (hashIndices current.reverse) node =
        some (some ancestor, new.reverse) ∧
      ∀ member ∈ new, member.hash ∉ current.map BlockIndexNode.hash := by
  obtain ⟨shared, ancestor, old, new, rfl, rfl, apart⟩ := tip.fork goal
  have currentLength := tip.length_le
  have targetLength := goal.length_le
  simp only [List.length_append, List.length_cons] at targetLength
  have walked : walk cs.blockIndex BlockIndexNode.prevHash (fun _ => false)
      (walkFuel cs.blockIndex) cs.bestTip =
        some (none, (shared ++ ancestor :: old).reverse) :=
    tip.walk_eq (by simp only [walkFuel]; omega)
  refine ⟨shared, ancestor, old, new, rfl, rfl, by rw [branchTo, walked]; rfl, ?_, apart⟩
  apply goal.walk_until_eq
  · simp [mem_hashIndices]
  · intro member memberOf
    have notCurrent := apart member memberOf
    rw [← List.mem_reverse, ← List.map_reverse, ← mem_hashIndices] at notCurrent
    exact decide_eq_false notCurrent
  · simp only [walkFuel]
    omega

/-- What a reorganization between two stored nodes does, in terms of the nodes
behind the fork. -/
theorem reorgToNode_eq {current target : List BlockIndexNode} {node : BlockIndexNode}
    (tip : Ancestry prim cs.blockIndex current cs.bestTip)
    (active : cs.activeChain = current.map BlockIndexNode.hash)
    (goal : Ancestry prim cs.blockIndex target node) :
    ∃ shared old new, current = shared ++ old ∧ target = shared ++ new ∧
      (∀ member ∈ new, member.hash ∉ current.map BlockIndexNode.hash) ∧
      reorgToNode prim cs node =
        match switchBranch (connectNode prim) disconnectNode cs.utxoSet old.reverse new with
        | (.error error, utxoSet) => some (.error error, { cs with utxoSet := utxoSet })
        | (.ok (some error), utxoSet) =>
            some (.ok (false, error.message), { cs with utxoSet := utxoSet })
        | (.ok none, utxoSet) =>
            some (.ok (true, "Reorg Success"),
              { cs with
                utxoSet := utxoSet
                mempool := (runAll (cleanMined prim) cs.mempool new).2
                activeChain := target.map BlockIndexNode.hash
                bestTip := node }) := by
  obtain ⟨shared, ancestor, old, new, currentEq, targetEq, walked, walkedFork, apart⟩ :=
    walks_eq tip goal
  refine ⟨shared ++ [ancestor], old, new, by simp [currentEq], by simp [targetEq],
    apart, ?_⟩
  have ancestorIdx : (hashIndices current.reverse).lookup ancestor.hash =
      some old.length := by
    have distinct := tip.keys_nodup
    rw [← List.nodup_reverse, ← List.map_reverse, currentEq] at distinct
    have split : (shared ++ ancestor :: old).reverse =
        old.reverse ++ ancestor :: shared.reverse := by simp
    rw [split] at distinct
    rw [currentEq, split, lookup_hashIndices distinct, List.length_reverse]
  have disconnected : current.reverse.take old.length = old.reverse := by
    simp [currentEq]
  have kept : cs.activeChain.take (ancestor.height + 1) ++ new.map BlockIndexNode.hash =
      target.map BlockIndexNode.hash := by
    have height : ancestor.height = shared.length := (currentEq ▸ tip).rank_member
    rw [active, currentEq, targetEq, height]
    simp [List.take_append]
  simp only [reorgToNode, walked, walkedFork, ancestorIdx, Option.getD_some,
    disconnected, List.reverse_reverse, kept]
  rcases switched : switchBranch (connectNode prim) disconnectNode cs.utxoSet
      old.reverse new with ⟨result, utxoSet⟩
  rcases result with error | _ | error
  · rfl
  · obtain ⟨base, -, connected⟩ := switchBranch_ok_none switched
    obtain ⟨pool, cleaned⟩ := runAll_cleanMined connected cs.mempool
    simp [cleaned]
  · rfl

/-! ## One call of `process_block` -/

/-- A call changes nothing, or goes on to choose a fork with the node of an
admissible block. -/
theorem processBlock_cases (prim : Primitives) (cs : Chainstate) (block : Block) :
    (∃ result, cs.processBlock prim block = some (result, cs) ∧
      ((∃ message, result = .ok (false, message)) ∨
        ∃ error, result = .error error ∧
          getBlockWork block.header.bits.toNat block.header.powType = .error error) ∧
      (block.hash prim ∈ cs.blockIndex ∨
        ∀ parent work, ¬ Admissible prim cs.blockIndex block parent work)) ∨
    (block.hash prim ∉ cs.blockIndex ∧
      ∃ parent work, Admissible prim cs.blockIndex block parent work ∧
        cs.processBlock prim block =
          cs.chooseFork prim (childNode prim block parent work)) := by
  by_cases known : block.hash prim ∈ cs.blockIndex
  · left
    exact ⟨_, by rw [processBlock, if_pos known], Or.inl ⟨_, rfl⟩, Or.inl known⟩
  rcases valid : block.validateStructure prim with ⟨structured, message⟩
  cases structured with
  | false =>
      left
      refine ⟨.ok (false, "Invalid block structure: " ++ message),
        by simp [processBlock, known, valid], Or.inl ⟨_, rfl⟩, Or.inr ?_⟩
      intro parent work admissible
      have isValid := Block.validateStructure_eq_true.mpr admissible.structured
      rw [valid] at isValid
      cases isValid
  | true =>
      have structured : block.Structured prim :=
        Block.validateStructure_eq_true.mp (by rw [valid])
      cases found : cs.blockIndex.lookup block.header.prevBlock with
      | none =>
          left
          refine ⟨.ok (false, "Orphan block (parent not found)"),
            by simp [processBlock, known, valid, found], Or.inl ⟨_, rfl⟩, Or.inr ?_⟩
          intro parent work admissible
          rw [admissible.parent_stored] at found
          cases found
      | some parent =>
          by_cases early : (block.header.timestamp.toNat : Int) ≤
              (parent.header.timestamp.toNat : Int) - 7200
          · left
            refine ⟨.ok (false, "Block timestamp too far in past"),
              by simp [processBlock, known, valid, found, early], Or.inl ⟨_, rfl⟩,
              Or.inr ?_⟩
            intro other work admissible
            rw [admissible.parent_stored] at found
            cases found
            exact absurd admissible.timely (not_lt.mpr early)
          · cases worked : getBlockWork block.header.bits.toNat block.header.powType with
            | error error =>
                left
                refine ⟨.error error,
                  by simp [processBlock, known, valid, found, early, worked],
                  Or.inr ⟨error, rfl, rfl⟩, Or.inr ?_⟩
                intro other work admissible
                rw [admissible.work_eq] at worked
                cases worked
            | ok work =>
                right
                exact ⟨known, parent, work, ⟨structured, found, not_le.mp early, worked⟩,
                  by simp [processBlock, known, valid, found, early, worked]⟩

end Chainstate

/-- The block tree of a chainstate and the choice of its tip. -/
structure BlockTree (prim : Primitives) (offered : Block → Prop) (cs : Chainstate) :
    Prop where
  index : IndexTree prim offered cs.blockIndex
  active : ∃ line, Ancestry prim cs.blockIndex line cs.bestTip ∧
    cs.activeChain = line.map BlockIndexNode.hash
  heaviest : ∀ hash node, cs.blockIndex.lookup hash = some node →
    node.chainwork ≤ cs.bestTip.chainwork

namespace Chainstate

variable {prim : Primitives} {offered : Block → Prop} {cs : Chainstate} {block : Block}
  {parent node : BlockIndexNode} {work : Nat}

theorem chooseFork_side (lighter : node.chainwork ≤ cs.bestTip.chainwork) :
    cs.chooseFork prim node = some (.ok (true, "Accepted (Side Chain / Fork)"),
      { cs with blockIndex := storeNode cs.blockIndex node }) := by
  rw [chooseFork, if_neg (not_lt.mpr lighter)]

/-- Choosing a node with more work than the tip switches the unspent outputs
between the two branches; a failed switch takes the node out again. -/
theorem chooseFork_heavier (index : IndexTree prim offered cs.blockIndex)
    (active : ∃ line, Ancestry prim cs.blockIndex line cs.bestTip ∧
      cs.activeChain = line.map BlockIndexNode.hash) (hashNonzero : prim.HashNonzero)
    (admissible : Admissible prim cs.blockIndex block parent work)
    (made : node = childNode prim block parent work) (fresh : node.hash ∉ cs.blockIndex)
    (heavier : cs.bestTip.chainwork < node.chainwork)
    {current line : List BlockIndexNode}
    (tip : Ancestry prim cs.blockIndex current cs.bestTip)
    (above : Ancestry prim cs.blockIndex line parent) :
    ∃ shared old new, current = shared ++ old ∧ line ++ [node] = shared ++ new ∧
      (∀ member ∈ new, member.hash ∉ current.map BlockIndexNode.hash) ∧
      cs.chooseFork prim node =
        match switchBranch (connectNode prim) disconnectNode cs.utxoSet old.reverse new with
        | (.error error, utxoSet) =>
            some (.error error,
              { cs with
                utxoSet := utxoSet
                blockIndex := storeNode cs.blockIndex node })
        | (.ok (some error), utxoSet) =>
            some (.ok (false, "Chain reorganization failed: " ++ error.message),
              { cs with utxoSet := utxoSet })
        | (.ok none, utxoSet) =>
            some (.ok (true, "Accepted (New Best Tip)"),
              { utxoSet := utxoSet
                mempool := (runAll (cleanMined prim) cs.mempool new).2
                blockIndex := storeNode cs.blockIndex node
                activeChain := (line ++ [node]).map BlockIndexNode.hash
                bestTip := node }) := by
  obtain ⟨activeLine, activeTip, active⟩ := active
  obtain rfl := activeTip.unique tip
  have goal := index.ancestry_child hashNonzero admissible made fresh above
  have tip' := index.ancestry_storeNode hashNonzero made fresh tip
  obtain ⟨shared, old, new, currentEq, targetEq, apart, reorged⟩ :=
    @reorgToNode_eq prim { cs with blockIndex := storeNode cs.blockIndex node }
      activeLine (line ++ [node]) node tip' active goal
  refine ⟨shared, old, new, currentEq, targetEq, apart, ?_⟩
  rw [chooseFork, if_pos heavier, reorged]
  rcases switchBranch (connectNode prim) disconnectNode cs.utxoSet old.reverse new with
    ⟨result, utxoSet⟩
  rcases result with error | _ | error
  · rfl
  · rfl
  · simp only [erase_storeNode fresh]

/-- What the choice of a node leaves, whose parent is at the end of a line. -/
inductive Chosen (cs : Chainstate) (node : BlockIndexNode) (line : List BlockIndexNode) :
    Except PyException (Bool × String) → Chainstate → Prop
  | side (lighter : node.chainwork ≤ cs.bestTip.chainwork) :
      Chosen cs node line (.ok (true, "Accepted (Side Chain / Fork)"))
        { cs with blockIndex := storeNode cs.blockIndex node }
  | adopted (heavier : cs.bestTip.chainwork < node.chainwork) (utxoSet : UTXOSet)
      (pool : Mempool) :
      Chosen cs node line (.ok (true, "Accepted (New Best Tip)"))
        ⟨utxoSet, pool, storeNode cs.blockIndex node,
          (line ++ [node]).map BlockIndexNode.hash, node⟩
  | failed (error : PyException) (utxoSet : UTXOSet) :
      Chosen cs node line (.ok (false, "Chain reorganization failed: " ++ error.message))
        { cs with utxoSet }
  | raised (error : PyException) (utxoSet : UTXOSet) :
      Chosen cs node line (.error error)
        { cs with
          utxoSet
          blockIndex := storeNode cs.blockIndex node }

theorem exists_chosen (index : IndexTree prim offered cs.blockIndex)
    (active : ∃ line, Ancestry prim cs.blockIndex line cs.bestTip ∧
      cs.activeChain = line.map BlockIndexNode.hash) (hashNonzero : prim.HashNonzero)
    (admissible : Admissible prim cs.blockIndex block parent work)
    (made : node = childNode prim block parent work) (fresh : node.hash ∉ cs.blockIndex)
    {line : List BlockIndexNode} (above : Ancestry prim cs.blockIndex line parent) :
    ∃ outcome next, cs.chooseFork prim node = some (outcome, next) ∧
      Chosen cs node line outcome next := by
  rcases Nat.lt_or_ge cs.bestTip.chainwork node.chainwork with heavier | lighter
  · obtain ⟨current, tip, -⟩ := id active
    obtain ⟨shared, old, new, -, -, -, forked⟩ :=
      chooseFork_heavier index active hashNonzero admissible made fresh heavier tip above
    rw [forked]
    rcases switchBranch (connectNode prim) disconnectNode cs.utxoSet old.reverse new with
      ⟨switched, utxoSet⟩
    rcases switched with error | _ | error
    · exact ⟨_, _, rfl, .raised error utxoSet⟩
    · exact ⟨_, _, rfl, .adopted heavier utxoSet _⟩
    · exact ⟨_, _, rfl, .failed error utxoSet⟩
  · exact ⟨_, _, chooseFork_side lighter, .side lighter⟩

end Chainstate

theorem ancestry_rootNode {prim : Primitives} (hashNonzero : prim.HashNonzero) :
    Ancestry prim (genesisState prim).blockIndex [rootNode prim] (rootNode prim) :=
  .root (Finmap.lookup_insert _) (Finmap.lookup_insert_of_ne _ (hashNonzero _).symm) rfl

/-- Genesis is the only node at the start. -/
theorem lookup_genesisState {prim : Primitives} {hash : Bytes} {node : BlockIndexNode}
    (stored : (genesisState prim).blockIndex.lookup hash = some node) :
    hash = (rootNode prim).hash ∧ node = rootNode prim := by
  rcases lookup_storeNode_cases stored with found | stored
  · exact found
  · simp at stored

theorem IndexTree.genesis {prim : Primitives} {offered : Block → Prop} {cs : Chainstate}
    (built : Chainstate.initGenesis prim = .ok cs) :
    IndexTree prim offered cs.blockIndex := by
  obtain ⟨-, rfl⟩ := initGenesis_eq_ok.mp built
  refine ⟨Finmap.lookup_insert _, ?_, ?_⟩
  · intro hash node stored
    obtain ⟨rfl, rfl⟩ := lookup_genesisState stored
    rfl
  · intro hash node stored
    exact Or.inl (lookup_genesisState stored).2

namespace BlockTree

variable {prim : Primitives} {offered : Block → Prop} {cs next : Chainstate} {block : Block}
  {parent node : BlockIndexNode} {work : Nat}

theorem genesis (hashNonzero : prim.HashNonzero)
    (built : Chainstate.initGenesis prim = .ok cs) : BlockTree prim offered cs := by
  have index := @IndexTree.genesis prim offered cs built
  obtain ⟨-, rfl⟩ := initGenesis_eq_ok.mp built
  refine ⟨index, ⟨[rootNode prim], ancestry_rootNode hashNonzero, rfl⟩, ?_⟩
  intro hash node stored
  exact (lookup_genesisState stored).2 ▸ le_rfl

/-- A lighter node becomes a side branch. -/
theorem sideBranch (tree : BlockTree prim offered cs) (hashNonzero : prim.HashNonzero)
    (isOffered : offered block) (admissible : Admissible prim cs.blockIndex block parent work)
    (made : node = childNode prim block parent work) (fresh : node.hash ∉ cs.blockIndex)
    (lighter : node.chainwork ≤ cs.bestTip.chainwork) :
    BlockTree prim offered { cs with blockIndex := storeNode cs.blockIndex node } := by
  obtain ⟨line, tip, active⟩ := tree.active
  refine ⟨tree.index.storeNode isOffered admissible made fresh,
    ⟨line, tree.index.ancestry_storeNode hashNonzero made fresh tip, active⟩, ?_⟩
  intro hash found stored
  rcases lookup_storeNode_cases stored with ⟨-, rfl⟩ | stored
  · exact lighter
  · exact tree.heaviest hash found stored

/-- A heavier node becomes the tip. -/
theorem newTip (tree : BlockTree prim offered cs) (hashNonzero : prim.HashNonzero)
    (isOffered : offered block) (admissible : Admissible prim cs.blockIndex block parent work)
    (made : node = childNode prim block parent work) (fresh : node.hash ∉ cs.blockIndex)
    (heavier : cs.bestTip.chainwork < node.chainwork) {line : List BlockIndexNode}
    (above : Ancestry prim cs.blockIndex line parent) (utxoSet : UTXOSet) (pool : Mempool) :
    BlockTree prim offered
      ⟨utxoSet, pool, storeNode cs.blockIndex node, (line ++ [node]).map BlockIndexNode.hash,
        node⟩ := by
  refine ⟨tree.index.storeNode isOffered admissible made fresh,
    ⟨line ++ [node], tree.index.ancestry_child hashNonzero admissible made fresh above, rfl⟩,
    ?_⟩
  intro hash found stored
  rcases lookup_storeNode_cases stored with ⟨-, rfl⟩ | stored
  · exact le_rfl
  · exact (tree.heaviest hash found stored).trans heavier.le

/-- A call that returns keeps the tree, and moves the tip only to more work. -/
theorem processBlock (tree : BlockTree prim offered cs) (hashNonzero : prim.HashNonzero)
    (isOffered : offered block) {result : Bool × String}
    (returned : cs.processBlock prim block = some (.ok result, next)) :
    BlockTree prim offered next ∧
      (next.bestTip = cs.bestTip ∨ cs.bestTip.chainwork < next.bestTip.chainwork) := by
  rcases Chainstate.processBlock_cases prim cs block with
    ⟨outcome, unchanged, -, -⟩ | ⟨fresh, parent, work, admissible, processed⟩
  · rw [unchanged] at returned
    cases returned
    exact ⟨tree, Or.inl rfl⟩
  obtain ⟨line, above⟩ := tree.index.ancestry hashNonzero admissible.parent_stored
  obtain ⟨outcome, after, chosen, left⟩ :=
    Chainstate.exists_chosen tree.index tree.active hashNonzero admissible rfl fresh above
  rw [processed, chosen] at returned
  cases returned
  cases left with
  | side lighter =>
      exact ⟨tree.sideBranch hashNonzero isOffered admissible rfl fresh lighter, Or.inl rfl⟩
  | adopted heavier utxoSet pool =>
      exact ⟨tree.newTip hashNonzero isOffered admissible rfl fresh heavier above utxoSet pool,
        Or.inr heavier⟩
  | failed error utxoSet => exact ⟨⟨tree.index, tree.active, tree.heaviest⟩, Or.inl rfl⟩

theorem processBlock_ne_none (tree : BlockTree prim offered cs)
    (hashNonzero : prim.HashNonzero) (block : Block) :
    cs.processBlock prim block ≠ none := by
  rcases Chainstate.processBlock_cases prim cs block with
    ⟨outcome, unchanged, -, -⟩ | ⟨fresh, parent, work, admissible, processed⟩
  · simp [unchanged]
  obtain ⟨line, above⟩ := tree.index.ancestry hashNonzero admissible.parent_stored
  obtain ⟨outcome, next, chosen, -⟩ :=
    Chainstate.exists_chosen tree.index tree.active hashNonzero admissible rfl fresh above
  rw [processed, chosen]
  exact Option.some_ne_none (outcome, next)

end BlockTree

/-! ## The index along arbitrary runs -/

namespace Chainstate

/-- A reorganization never changes the index. -/
theorem reorgToNode_blockIndex {prim : Primitives} {cs next : Chainstate}
    {targetNode : BlockIndexNode} {outcome : Except PyException (Bool × String)}
    (reorged : cs.reorgToNode prim targetNode = some (outcome, next)) :
    next.blockIndex = cs.blockIndex := by
  rw [reorgToNode] at reorged
  split at reorged
  · cases reorged
  simp only at reorged
  split at reorged
  · cases reorged
  · cases reorged
    rfl
  split at reorged
  · cases reorged
    rfl
  · cases reorged
    rfl
  split at reorged
  · cases reorged
    rfl
  · cases reorged
    rfl

/-- Choosing a fork keeps the new node in the index or takes it out again. -/
theorem chooseFork_blockIndex {prim : Primitives} {cs next : Chainstate}
    {node : BlockIndexNode} {outcome : Except PyException (Bool × String)}
    (fresh : node.hash ∉ cs.blockIndex)
    (chosen : cs.chooseFork prim node = some (outcome, next)) :
    next.blockIndex = cs.blockIndex ∨ next.blockIndex = storeNode cs.blockIndex node := by
  rw [chooseFork] at chosen
  split at chosen
  · split at chosen
    · cases chosen
    · rename_i reorged
      cases chosen
      exact Or.inr (reorgToNode_blockIndex reorged)
    · rename_i reorged
      cases chosen
      left
      have kept := reorgToNode_blockIndex reorged
      simp only at kept
      simp only [kept, erase_storeNode fresh]
    · rename_i reorged
      cases chosen
      exact Or.inr (reorgToNode_blockIndex reorged)
  · cases chosen
    exact Or.inr rfl

/-- An accepted block was admissible, and its node is stored. -/
theorem stored_of_accepted {prim : Primitives} {cs next : Chainstate} {block : Block}
    {message : String}
    (accepted : cs.processBlock prim block = some (.ok (true, message), next)) :
    ∃ parent work, Admissible prim cs.blockIndex block parent work ∧
      next.blockIndex = storeNode cs.blockIndex (childNode prim block parent work) := by
  rcases processBlock_cases prim cs block with
    ⟨result, unchanged, refused | ⟨error, failed, -⟩, -⟩ |
      ⟨-, parent, work, admissible, processed⟩
  · obtain ⟨reason, rfl⟩ := refused
    rw [accepted] at unchanged
    cases unchanged
  · rw [accepted, failed] at unchanged
    cases unchanged
  · refine ⟨parent, work, admissible, ?_⟩
    rw [accepted, chooseFork] at processed
    split at processed
    · split at processed
      · cases processed
      · cases processed
      · cases processed
      · rename_i reorged
        cases processed
        exact reorgToNode_blockIndex reorged
    · cases processed
      rfl

end Chainstate

/-! ## Runs -/

/-- The chainstates reached from genesis by processing blocks, each admitted in
the state it is offered to, and by adding transactions to the memory pool. -/
inductive Reaches (prim : Primitives) (admits : Chainstate → Block → Prop) :
    Chainstate → Prop
  | genesis {cs : Chainstate} (built : Chainstate.initGenesis prim = .ok cs) :
      Reaches prim admits cs
  | block {cs next : Chainstate} {block : Block}
      {outcome : Except PyException (Bool × String)}
      (reached : Reaches prim admits cs) (admitted : admits cs block)
      (processed : cs.processBlock prim block = some (outcome, next)) :
      Reaches prim admits next
  | transaction {cs : Chainstate} (reached : Reaches prim admits cs) (tx : Transaction)
      (now : Nat) : Reaches prim admits (cs.addTransaction prim tx now).2

/-- The index is a tree in every state a run can reach, also behind calls that
raise an exception. -/
theorem Reaches.indexTree {prim : Primitives} {admits : Chainstate → Block → Prop}
    {offered : Block → Prop} (offers : ∀ cs block, admits cs block → offered block)
    {cs : Chainstate} (reached : Reaches prim admits cs) :
    IndexTree prim offered cs.blockIndex := by
  induction reached with
  | genesis built => exact IndexTree.genesis built
  | @block cs next block outcome _ admitted processed ih =>
      rcases Chainstate.processBlock_cases prim cs block with
        ⟨result, unchanged, -, -⟩ | ⟨fresh, parent, work, admissible, chosen⟩
      · rw [processed] at unchanged
        cases unchanged
        exact ih
      · rw [processed] at chosen
        rcases Chainstate.chooseFork_blockIndex fresh chosen.symm with kept | stored
        · rwa [kept]
        · rw [stored]
          exact ih.storeNode (offers cs block admitted) admissible rfl fresh
  | transaction _ tx now ih => exact ih

/-- The active chain is the path to the tip in every state a run can reach, also
behind calls that raise an exception. -/
theorem Reaches.active {prim : Primitives} (hashNonzero : prim.HashNonzero)
    {admits : Chainstate → Block → Prop} {cs : Chainstate} (reached : Reaches prim admits cs) :
    ∃ line, Ancestry prim cs.blockIndex line cs.bestTip ∧
      cs.activeChain = line.map BlockIndexNode.hash := by
  induction reached with
  | genesis built => exact (@BlockTree.genesis prim (fun _ => True) _ hashNonzero built).active
  | @block cs next block outcome reached _ processed ih =>
      have index : IndexTree prim (fun _ => True) cs.blockIndex :=
        reached.indexTree fun _ _ _ => trivial
      obtain ⟨current, tip, active⟩ := id ih
      rcases Chainstate.processBlock_cases prim cs block with
        ⟨result, unchanged, -, -⟩ | ⟨fresh, parent, work, admissible, chosen⟩
      · rw [processed] at unchanged
        cases unchanged
        exact ih
      have stored : Ancestry prim
          (storeNode cs.blockIndex (childNode prim block parent work)) current cs.bestTip :=
        index.ancestry_storeNode hashNonzero rfl fresh tip
      obtain ⟨line, above⟩ := index.ancestry hashNonzero admissible.parent_stored
      obtain ⟨result, after, forked, left⟩ :=
        Chainstate.exists_chosen index ih hashNonzero admissible rfl fresh above
      rw [processed, forked] at chosen
      cases chosen
      cases left with
      | side lighter => exact ⟨current, stored, active⟩
      | adopted heavier utxoSet pool =>
          exact ⟨_, index.ancestry_child hashNonzero admissible rfl fresh above, rfl⟩
      | failed error utxoSet => exact ih
      | raised error utxoSet => exact ⟨current, stored, active⟩
  | transaction _ tx now ih => exact ih

/-- The call for a block returns without an exception. -/
def ReturnsNormally (prim : Primitives) (cs : Chainstate) (block : Block) : Prop :=
  ∃ result next, cs.processBlock prim block = some (.ok result, next)

theorem Reaches.blockTree {prim : Primitives} (hashNonzero : prim.HashNonzero)
    {cs : Chainstate} (reached : Reaches prim (ReturnsNormally prim) cs) :
    BlockTree prim (fun _ => True) cs := by
  induction reached with
  | genesis built => exact BlockTree.genesis hashNonzero built
  | block _ returns processed ih =>
      obtain ⟨result, next, returned⟩ := returns
      rw [processed] at returned
      cases returned
      exact (ih.processBlock hashNonzero trivial processed).1
  | transaction _ tx now ih => exact ⟨ih.index, ih.active, ih.heaviest⟩

/-- The block tree after any run of calls that return: the tip has the most
work, it moves only to more work, every other node stands behind its parent,
the active chain is the tip's path from genesis by height, and the ancestor
walks of a reorganization end at a common ancestor. -/
theorem reaches_forkChoice (prim : Primitives) (hashNonzero : prim.HashNonzero)
    (cs : Chainstate) (reached : Reaches prim (ReturnsNormally prim) cs) :
    (∀ hash node, cs.blockIndex.lookup hash = some node →
      node.chainwork ≤ cs.bestTip.chainwork) ∧
    (∀ block result next, cs.processBlock prim block = some (.ok result, next) →
      next.bestTip = cs.bestTip ∨ cs.bestTip.chainwork < next.bestTip.chainwork) ∧
    (∀ hash node, cs.blockIndex.lookup hash = some node → node ≠ rootNode prim →
      ∃ parent work, cs.blockIndex.lookup node.prevHash = some parent ∧
        node.height = parent.height + 1 ∧
        getBlockWork node.header.bits.toNat node.header.powType = .ok work ∧
        node.chainwork = parent.chainwork + work) ∧
    (∃ path, Ancestry prim cs.blockIndex path cs.bestTip ∧
      cs.activeChain = path.map BlockIndexNode.hash ∧
      ∀ (height : Nat) (node : BlockIndexNode), path[height]? = some node →
        node.height = height) ∧
    (∀ block, cs.processBlock prim block ≠ none) ∧
    ∀ block parent work, block.hash prim ∉ cs.blockIndex →
      Admissible prim cs.blockIndex block parent work →
      ∃ currentBranch ancestor passed,
        Chainstate.branchTo (storeNode cs.blockIndex (childNode prim block parent work))
          cs.bestTip = some currentBranch ∧
        Chainstate.branchToFork
          (storeNode cs.blockIndex (childNode prim block parent work))
          (hashIndices currentBranch) (childNode prim block parent work) =
            some (some ancestor, passed) := by
  have tree := reached.blockTree hashNonzero
  obtain ⟨path, tip, active⟩ := tree.active
  refine ⟨tree.heaviest, ?_, ?_, ⟨path, tip, active, ?_⟩,
    tree.processBlock_ne_none hashNonzero, ?_⟩
  · intro block result next returned
    exact (tree.processBlock hashNonzero trivial returned).2
  · intro hash node stored notRoot
    rcases tree.index.origin hash node stored with
      isRoot | ⟨block, parent, work, -, admissible, rfl⟩
    · exact (notRoot isRoot).elim
    · exact ⟨parent, work, admissible.parent_stored, rfl, admissible.work_eq, rfl⟩
  · intro height node atHeight
    obtain ⟨within, rfl⟩ := List.getElem?_eq_some_iff.mp atHeight
    have split : path = path.take height ++ path[height] :: path.drop (height + 1) := by
      rw [List.getElem_cons_drop, List.take_append_drop]
    rw [split] at tip
    have ranked := tip.rank_member
    rw [ranked, List.length_take]
    omega
  · intro block parent work fresh admissible
    obtain ⟨parentLine, above⟩ := tree.index.ancestry hashNonzero admissible.parent_stored
    have goal := tree.index.ancestry_child hashNonzero admissible rfl fresh above
    have tip' : Ancestry prim
        (storeNode cs.blockIndex (childNode prim block parent work)) path cs.bestTip :=
      tree.index.ancestry_storeNode hashNonzero rfl fresh tip
    obtain ⟨shared, ancestor, old, new, -, -, walked, walkedFork, -⟩ :=
      @Chainstate.walks_eq prim
        { cs with blockIndex := storeNode cs.blockIndex (childNode prim block parent work) }
        path _ _ tip' goal
    exact ⟨path.reverse, ancestor, new.reverse, walked, walkedFork⟩

/-! ## Sample blocks -/

def sampleGenesisHeader : BlockHeader where
  version := 1
  prevBlock := zeroHash
  merkleRoot := leBytes 32
    0x3526817e09d5a065247d15a45a7aa5cf351479e011d32ecfd752e94acfae55ea
  timestamp := genesisTimestamp
  bits := genesisBits
  nonce := genesisNonce

/-- A block behind genesis, two minutes later and at an easy target. -/
def sampleBlock (merkleRoot : Nat) (nonce : UInt32) (transactions : List Transaction) :
    Block where
  header :=
    { version := 1
      prevBlock := genesisHash.reverse
      merkleRoot := leBytes 32 merkleRoot
      timestamp := genesisTimestamp + 120
      bits := 0x207fffff
      nonce := nonce }
  transactions := transactions

/-- Nothing but a coinbase. -/
def coinbaseBlock : Block :=
  sampleBlock 0xe9cdb353f83497c77c1a1121bfad607e111ba2886723f4ed4e946045a051753c 2
    [sampleCoinbase]

/-- The coinbase is passed on, then an input is missing. -/
def ownSpendBlock : Block :=
  sampleBlock 0x14d0889ef83a82a84cc7e2b10797c9ebd2fc2d837dde6f05dbe599c0b93b4497 0
    [sampleCoinbase, samplePassOn, sampleMissing]

/-- An input is missing. -/
def missingBlock : Block :=
  sampleBlock 0x52f27733961ef24fe4f772adf2711131f6aa64c967e08322cbb25f4990ac02a1 2
    [sampleCoinbase, sampleMissing]

/-- A coinbase of 10,000 coins. -/
def greedyCoinbase : Transaction :=
  ⟨1, [⟨zeroHash, 0xFFFFFFFF, [0x01, 0x01], 0xFFFFFFFF, []⟩],
    [⟨10000 * coin, [0x51], by decide⟩], 0⟩

/-- Spends the genesis coinbase without a signature. -/
def unsignedSpend : Transaction :=
  ⟨1, [⟨leBytes 32 0x3526817e09d5a065247d15a45a7aa5cf351479e011d32ecfd752e94acfae55ea, 0, [],
      0xFFFFFFFF, []⟩],
    [sampleOut], 0⟩

def greedyBlock : Block :=
  sampleBlock 0x2ed5ad13a3db905a022cdc1540a7543697a311408d0307f6d553ab55ca7af2e4 0
    [greedyCoinbase, unsignedSpend]

/-- The double SHA-256 digests of everything that is hashed when the sample
blocks are processed: transactions, Merkle nodes and headers. -/
def chainDigests : List (Bytes × Nat) :=
  [(genesisCoinbase.serialize false,
      0x3526817e09d5a065247d15a45a7aa5cf351479e011d32ecfd752e94acfae55ea),
    (greedyCoinbase.serialize false,
      0x558d2c900aae56aa2ab964410a9c111a0efd49bc23e646a0fa86053e913586ce),
    (unsignedSpend.serialize false,
      0x580ebff9bf0749c1809546291c950d4bf71e235709e2d572fcf34c00b2888676),
    (leBytes 32 0xe9cdb353f83497c77c1a1121bfad607e111ba2886723f4ed4e946045a051753c ++
      leBytes 32 0x31e7bc83abf8924529cbfb93dfab5121d1a33c04025554fb16b9b6db86d8a673,
      0x26a1a993ff0fefe8251579c07ec039f032a2e5e1b1727618c134cd20bbf3d895),
    (leBytes 32 0x624019f8d8d5c0c37dc0b56a6328af74f0bb4d8c4817af111862e969e72010c4 ++
      leBytes 32 0x624019f8d8d5c0c37dc0b56a6328af74f0bb4d8c4817af111862e969e72010c4,
      0x66995f94943769f9b494c3d0db47d1ea3648d2555c15864e4ab3870aa8845ec9),
    (leBytes 32 0x26a1a993ff0fefe8251579c07ec039f032a2e5e1b1727618c134cd20bbf3d895 ++
      leBytes 32 0x66995f94943769f9b494c3d0db47d1ea3648d2555c15864e4ab3870aa8845ec9,
      0x14d0889ef83a82a84cc7e2b10797c9ebd2fc2d837dde6f05dbe599c0b93b4497),
    (leBytes 32 0xe9cdb353f83497c77c1a1121bfad607e111ba2886723f4ed4e946045a051753c ++
      leBytes 32 0x624019f8d8d5c0c37dc0b56a6328af74f0bb4d8c4817af111862e969e72010c4,
      0x52f27733961ef24fe4f772adf2711131f6aa64c967e08322cbb25f4990ac02a1),
    (leBytes 32 0x558d2c900aae56aa2ab964410a9c111a0efd49bc23e646a0fa86053e913586ce ++
      leBytes 32 0x580ebff9bf0749c1809546291c950d4bf71e235709e2d572fcf34c00b2888676,
      0x2ed5ad13a3db905a022cdc1540a7543697a311408d0307f6d553ab55ca7af2e4),
    (sampleGenesisHeader.serialize,
      0x000004eb1e117df3168d6d27118982e0a23c236120183e8390a6bbb82ee6fde3),
    (coinbaseBlock.header.serialize,
      0x11b9c5b4bacf4c290256c87e7db83c687134c105e54d8287bc369e4e8d4b6e65),
    (ownSpendBlock.header.serialize,
      0x34f739ea5f3389562b030c34365776121d87d0b966562b91fe92507de242f5b5),
    (missingBlock.header.serialize,
      0x61142fc1b156e920891440447a55485cc2f81b48fb46c0b9dc549a27cd4fab9c),
    (greedyBlock.header.serialize,
      0x0b6f84ebdb2a9325cae5d95e0d2376c13ca8d767f3d142359a45a822699243fb)]

def chainPrimitives : Primitives := .ofDigests (chainDigests ++ sampleTxids)

theorem chainPrimitives_hashNonzero : chainPrimitives.HashNonzero := by
  intro header
  exact Primitives.ofDigests_hash256_ne_zeroHash (by decide) _

theorem chainPrimitives_initGenesis :
    Chainstate.initGenesis chainPrimitives = .ok (genesisState chainPrimitives) :=
  initGenesis_eq_ok.mpr ⟨by decide +kernel, rfl⟩

/-- The chainstate after the call for a block. -/
def Chainstate.afterBlock (prim : Primitives) (cs : Chainstate) (block : Block) :
    Chainstate :=
  ((cs.processBlock prim block).map Prod.snd).getD cs

/-- The call for a block returns whether it is accepted. -/
def Answers (prim : Primitives) (cs : Chainstate) (block : Block) (accepted : Bool) : Prop :=
  (cs.processBlock prim block).map (fun outcome => outcome.1.toOption.map Prod.fst) =
    some (some accepted)

instance (prim : Primitives) (cs : Chainstate) (block : Block) (accepted : Bool) :
    Decidable (Answers prim cs block accepted) :=
  inferInstanceAs (Decidable (_ = _))

theorem Answers.processBlock_eq {prim : Primitives} {cs : Chainstate} {block : Block}
    {accepted : Bool} (answers : Answers prim cs block accepted) :
    ∃ message, cs.processBlock prim block =
      some (.ok (accepted, message), cs.afterBlock prim block) := by
  rcases processed : cs.processBlock prim block with _ | ⟨outcome, next⟩
  · simp [Answers, processed] at answers
  · cases outcome with
    | error error => simp [Answers, processed, Except.toOption] at answers
    | ok result =>
        obtain ⟨answer, message⟩ := result
        have same : answer = accepted := by
          simpa [Answers, processed, Except.toOption] using answers
        exact ⟨message, by simp [Chainstate.afterBlock, processed, same]⟩

theorem coinbaseBlock_answers :
    Answers chainPrimitives (genesisState chainPrimitives) coinbaseBlock true := by
  decide +kernel

theorem greedyBlock_answers :
    Answers chainPrimitives (genesisState chainPrimitives) greedyBlock true := by
  decide +kernel

/-- Two rivals behind genesis: the second one is stored on a side branch, and no node is
heavier than the tip. -/
theorem rivals_forkChoice :
    let first := (genesisState chainPrimitives).afterBlock chainPrimitives coinbaseBlock
    let cs := first.afterBlock chainPrimitives missingBlock
    cs.bestTip.hash = coinbaseBlock.hash chainPrimitives ∧
      missingBlock.hash chainPrimitives ∈ cs.blockIndex ∧
      missingBlock.hash chainPrimitives ∉ cs.activeChain ∧
      ∀ hash node, cs.blockIndex.lookup hash = some node →
        node.chainwork ≤ cs.bestTip.chainwork := by
  have sideAnswers : Answers chainPrimitives
      ((genesisState chainPrimitives).afterBlock chainPrimitives coinbaseBlock) missingBlock
      true := by
    decide +kernel
  obtain ⟨message, returned⟩ := coinbaseBlock_answers.processBlock_eq
  obtain ⟨sideMessage, sideReturned⟩ := sideAnswers.processBlock_eq
  refine ⟨by decide +kernel, by decide +kernel, by decide +kernel, ?_⟩
  exact (reaches_forkChoice chainPrimitives chainPrimitives_hashNonzero _
    (.block (.block (.genesis chainPrimitives_initGenesis) ⟨_, _, returned⟩ returned)
      ⟨_, _, sideReturned⟩ sideReturned)).1

end QuantyCoin
