import Mathlib.Order.Bounds.Basic
import QuantyCoin.ChainReplay

/-!
# Convergence of nodes

`ValidBranch` says, without reference to any node, which blocks of a given set
can stand in a chain from genesis.  A node that has received the whole set,
parents first, ends at a branch of greatest work: every branch it replays is
valid, and every valid branch whose blocks were delivered is stored, whatever
the order of delivery.
-/

namespace QuantyCoin

open AncestorWalk BranchSwitch

/-! ## Valid branches of a set of blocks -/

/-- The end of a chain from genesis, with the unspent outputs of its replay. -/
structure BranchTip where
  hash : Bytes
  height : Nat
  chainwork : Nat
  timestamp : UInt32
  utxoSet : UTXOSet
  chain : List Bytes

def genesisTip (prim : Primitives) : BranchTip where
  hash := (rootNode prim).hash
  height := 0
  chainwork := genesisWork
  timestamp := genesisTimestamp
  utxoSet := (genesisState prim).utxoSet
  chain := [(rootNode prim).hash]

/-- Chains from genesis through blocks of the list that pass the structural
checks, the check against the timestamp of the parent and the application to
the unspent outputs. -/
inductive ValidBranch (prim : Primitives) (blocks : List Block) : BranchTip → Prop
  | genesis : ValidBranch prim blocks (genesisTip prim)
  | extend {tip : BranchTip} {block : Block} {work : Nat} {undo : BlockUndo}
      {utxoSet : UTXOSet} (above : ValidBranch prim blocks tip) (member : block ∈ blocks)
      (notGenesis : block.hash prim ≠ (rootNode prim).hash)
      (linked : block.header.prevBlock = tip.hash)
      (valid : (block.validateStructure prim).1 = true)
      (timely : (tip.timestamp.toNat : Int) - 7200 < block.header.timestamp.toNat)
      (work_eq : getBlockWork block.header.bits.toNat block.header.powType = .ok work)
      (applied : tip.utxoSet.applyBlock prim (block.hash prim) (tip.height + 1)
        block.transactions = (.ok undo, utxoSet)) :
      ValidBranch prim blocks
        { hash := block.hash prim
          height := tip.height + 1
          chainwork := tip.chainwork + work
          timestamp := block.header.timestamp
          utxoSet := utxoSet
          chain := tip.chain ++ [block.hash prim] }

/-- A set of decoded blocks with distinct hashes and accepted bits, none of
which spends its own outputs or creates an outpoint that is unspent behind its
ancestors. -/
structure CleanSet (prim : Primitives) (blocks : List Block) : Prop where
  decoded : ∀ block ∈ blocks, ∃ data used, Block.deserialize data = .ok (block, used)
  distinct : (blocks.map (Block.hash prim)).Nodup
  bits_accepted : ∀ block ∈ blocks, ∃ target,
    bitsToTarget block.header.bits.toNat = .ok target
  not_spent : ∀ block ∈ blocks, ∀ outpoint ∈ createdOutpoints prim block.transactions,
    outpoint ∉ spentOutpoints block.transactions
  absent : ∀ tip, ValidBranch prim blocks tip → ∀ block ∈ blocks,
    block.header.prevBlock = tip.hash →
    ∀ outpoint ∈ createdOutpoints prim block.transactions, outpoint ∉ tip.utxoSet.utxos

/-- Genesis and the blocks of a list, by their hashes. -/
def Received (prim : Primitives) (done : List Block) (hash : Bytes) : Prop :=
  hash = (rootNode prim).hash ∨ ∃ block ∈ done, block.hash prim = hash

theorem received_append_singleton {prim : Primitives} {done : List Block} {block : Block}
    {hash : Bytes} :
    Received prim (done ++ [block]) hash ↔ Received prim done hash ∨ block.hash prim = hash := by
  simp [Received, or_and_right, exists_or, or_assoc]

section Branches

variable {prim : Primitives} {blocks : List Block}

theorem CleanSet.block_unique (clean : CleanSet prim blocks) {block other : Block}
    (member : block ∈ blocks) (otherMember : other ∈ blocks)
    (same : block.hash prim = other.hash prim) : block = other :=
  List.inj_on_of_nodup_map clean.distinct member otherMember same

/-- A block ends at most one valid branch. -/
theorem ValidBranch.unique (clean : CleanSet prim blocks) {tip other : BranchTip}
    (branch : ValidBranch prim blocks tip) (otherBranch : ValidBranch prim blocks other)
    (same : tip.hash = other.hash) : tip = other := by
  induction branch generalizing other with
  | genesis =>
      cases otherBranch with
      | genesis => rfl
      | extend _ _ notGenesis => exact (notGenesis same.symm).elim
  | @extend tip block work undo utxoSet above member notGenesis linked _ _ worked applied ih =>
      cases otherBranch with
      | genesis => exact (notGenesis same).elim
      | @extend tip' block' work' undo' utxoSet' above' member' _ linked' _ _ worked' applied' =>
          obtain rfl := clean.block_unique member member' same
          obtain rfl := ih above' (linked.symm.trans linked')
          rw [worked] at worked'
          cases worked'
          rw [applied] at applied'
          cases applied'
          rfl

theorem ValidBranch.received {tip : BranchTip} (branch : ValidBranch prim blocks tip) :
    Received prim blocks tip.hash := by
  cases branch with
  | genesis => exact Or.inl rfl
  | extend above member => exact Or.inr ⟨_, member, rfl⟩

/-! ## Stored paths and valid branches -/

/-- The branch that a stored path stands for. -/
def branchTip (line : List BlockIndexNode) (node : BlockIndexNode) (utxoSet : UTXOSet) :
    BranchTip where
  hash := node.hash
  height := node.height
  chainwork := node.chainwork
  timestamp := node.header.timestamp
  utxoSet := utxoSet
  chain := line.map BlockIndexNode.hash

/-- Connecting the node of a decoded and structurally valid block applies the
transactions of that block. -/
theorem connectNode_childNode {block : Block}
    (decoded : ∃ data used, Block.deserialize data = .ok (block, used))
    (structured : block.Structured prim) {parent : BlockIndexNode} {work : Nat}
    {set next : UTXOSet} :
    connectNode prim set (childNode prim block parent work) = (.ok (), next) ↔
      ∃ undo, set.applyBlock prim (block.hash prim) (parent.height + 1)
        block.transactions = (.ok undo, next) := by
  obtain ⟨data, used, decoded⟩ := decoded
  have readBack : Block.deserialize (childNode prim block parent work).rawBlock =
      .ok (block, block.serialize.length) := deserialize_decoded decoded structured
  rw [connectNode_eq_ok]
  constructor
  · rintro ⟨read, used', undo, readAgain, applied⟩
    rw [readBack] at readAgain
    cases readAgain
    exact ⟨undo, applied⟩
  · rintro ⟨undo, applied⟩
    exact ⟨block, _, undo, readBack, applied⟩

/-- A stored path that can be replayed is a valid branch. -/
theorem validBranch_of_replay (clean : CleanSet prim blocks) {index : BlockIndex}
    (tree : IndexTree prim (· ∈ blocks) index) {line : List BlockIndexNode}
    {node : BlockIndexNode} (lineage : Ancestry prim index line node) {utxoSet : UTXOSet}
    (replayed : replay prim line = (.ok (), utxoSet)) :
    ValidBranch prim blocks (branchTip line node utxoSet) := by
  induction lineage generalizing utxoSet with
  | root =>
      rw [replay_genesis] at replayed
      cases replayed
      exact .genesis
  | @child line last node above stored linked ranked ih =>
      obtain ⟨base, replayedAbove, connected⟩ := runAll_append_ok.mp replayed
      rw [runAll_singleton] at connected
      have notRoot : node.hash ≠ (rootNode prim).hash := by
        intro same
        rw [same, tree.root_stored] at stored
        cases stored
        cases ranked
      rcases tree.origin _ _ stored with rfl | ⟨block, parent, work, member, made, rfl⟩
      · exact (notRoot rfl).elim
      have sameParent : parent = last := by
        have found := made.parent_stored
        change index.lookup (childNode prim block parent work).prevHash = some parent at found
        rw [linked, above.node_stored] at found
        exact (Option.some.inj found).symm
      subst sameParent
      obtain ⟨undo, applied⟩ :=
        (connectNode_childNode (clean.decoded block member) made.structured).mp connected
      have extended := (ih replayedAbove).extend member notRoot linked
        (Block.validateStructure_eq_true.mpr made.structured) made.timely made.work_eq applied
      simpa [branchTip, childNode, BlockIndexNode.new, Block.hash] using extended

/-- Blocks of a clean set are recoverable wherever they are offered. -/
theorem CleanSet.recovers (clean : CleanSet prim blocks) {cs : Chainstate}
    (tree : IndexTree prim (· ∈ blocks) cs.blockIndex) {block : Block}
    (member : block ∈ blocks) : Recovers prim cs block := by
  intro parent work line admissible above base read used replayed readBack
  obtain ⟨data, used', decoded⟩ := clean.decoded block member
  rw [childNode_rawBlock, deserialize_decoded decoded admissible.structured] at readBack
  cases readBack
  have branch := validBranch_of_replay clean tree above replayed
  have linked := tree.hash_eq _ _ admissible.parent_stored
  apply Clean.recoverable
  exact ⟨clean.not_spent block member, clean.absent _ branch block member linked.symm⟩

/-! ## Delivery -/

/-- Offer blocks to a node one after another. -/
def deliver (prim : Primitives) : Chainstate → List Block → Option Chainstate
  | cs, [] => some cs
  | cs, block :: rest =>
      match cs.processBlock prim block with
      | none => none
      | some (_, next) => deliver prim next rest

/-- A block comes after its parent whenever the parent is in the list. -/
def ParentFirst (prim : Primitives) (order : List Block) : Prop :=
  ∀ before block after, order = before ++ block :: after →
    ∀ parent ∈ order, parent.hash prim = block.header.prevBlock → parent ∈ before

/-- The state of a node that has received the blocks `done`: whatever it stores
was received, and it stores every valid branch that ends in what it received. -/
structure Delivered (prim : Primitives) (blocks done : List Block) (cs : Chainstate) :
    Prop where
  chain : ReplayedChain prim (· ∈ blocks) cs
  received : ∀ hash node, cs.blockIndex.lookup hash = some node → Received prim done hash
  complete : ∀ tip, ValidBranch prim blocks tip → Received prim done tip.hash →
    ∃ line node, Ancestry prim cs.blockIndex line node ∧
      replay prim line = (.ok (), tip.utxoSet) ∧ branchTip line node tip.utxoSet = tip

theorem Delivered.genesis (hashNonzero : prim.HashNonzero) {cs : Chainstate}
    (built : Chainstate.initGenesis prim = .ok cs) : Delivered prim blocks [] cs := by
  have chain : ReplayedChain prim (· ∈ blocks) cs := ReplayedChain.genesis hashNonzero built
  obtain ⟨-, rfl⟩ := initGenesis_eq_ok.mp built
  refine ⟨chain, ?_, ?_⟩
  · intro hash node stored
    rcases lookup_storeNode_cases stored with ⟨rfl, -⟩ | stored
    · exact Or.inl rfl
    · simp at stored
  · rintro tip branch (root | ⟨block, member, -⟩)
    · cases branch with
      | genesis =>
          exact ⟨[rootNode prim], rootNode prim, ancestry_rootNode hashNonzero,
            replay_genesis prim, rfl⟩
      | extend _ _ notGenesis => exact (notGenesis root).elim
    · cases member

/-- A block of the set that comes next: it is new, and its parent was received
if it is in the set. -/
structure Arriving (prim : Primitives) (blocks done : List Block) (block : Block) : Prop where
  within : ∀ other ∈ done, other ∈ blocks
  member : block ∈ blocks
  new : block ∉ done
  parents_done : ∀ parent ∈ blocks, parent.hash prim = block.header.prevBlock →
    parent ∈ done

/-- A block that ends a valid branch passes all checks when it arrives, and its
path can be replayed. -/
theorem Delivered.arrives {done : List Block} {cs : Chainstate}
    (delivered : Delivered prim blocks done cs) (clean : CleanSet prim blocks)
    {block : Block} (arriving : Arriving prim blocks done block)
    {tip : BranchTip} (branch : ValidBranch prim blocks tip)
    (notGenesis : tip.hash ≠ (rootNode prim).hash) (ends : block.hash prim = tip.hash) :
    block.hash prim ∉ cs.blockIndex ∧
      ∃ parent work line, Admissible prim cs.blockIndex block parent work ∧
        Ancestry prim cs.blockIndex line parent ∧
        replay prim (line ++ [childNode prim block parent work]) = (.ok (), tip.utxoSet) ∧
        branchTip (line ++ [childNode prim block parent work])
          (childNode prim block parent work) tip.utxoSet = tip := by
  cases branch with
  | genesis => exact (notGenesis rfl).elim
  | @extend above other work undo utxoSet aboveBranch otherMember _ linked valid timely worked
      applied =>
      obtain rfl := clean.block_unique arriving.member otherMember ends
      constructor
      · intro stored
        obtain ⟨node, found⟩ := Finmap.mem_iff.mp stored
        rcases delivered.received _ _ found with root | ⟨twin, twinDone, sameHash⟩
        · exact notGenesis root
        · have same := clean.block_unique arriving.member (arriving.within twin twinDone)
            sameHash.symm
          exact arriving.new (same ▸ twinDone)
      · -- The parent ends a valid branch itself and was delivered before.
        have aboveDone : Received prim done above.hash := by
          rcases aboveBranch.received with root | ⟨parent, parentMember, parentHash⟩
          · exact Or.inl root
          · have parentDone := arriving.parents_done parent parentMember
              (parentHash.trans linked.symm)
            exact Or.inr ⟨parent, parentDone, parentHash⟩
        obtain ⟨line, parent, lineage, replayed, same⟩ :=
          delivered.complete above aboveBranch aboveDone
        have structured := Block.validateStructure_eq_true.mp valid
        rw [← same] at linked timely applied
        have admissible : Admissible prim cs.blockIndex block parent work :=
          ⟨structured, by rw [linked]; exact lineage.node_stored, timely, worked⟩
        refine ⟨parent, work, line, admissible, lineage, ?_, ?_⟩
        · rw [replay, runAll_append replayed, runAll_singleton]
          exact (connectNode_childNode (clean.decoded block arriving.member) structured).mpr
            ⟨undo, applied⟩
        · rw [← same]
          simp [branchTip, childNode, BlockIndexNode.new, Block.hash]

/-- Storing the node of an arriving block keeps the delivered branches and adds
the one that ends in the block. -/
theorem Delivered.complete_storeNode {done : List Block} {cs : Chainstate}
    (delivered : Delivered prim blocks done cs) (clean : CleanSet prim blocks)
    (hashNonzero : prim.HashNonzero) {block : Block}
    (arriving : Arriving prim blocks done block) {parent node : BlockIndexNode} {work : Nat}
    (fresh : node.hash ∉ cs.blockIndex)
    (admissible : Admissible prim cs.blockIndex block parent work)
    (made : node = childNode prim block parent work) {tip : BranchTip}
    (branch : ValidBranch prim blocks tip)
    (ends : Received prim (done ++ [block]) tip.hash) :
    ∃ line last, Ancestry prim (storeNode cs.blockIndex node) line last ∧
      replay prim line = (.ok (), tip.utxoSet) ∧ branchTip line last tip.utxoSet = tip := by
  have tree := delivered.chain.tree.index
  by_cases earlier : Received prim done tip.hash
  · obtain ⟨line, last, lineage, replayed, same⟩ := delivered.complete tip branch earlier
    exact ⟨line, last, tree.ancestry_storeNode hashNonzero made fresh lineage, replayed, same⟩
  · have endsHere := (received_append_singleton.mp ends).resolve_left earlier
    have notGenesis : tip.hash ≠ (rootNode prim).hash := fun root => earlier (Or.inl root)
    obtain ⟨-, parent', work', line, admissible', above, replayed, same⟩ :=
      delivered.arrives clean arriving branch notGenesis endsHere
    obtain ⟨rfl, rfl⟩ := admissible'.unique admissible
    subst made
    exact ⟨_, _, tree.ancestry_child hashNonzero admissible rfl fresh above, replayed, same⟩

theorem Delivered.received_storeNode {done : List Block} {cs : Chainstate}
    (delivered : Delivered prim blocks done cs) {block : Block} {node found : BlockIndexNode}
    (named : node.hash = block.hash prim) {hash : Bytes}
    (stored : (storeNode cs.blockIndex node).lookup hash = some found) :
    Received prim (done ++ [block]) hash := by
  rw [received_append_singleton]
  rcases lookup_storeNode_cases stored with ⟨rfl, -⟩ | stored
  · exact Or.inr named.symm
  · exact Or.inl (delivered.received hash found stored)

/-- A block that ends no valid branch need not be stored. -/
theorem Delivered.skip {done : List Block} {cs : Chainstate}
    (delivered : Delivered prim blocks done cs) {block : Block}
    (endsNone : ∀ tip, ValidBranch prim blocks tip → tip.hash ≠ (rootNode prim).hash →
      block.hash prim ≠ tip.hash) :
    Delivered prim blocks (done ++ [block]) cs := by
  refine ⟨delivered.chain, ?_, ?_⟩
  · intro hash node stored
    exact received_append_singleton.mpr (Or.inl (delivered.received hash node stored))
  · intro tip branch ends
    apply delivered.complete tip branch
    rcases received_append_singleton.mp ends with earlier | endsHere
    · exact earlier
    · by_contra notReceived
      exact endsNone tip branch (fun root => notReceived (Or.inl root)) endsHere

/-- One more block arrives. -/
theorem Delivered.step {done : List Block} {cs : Chainstate}
    (delivered : Delivered prim blocks done cs) (clean : CleanSet prim blocks)
    (hashNonzero : prim.HashNonzero) {block : Block}
    (arriving : Arriving prim blocks done block) :
    ∃ outcome next, cs.processBlock prim block = some (outcome, next) ∧
      Delivered prim blocks (done ++ [block]) next := by
  have recovers := clean.recovers delivered.chain.tree.index arriving.member
  obtain ⟨outcome, next, processed, step⟩ :=
    delivered.chain.processed hashNonzero recovers
  refine ⟨outcome, next, processed, ?_⟩
  have chain := delivered.chain.step hashNonzero arriving.member recovers step
  cases step with
  | refused reason barred =>
      apply delivered.skip
      intro tip branch notGenesis ends
      obtain ⟨fresh, parent, work, line, admissible, -⟩ :=
        delivered.arrives clean arriving branch notGenesis ends
      rcases barred with known | never
      · exact fresh known
      · exact never parent work admissible
  | @pruned parent node work line message fresh admissible made heavier above failed =>
      apply delivered.skip
      intro tip branch notGenesis ends
      obtain ⟨-, parent', work', line', admissible', above', replayed, -⟩ :=
        delivered.arrives clean arriving branch notGenesis ends
      obtain ⟨rfl, rfl⟩ := admissible'.unique admissible
      subst made
      rw [above'.unique above] at replayed
      obtain ⟨error, failed⟩ := failed
      rw [replayed] at failed
      cases failed
  | @side parent node work fresh admissible made lighter =>
      exact ⟨chain, fun _ _ => delivered.received_storeNode (by rw [made]; rfl),
        fun _ => delivered.complete_storeNode clean hashNonzero arriving fresh admissible made⟩
  | @adopted parent node work line utxoSet pool fresh admissible made heavier above replayed =>
      exact ⟨chain, fun _ _ => delivered.received_storeNode (by rw [made]; rfl),
        fun _ => delivered.complete_storeNode clean hashNonzero arriving fresh admissible made⟩

/-- Delivering a list, parents first, ends in a delivered state. -/
theorem Delivered.deliver {order : List Block} (clean : CleanSet prim blocks)
    (hashNonzero : prim.HashNonzero) (perm : order.Perm blocks)
    (parentFirst : ParentFirst prim order) {done rest : List Block} {cs : Chainstate}
    (split : order = done ++ rest) (delivered : Delivered prim blocks done cs) :
    ∃ last, deliver prim cs rest = some last ∧ Delivered prim blocks order last := by
  induction rest generalizing done cs with
  | nil =>
      rw [List.append_nil] at split
      exact ⟨cs, rfl, split ▸ delivered⟩
  | cons block rest ih =>
      have within : ∀ other ∈ done, other ∈ blocks := by
        intro other member
        exact perm.subset (split ▸ List.mem_append_left _ member)
      have member : block ∈ blocks := perm.subset (split ▸ by simp)
      have new : block ∉ done := by
        have distinct : (order.map (Block.hash prim)).Nodup :=
          (perm.map _).nodup_iff.mpr clean.distinct
        have nodup := distinct.of_map
        rw [split, List.nodup_append] at nodup
        intro isDone
        exact nodup.2.2 block isDone block (by simp) rfl
      have parentsDone : ∀ parent ∈ blocks, parent.hash prim = block.header.prevBlock →
          parent ∈ done := by
        intro parent parentMember isParent
        exact parentFirst done block rest split parent (perm.symm.subset parentMember) isParent
      obtain ⟨outcome, next, processed, deliveredNext⟩ :=
        delivered.step clean hashNonzero ⟨within, member, new, parentsDone⟩
      obtain ⟨last, deliveredRest, complete⟩ := ih (by simp [split]) deliveredNext
      exact ⟨last, by rw [QuantyCoin.deliver, processed]; exact deliveredRest, complete⟩

/-- The active chain of a node is a valid branch. -/
theorem Delivered.validBranch_bestTip {done : List Block} {cs : Chainstate}
    (delivered : Delivered prim blocks done cs) (clean : CleanSet prim blocks) :
    ∃ tip, ValidBranch prim blocks tip ∧ tip.chainwork = cs.bestTip.chainwork ∧
      tip.chain = cs.activeChain ∧ tip.utxoSet = cs.utxoSet := by
  obtain ⟨line, lineage, active⟩ := delivered.chain.tree.active
  have branch := validBranch_of_replay clean delivered.chain.tree.index lineage
    (delivered.chain.replayed line lineage)
  exact ⟨_, branch, rfl, active.symm, rfl⟩

/-- A node that has received the whole set has the work of a heaviest valid
branch. -/
theorem Delivered.isGreatest {order : List Block} {cs : Chainstate}
    (delivered : Delivered prim blocks order cs) (clean : CleanSet prim blocks)
    (perm : order.Perm blocks) :
    IsGreatest {work | ∃ tip, ValidBranch prim blocks tip ∧ tip.chainwork = work}
      cs.bestTip.chainwork := by
  constructor
  · obtain ⟨tip, branch, work, -⟩ := delivered.validBranch_bestTip clean
    exact ⟨tip, branch, work⟩
  · rintro work ⟨tip, branch, rfl⟩
    have ends : Received prim order tip.hash := by
      rcases branch.received with root | ⟨block, member, ends⟩
      · exact Or.inl root
      · exact Or.inr ⟨block, perm.symm.subset member, ends⟩
    obtain ⟨line, node, lineage, -, same⟩ := delivered.complete tip branch ends
    rw [← same]
    exact delivered.chain.tree.heaviest _ _ lineage.node_stored

end Branches

/-- Two nodes that receive the same set of blocks, each in an order that puts
parents first, end with the greatest work of a valid branch; if a single block
attains it, they end with the same active chain and the same unspent outputs. -/
theorem deliver_converges (prim : Primitives) (hashNonzero : prim.HashNonzero)
    (blocks : List Block) (clean : CleanSet prim blocks) (start : Chainstate)
    (built : Chainstate.initGenesis prim = .ok start) (order order' : List Block)
    (perm : order.Perm blocks) (perm' : order'.Perm blocks)
    (parentFirst : ParentFirst prim order) (parentFirst' : ParentFirst prim order') :
    ∃ cs cs', deliver prim start order = some cs ∧ deliver prim start order' = some cs' ∧
      cs.bestTip.chainwork = cs'.bestTip.chainwork ∧
      IsGreatest {work | ∃ tip, ValidBranch prim blocks tip ∧ tip.chainwork = work}
        cs.bestTip.chainwork ∧
      ((∀ tip tip', ValidBranch prim blocks tip → ValidBranch prim blocks tip' →
          tip.chainwork = cs.bestTip.chainwork → tip'.chainwork = cs.bestTip.chainwork →
          tip.hash = tip'.hash) →
        cs.activeChain = cs'.activeChain ∧ cs.utxoSet = cs'.utxoSet) := by
  have genesis : Delivered prim blocks [] start := Delivered.genesis hashNonzero built
  obtain ⟨cs, run, delivered⟩ := genesis.deliver clean hashNonzero perm parentFirst rfl
  obtain ⟨cs', run', delivered'⟩ := genesis.deliver clean hashNonzero perm' parentFirst' rfl
  have greatest := delivered.isGreatest clean perm
  have sameWork := greatest.unique (delivered'.isGreatest clean perm')
  refine ⟨cs, cs', run, run', sameWork, greatest, ?_⟩
  intro single
  obtain ⟨tip, branch, work, chain, utxoSet⟩ := delivered.validBranch_bestTip clean
  obtain ⟨tip', branch', work', chain', utxoSet'⟩ := delivered'.validBranch_bestTip clean
  have sameTip : tip = tip' :=
    branch.unique clean branch' (single tip tip' branch branch' work (work'.trans sameWork.symm))
  exact ⟨by rw [← chain, ← chain', sameTip], by rw [← utxoSet, ← utxoSet', sameTip]⟩

/-! ## Two rivals -/

/-- Neither sample block is the parent of the other. -/
theorem rivals_parentless : ∀ block ∈ [coinbaseBlock, missingBlock],
    ∀ parent ∈ [coinbaseBlock, missingBlock],
      parent.hash chainPrimitives ≠ block.header.prevBlock := by
  decide

theorem rivals_cleanSet : CleanSet chainPrimitives [coinbaseBlock, missingBlock] := by
  have absentAtGenesis : ∀ block ∈ [coinbaseBlock, missingBlock],
      ∀ outpoint ∈ createdOutpoints chainPrimitives block.transactions,
        outpoint ∉ (genesisTip chainPrimitives).utxoSet.utxos := by
    decide +kernel
  refine ⟨?_, by decide +kernel, ?_, by decide +kernel, ?_⟩
  · rw [List.forall_mem_cons, List.forall_mem_singleton]
    exact ⟨coinbaseBlock_cleanOffer.decoded, missingBlock_cleanOffer.decoded⟩
  · rw [List.forall_mem_cons, List.forall_mem_singleton]
    exact ⟨coinbaseBlock_cleanOffer.bits_accepted, missingBlock_cleanOffer.bits_accepted⟩
  · intro tip branch block member linked
    cases branch with
    | genesis => exact absentAtGenesis block member
    | extend above otherMember =>
        exact (rivals_parentless block member _ otherMember linked.symm).elim

theorem rivals_parentFirst {order : List Block}
    (perm : order.Perm [coinbaseBlock, missingBlock]) : ParentFirst chainPrimitives order := by
  intro before block after split parent member isParent
  exact (rivals_parentless block (perm.subset (split ▸ by simp)) parent (perm.subset member)
    isParent).elim

/-- The invalid rival is stored as a side branch in one order and rejected in
the other; both nodes end with the same work. -/
theorem rivals_converge :
    ∃ cs cs',
      deliver chainPrimitives (genesisState chainPrimitives)
        [coinbaseBlock, missingBlock] = some cs ∧
      deliver chainPrimitives (genesisState chainPrimitives)
        [missingBlock, coinbaseBlock] = some cs' ∧
      cs.bestTip.chainwork = cs'.bestTip.chainwork := by
  have swapped : [missingBlock, coinbaseBlock].Perm [coinbaseBlock, missingBlock] :=
    List.Perm.swap _ _ _
  obtain ⟨cs, cs', run, run', sameWork, -⟩ :=
    deliver_converges chainPrimitives chainPrimitives_hashNonzero
      [coinbaseBlock, missingBlock] rivals_cleanSet (genesisState chainPrimitives)
      chainPrimitives_initGenesis _ _ (List.Perm.refl _) swapped
      (rivals_parentFirst (List.Perm.refl _)) (rivals_parentFirst swapped)
  exact ⟨cs, cs', run, run', sameWork⟩

end QuantyCoin
