import QuantyCoin.HeaderRuleRefinement

/-!
# The difficulty of the next block

`get_next_work_required` reads the headers of the active chain back from the
block index and applies the difficulty rule to them.  `process_block` computes
the work of a block before it stores it, so all stored headers have valid bits,
and the active chain only ever names stored blocks.
-/

namespace QuantyCoin

open AncestorWalk BranchSwitch

namespace Chainstate

/-- The headers of `self.active_chain`. -/
def activeHeaders (cs : Chainstate) : Except PyException (List BlockHeader) :=
  cs.activeChain.mapM fun blockHash =>
    match cs.blockIndex.lookup blockHash with
    | none => .error (.keyError (bytesRepr blockHash))
    | some node => .ok node.header

/-- `get_next_work_required`. -/
def getNextWorkRequired (cs : Chainstate) (powType : Int) : Except PyException Nat := do
  let headers ← cs.activeHeaders
  calculateNextWorkRequiredDualOf headers powType laneTargetSpacing difficultyRetargetInterval

end Chainstate

/-! ## The difficulty rule on valid bits -/

/-- Bits that fit their field and stand for a target above zero and within the
limit. -/
structure SoundBits (bits : Nat) (target : Nat) : Prop where
  small : bits < 2 ^ 32
  decoded : bitsToTarget bits = .ok target
  positive : 0 < target
  within : target ≤ powLimitTarget

theorem lt_of_decoded {bits target : Nat} (decoded : bitsToTarget bits = .ok target) :
    bits < 2 ^ 32 := by
  rw [bitsToTarget] at decoded
  split at decoded
  · cases decoded
  · omega

theorem soundBits_powLimitBits : SoundBits powLimitBits powLimitTarget :=
  ⟨by decide, by decide, by decide, le_rfl⟩

/-- Whatever the rule computes, the clamp at its end makes sound bits of it. -/
theorem exists_soundBits_clampAndEncode (nextTarget : Int) :
    ∃ target, SoundBits (clampAndEncode nextTarget) target := by
  obtain ⟨clamped, clampedPos, clampedEq, -, decoded⟩ :=
    bitsToTarget_targetToBits (clampedTarget_pos nextTarget)
  have below := truncateTarget_le clamped
  have bounded := min_le_right (if nextTarget > powLimitTarget ∨ nextTarget ≤ 0 then
    (powLimitTarget : Int) else nextTarget) powLimitTarget
  exact ⟨truncateTarget clamped, lt_of_decoded decoded, decoded, truncateTarget_pos clampedPos,
    by omega⟩

/-- On headers with valid bits the rule does not raise, for any spacing and
window above zero. -/
theorem exists_soundBits_dual {headers : List BlockHeader} {spacing n : Nat}
    (spacingPos : 1 ≤ spacing) (windowPos : 1 ≤ n)
    (valid : ∀ header ∈ headers, HasTarget header) (powType : Int) :
    ∃ bits target, calculateNextWorkRequiredDualOf headers powType spacing n = .ok bits ∧
      SoundBits bits target := by
  rw [calculateNextWorkRequiredDualOf]
  split_ifs with short
  · exact ⟨_, _, rfl, soundBits_powLimitBits⟩
  · have ofLane : ∀ header ∈ laneHistory powType headers, HasTarget header :=
      fun header member => valid header (List.mem_of_mem_filter member)
    obtain ⟨target, sound⟩ := exists_soundBits_clampAndEncode
      (exactNextTarget spacing n (laneHistory powType headers) : Nat)
    rw [calculateNextWorkRequiredLwma_eq spacingPos windowPos (Nat.not_lt.mp short) ofLane]
    exact ⟨_, target, rfl, sound⟩

/-! ## What the node stores -/

/-- The nodes a walk passes are its start and stored nodes. -/
theorem walk_passed_stored {index : BlockIndex} {stop : BlockIndexNode → Bool} {fuel : Nat}
    {node : BlockIndexNode} {last : Option BlockIndexNode} {passed : List BlockIndexNode}
    (walked : walk index BlockIndexNode.prevHash stop fuel node = some (last, passed)) :
    ∀ member ∈ passed, member = node ∨ ∃ hash, index.lookup hash = some member := by
  refine walk_induction ?_ ?_ ?_ walked
  · simp
  · simp
  · intro fuel node next last rest found _ restStored member memberOf
    rcases List.mem_cons.mp memberOf with rfl | later
    · exact Or.inl rfl
    · rcases restStored member later with rfl | stored
      · exact Or.inr ⟨_, found⟩
      · exact Or.inr stored

/-- The active chain names stored blocks. -/
def ActiveStored (cs : Chainstate) : Prop :=
  ∀ blockHash ∈ cs.activeChain, blockHash ∈ cs.blockIndex

/-- A reorganization that does not leave the active chain as it is puts stored
nodes on it, and does not report a failure. -/
theorem Chainstate.reorgToNode_active {prim : Primitives} {offered : Block → Prop}
    {cs next : Chainstate} {target : BlockIndexNode}
    {outcome : Except PyException (Bool × String)}
    (tree : IndexTree prim offered cs.blockIndex) (targetStored : target.hash ∈ cs.blockIndex)
    (stored : ActiveStored cs)
    (reorged : cs.reorgToNode prim target = some (outcome, next)) :
    next.activeChain = cs.activeChain ∨
      (∀ message, outcome ≠ .ok (false, message)) ∧ ActiveStored next := by
  have index := reorgToNode_blockIndex reorged
  rw [reorgToNode] at reorged
  split at reorged
  · cases reorged
  simp only at reorged
  split at reorged
  · cases reorged
  · cases reorged
    exact Or.inl rfl
  rename_i currentBranch _ _ ancestor passed walked
  have passedStored : ∀ member ∈ passed, member.hash ∈ cs.blockIndex := by
    intro member memberOf
    rcases walk_passed_stored walked member memberOf with rfl | ⟨hash, found⟩
    · exact targetStored
    · rw [tree.hash_eq hash member found]
      exact Finmap.mem_of_lookup_eq_some found
  have newStored : ∀ blockHash ∈ cs.activeChain.take (ancestor.height + 1) ++
      passed.reverse.map BlockIndexNode.hash, blockHash ∈ cs.blockIndex := by
    intro blockHash member
    rcases List.mem_append.mp member with old | new
    · exact stored blockHash (List.mem_of_mem_take old)
    · obtain ⟨node, isPassed, rfl⟩ := List.mem_map.mp new
      exact passedStored node (List.mem_reverse.mp isPassed)
  split at reorged
  · cases reorged
    exact Or.inl rfl
  · cases reorged
    exact Or.inl rfl
  split at reorged
  · cases reorged
    exact Or.inr ⟨by simp, newStored⟩
  · cases reorged
    exact Or.inr ⟨by simp, newStored⟩

/-- Choosing a fork keeps the active chain stored, also where it fails or
raises. -/
theorem Chainstate.chooseFork_activeStored {prim : Primitives} {offered : Block → Prop}
    {cs next : Chainstate} {node : BlockIndexNode}
    {outcome : Except PyException (Bool × String)}
    (tree : IndexTree prim offered (storeNode cs.blockIndex node))
    (fresh : node.hash ∉ cs.blockIndex) (stored : ActiveStored cs)
    (chosen : cs.chooseFork prim node = some (outcome, next)) : ActiveStored next := by
  have indexedStored : ∀ blockHash ∈ cs.activeChain,
      blockHash ∈ storeNode cs.blockIndex node := by
    intro blockHash member
    exact Finmap.mem_insert.mpr (Or.inr (stored blockHash member))
  have nodeStored : node.hash ∈ storeNode cs.blockIndex node :=
    Finmap.mem_insert.mpr (Or.inl rfl)
  rw [chooseFork] at chosen
  split at chosen
  · split at chosen
    · cases chosen
    all_goals
      rename_i reorged
      have index := reorgToNode_blockIndex reorged
      have active := @reorgToNode_active prim offered { cs with blockIndex := _ } _ _ _ tree
        nodeStored indexedStored reorged
      cases chosen
    · rcases active with kept | ⟨-, moved⟩
      · rw [ActiveStored, kept, index]
        exact indexedStored
      · exact moved
    · rcases active with kept | ⟨failed, -⟩
      · rw [ActiveStored, kept, index, erase_storeNode fresh]
        exact stored
      · exact absurd rfl (failed _)
    · rcases active with kept | ⟨-, moved⟩
      · rw [ActiveStored, kept, index]
        exact indexedStored
      · exact moved
  · cases chosen
    exact indexedStored

/-- The active chain names stored blocks in every state a run can reach. -/
theorem Reaches.activeStored {prim : Primitives} {admits : Chainstate → Block → Prop}
    {cs : Chainstate} (reached : Reaches prim admits cs) : ActiveStored cs := by
  induction reached with
  | genesis built =>
      obtain ⟨-, rfl⟩ := initGenesis_eq_ok.mp built
      intro blockHash member
      rw [List.mem_singleton.mp member]
      exact Finmap.mem_insert.mpr (Or.inl rfl)
  | @block cs next block outcome reached _ processed ih =>
      rcases Chainstate.processBlock_cases prim cs block with
        ⟨result, unchanged, -, -⟩ | ⟨fresh, parent, work, admissible, chosen⟩
      · rw [processed] at unchanged
        cases unchanged
        exact ih
      · rw [processed] at chosen
        have tree : IndexTree prim (fun _ => True) cs.blockIndex :=
          reached.indexTree fun _ _ _ => trivial
        exact Chainstate.chooseFork_activeStored (tree.storeNode trivial admissible rfl fresh)
          fresh ih chosen.symm
  | transaction _ tx now ih => exact ih

/-! ## The next difficulty -/

/-- Reading the active chain back finds stored headers. -/
theorem Chainstate.activeHeaders_eq_ok {cs : Chainstate} (stored : ActiveStored cs) :
    ∃ headers, cs.activeHeaders = .ok headers ∧
      ∀ header ∈ headers, ∃ hash node, cs.blockIndex.lookup hash = some node ∧
        node.header = header := by
  rw [activeHeaders]
  rw [ActiveStored] at stored
  generalize cs.activeChain = chain at stored
  induction chain with
  | nil => exact ⟨[], rfl, by simp⟩
  | cons blockHash chain ih =>
      obtain ⟨headers, read, found⟩ := ih fun other member => stored other (by simp [member])
      obtain ⟨node, isStored⟩ := Finmap.mem_iff.mp (stored blockHash (by simp))
      refine ⟨node.header :: headers, ?_, ?_⟩
      · rw [List.mapM_cons, read, isStored]
        rfl
      · intro header member
        rcases List.mem_cons.mp member with rfl | later
        · exact ⟨blockHash, node, isStored, rfl⟩
        · exact found header later

/-- The node can always compute the next difficulty of any lane, and what it
computes is sound. -/
theorem nextWorkRequired_sound (prim : Primitives) (cs : Chainstate)
    (reached : Reaches prim (fun _ _ => True) cs) (powType : Int) :
    ∃ bits target, cs.getNextWorkRequired powType = .ok bits ∧ bits < 2 ^ 32 ∧
      bitsToTarget bits = .ok target ∧ 0 < target ∧ target ≤ powLimitTarget := by
  obtain ⟨headers, read, found⟩ := Chainstate.activeHeaders_eq_ok reached.activeStored
  have tree : IndexTree prim (fun _ => True) cs.blockIndex :=
    reached.indexTree fun _ _ _ => trivial
  have valid : ∀ header ∈ headers, HasTarget header := by
    intro header member
    obtain ⟨hash, node, stored, rfl⟩ := found header member
    exact tree.hasTarget stored
  obtain ⟨bits, target, required, sound⟩ := exists_soundBits_dual
    (by decide : 1 ≤ laneTargetSpacing) (by decide : 1 ≤ difficultyRetargetInterval) valid powType
  refine ⟨bits, target, ?_, sound.small, sound.decoded, sound.positive, sound.within⟩
  rw [Chainstate.getNextWorkRequired, read]
  exact required

/-- Reading back a chain along its nodes gives their headers. -/
theorem Chainstate.activeHeaders_of_line {prim : Primitives} {cs : Chainstate}
    {line : List BlockIndexNode} {node : BlockIndexNode}
    (lineage : Ancestry prim cs.blockIndex line node)
    (active : cs.activeChain = line.map BlockIndexNode.hash) :
    cs.activeHeaders = .ok (line.map BlockIndexNode.header) := by
  have stored : ∀ ancestor ∈ line, cs.blockIndex.lookup ancestor.hash = some ancestor := by
    intro ancestor member
    obtain ⟨before, after, rfl⟩ := List.append_of_mem member
    exact lineage.of_member.node_stored
  rw [activeHeaders, active]
  clear lineage active
  induction line with
  | nil => rfl
  | cons first line ih =>
      have rest := ih fun ancestor member => stored ancestor (List.mem_cons_of_mem _ member)
      rw [List.map_cons, List.mapM_cons, rest, stored first List.mem_cons_self]
      rfl

/-- Behind 256 blocks the window of Lane A is full. -/
theorem longChain_nextWorkRequired : ∃ cs,
    Reaches longChainPrimitives (fun _ _ => True) cs ∧
      cs.activeHeaders = .ok longChainHeaders ∧
      difficultyRetargetInterval < (laneHistory 0 longChainHeaders).length ∧
      ∃ bits target, cs.getNextWorkRequired 0 = .ok bits ∧
        bits < 2 ^ 32 ∧ bitsToTarget bits = .ok target ∧ 0 < target ∧ target ≤ powLimitTarget := by
  obtain ⟨cs, reached, grown, -⟩ :=
    @longChain_grown (fun _ _ => True) fun _ _ _ _ _ _ _ => trivial
  obtain ⟨line, tip, active⟩ := reached.active longChainPrimitives_hashNonzero
  obtain ⟨longer, above, headers⟩ :=
    grown.headers _ (ancestry_rootNode longChainPrimitives_hashNonzero)
  obtain rfl := above.unique tip
  have read := Chainstate.activeHeaders_of_line tip active
  rw [show longer.map BlockIndexNode.header = longChainHeaders from headers] at read
  exact ⟨cs, reached, read, by decide +kernel, nextWorkRequired_sound longChainPrimitives cs
    reached 0⟩

end QuantyCoin
