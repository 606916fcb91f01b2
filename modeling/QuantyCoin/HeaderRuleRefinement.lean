import QuantyCoin.ChainGrowth
import QuantyCoin.LaneIsolation
import QuantyCoin.MedianTimePast

/-!
# Acceptance by the node and the documented header rules

The documented rules on a header are proof of work on a known lane, a timestamp
behind the median of the last eleven ancestors and exactly the bits that
retargeting over the ancestors of the lane asks for.  `process_block` verifies
the hash against whatever target the header names, and compares the timestamp
with that of the parent only.

What is left to ask of an accepted block is a known lane, a timestamp that more
than half of the last ancestors are below, and as bits the compact form of the
quotient that the window of its lane gives, within the limit.  Stored headers
have valid bits, so that retargeting does not raise.  The bits it asks for decode
to a positive target, and then the hash check of `process_block` is the one of
`CheckPoW`.
-/

namespace QuantyCoin

open AncestorWalk BranchSwitch ByteDecoder OrderStatistics

/-! ## Retargeting -/

/-- The clamp at the end of retargeting leaves a positive target. -/
theorem clampedTarget_pos (nextTarget : Int) :
    0 < if nextTarget > powLimitTarget ∨ nextTarget ≤ 0 then (powLimitTarget : Int)
      else nextTarget := by
  split_ifs with outside
  · decide
  · omega

/-- The result of retargeting decodes to a positive target. -/
theorem calculateNextWorkRequiredLwma_decodes {headers : List BlockHeader}
    {targetSpacing : Int} {n bits : Nat}
    (required : calculateNextWorkRequiredLwma headers targetSpacing n = .ok bits) :
    ∃ target, bitsToTarget bits = .ok target ∧ 0 < target := by
  have limit : ∃ target, bitsToTarget powLimitBits = .ok target ∧ 0 < target :=
    ⟨powLimitTarget, by decide, by decide⟩
  rw [calculateNextWorkRequiredLwma] at required
  split at required
  · cases required
    exact limit
  split at required
  · cases required
    exact limit
  split at required
  · cases required
  split at required
  · cases required
  simp only at required
  split at required
  · cases required
  cases required
  exact bitsToTarget_targetToBits_pos (clampedTarget_pos _)

theorem calculateNextWorkRequiredDual_decodes {headers : List BlockHeader}
    {powType bits : Nat} (required : calculateNextWorkRequiredDual headers powType = .ok bits) :
    ∃ target, bitsToTarget bits = .ok target ∧ 0 < target := by
  rw [calculateNextWorkRequiredDual] at required
  split at required
  · cases required
    exact ⟨powLimitTarget, by decide, by decide⟩
  · exact calculateNextWorkRequiredLwma_decodes required

/-! ## The required bits -/

/-- The quotient only depends on the window. -/
theorem exactNextTarget_window {headers recent : List BlockHeader} {first : BlockHeader}
    {spacing n : Nat} (isWindow : LwmaWindow n first recent)
    (window : headers.drop (headers.length - (n + 1)) = first :: recent)
    (inner : headers.drop (headers.length - n) = recent) :
    exactNextTarget spacing n headers = exactNextTarget spacing n (first :: recent) := by
  rw [exactNextTarget, exactNextTarget, isWindow.averageTarget_eq, isWindow.windowSolvetimes_eq,
    averageTarget, windowSolvetimes, window, inner]

/-- On headers with valid bits the rule encodes the quotient of the window. -/
theorem calculateNextWorkRequiredLwma_eq {headers : List BlockHeader} {spacing n : Nat}
    (spacingPos : 1 ≤ spacing) (windowPos : 1 ≤ n) (enough : n + 1 ≤ headers.length)
    (valid : ∀ header ∈ headers, HasTarget header) :
    calculateNextWorkRequiredLwma headers spacing n =
      .ok (clampAndEncode (exactNextTarget spacing n headers : Nat)) := by
  obtain ⟨first, recent, window, inner, length, ofHeaders⟩ := exists_window enough
  have isWindow : LwmaWindow n first recent :=
    ⟨length, fun header member => valid header (ofHeaders header member)⟩
  have expectedPos := expectedTime_pos spacingPos windowPos
  have whole : (first :: recent).length = n + 1 := by rw [List.length_cons, length]
  have last : calculateNextWorkRequiredLwma headers spacing n =
      calculateNextWorkRequiredLwma (first :: recent) spacing n := by
    rw [calculateNextWorkRequiredLwma, calculateNextWorkRequiredLwma, whole, window,
      Nat.sub_self, List.drop_zero, if_neg (by omega), if_neg (by omega)]
  rw [last, calculateNextWorkRequiredLwma_window length, isWindow.unclampedNextTarget_eq,
    if_neg expectedPos.ne', exactNextTarget_window isWindow window inner]
  rfl

/-- The target behind the headers of a lane: the quotient of its window, and the limit
where the quotient is above it or zero, or the window is not full yet. -/
def laneTarget (lane : List BlockHeader) : Nat :=
  let quotient := exactNextTarget laneTargetSpacing difficultyRetargetInterval lane
  if lane.length ≤ difficultyRetargetInterval ∨ quotient = 0 then powLimitTarget
  else min powLimitTarget quotient

theorem targetToBits_natCast {target : Nat} (positive : 0 < target)
    (within : target ≤ powLimitTarget) : targetToBits target = compactForm target := by
  rw [targetToBits_eq_within, targetToBitsWithin_eq positive within]

theorem clampAndEncode_natCast (quotient : Nat) :
    clampAndEncode quotient =
      compactForm (if quotient = 0 then powLimitTarget else min powLimitTarget quotient) := by
  have limitPos : 0 < powLimitTarget := by decide
  have limit := targetToBits_natCast limitPos le_rfl
  rw [clampAndEncode]
  by_cases zero : quotient = 0
  · rw [if_pos (by omega), if_pos zero, limit]
  · by_cases above : powLimitTarget < quotient
    · rw [if_pos (by omega), if_neg zero, Nat.min_eq_left above.le, limit]
    · rw [if_neg (by omega), if_neg zero, Nat.min_eq_right (Nat.not_lt.mp above),
        targetToBits_natCast (by omega) (Nat.not_lt.mp above)]

/-- Behind headers with valid bits the required bits are the compact form of the target of
the lane. -/
theorem calculateNextWorkRequiredDual_eq_compactForm {headers : List BlockHeader}
    (valid : ∀ header ∈ headers, HasTarget header) (powType : Nat) :
    calculateNextWorkRequiredDual headers powType =
      .ok (compactForm (laneTarget (laneHistory powType headers))) := by
  have ofLane : ∀ header ∈ laneHistory powType headers, HasTarget header :=
    fun header member => valid header (List.mem_of_mem_filter member)
  have limitForm : powLimitBits = compactForm powLimitTarget := by decide
  rw [calculateNextWorkRequiredDual_eq, calculateNextWorkRequiredDualOf, laneTarget]
  by_cases short : (laneHistory powType headers).length ≤ difficultyRetargetInterval
  · rw [if_pos (Nat.lt_succ_of_le short), if_pos (Or.inl short), limitForm]
  · rw [if_neg (by omega), calculateNextWorkRequiredLwma_eq (by decide) (by decide) (by omega)
      ofLane, clampAndEncode_natCast]
    simp only [short, false_or]

/-! ## Proof of work -/

theorem getTarget_eq {header : BlockHeader} {target : Nat}
    (decoded : bitsToTarget header.bits.toNat = .ok target) : header.getTarget = target := by
  rw [bitsToTarget] at decoded
  simp only [Int.toNat_natCast] at decoded
  rw [BlockHeader.getTarget]
  split at decoded
  · cases decoded
  split at decoded
  · cases decoded
  split at decoded
  · rename_i short
    rw [if_pos short]
    exact Except.ok.inj decoded
  · rename_i long
    rw [if_neg long]
    exact Except.ok.inj decoded

/-- The lanes `CheckPoW` knows. -/
def KnownLane (header : BlockHeader) : Prop :=
  header.powType = powTypeSha256d ∨ header.powType = powTypeGeneralPurpose

theorem checkPoW_eq_true {prim : Primitives} {header : BlockHeader} :
    (checkPoW prim header).1 = true ↔
      KnownLane header ∧ ∃ target, bitsToTarget header.bits.toNat = .ok target ∧
        0 < target ∧ leValue (header.powHash prim) ≤ target := by
  rw [checkPoW]
  by_cases known : KnownLane header
  · have accepted : ¬ (header.powType ≠ powTypeSha256d ∧
        header.powType ≠ powTypeGeneralPurpose) := by
      rwa [← not_or, not_not]
    rw [if_neg accepted]
    cases decoded : bitsToTarget header.bits.toNat with
    | error error => simp
    | ok target =>
        by_cases zero : target ≤ 0
        · simp [Nat.le_zero.mp zero]
        · by_cases above : leValue (header.powHash prim) > target
          · simp [zero, above]
          · simp [zero, above, known, Nat.pos_of_ne_zero (by simpa using zero),
              Nat.not_lt.mp above]
  · have refused : header.powType ≠ powTypeSha256d ∧
        header.powType ≠ powTypeGeneralPurpose := not_or.mp known
    rw [if_pos refused]
    simp [known]

/-! ## Stored headers -/

theorem hasTarget_of_work {header : BlockHeader} {powType work : Nat}
    (worked : getBlockWork header.bits.toNat powType = .ok work) : HasTarget header := by
  rw [getBlockWork] at worked
  cases decoded : bitsToTarget header.bits.toNat with
  | error error => simp [decoded] at worked
  | ok target => exact ⟨target, decoded⟩

/-- Every stored header has valid bits. -/
theorem IndexTree.hasTarget {prim : Primitives} {offered : Block → Prop} {index : BlockIndex}
    (tree : IndexTree prim offered index) {hash : Bytes} {node : BlockIndexNode}
    (stored : index.lookup hash = some node) : HasTarget node.header := by
  rcases tree.origin hash node stored with rfl | ⟨block, parent, work, -, admissible, rfl⟩
  · have decoded : bitsToTarget (genesisBits.toNat : Nat) = .ok powLimitTarget := by decide
    exact ⟨powLimitTarget, decoded⟩
  · exact hasTarget_of_work admissible.work_eq

/-- The headers on the way to a stored block have valid bits. -/
theorem IndexTree.hasTarget_of_ancestry {prim : Primitives} {offered : Block → Prop}
    {index : BlockIndex} (tree : IndexTree prim offered index) {line : List BlockIndexNode}
    {node : BlockIndexNode} (above : Ancestry prim index line node) :
    ∀ header ∈ line.map BlockIndexNode.header, HasTarget header := by
  intro header member
  obtain ⟨ancestor, isAncestor, rfl⟩ := List.mem_map.mp member
  obtain ⟨before, after, rfl⟩ := List.append_of_mem isAncestor
  exact tree.hasTarget above.of_member.node_stored

/-! ## The rules -/

/-- The documented rules on a header, given the headers of its ancestors from
genesis on. -/
structure FollowsHeaderRules (prim : Primitives) (ancestors : List BlockHeader)
    (header : BlockHeader) : Prop where
  pow : (checkPoW prim header).1 = true
  timestamp : calculateMedianTimePast ancestors mtpWindow < header.timestamp.toNat
  bits : calculateNextWorkRequiredDual ancestors header.powType = .ok header.bits.toNat

/-- What a header has to name besides a target that its hash meets: a known lane, a
timestamp that more than half of the last ancestors are below, and the target of the lane. -/
structure NamesRules (ancestors : List BlockHeader) (header : BlockHeader) : Prop where
  lane : KnownLane header
  timestamp : (lastWindow mtpWindow ancestors).length / 2 <
    (lastWindow mtpWindow ancestors).countP fun ancestor =>
      ancestor.timestamp.toNat < header.timestamp.toNat
  bits : header.bits.toNat = compactForm (laneTarget (laneHistory header.powType ancestors))

/-- A time is behind the median exactly if more than half of the window is below it. -/
theorem calculateMedianTimePast_lt_iff {ancestors : List BlockHeader} (nonempty : ancestors ≠ [])
    {window : Nat} (windowPos : 0 < window) (time : Nat) :
    calculateMedianTimePast ancestors window < time ↔
      (lastWindow window ancestors).length / 2 <
        (lastWindow window ancestors).countP fun ancestor => ancestor.timestamp.toNat < time := by
  have times : lastWindow window (ancestors.map fun header => header.timestamp.toNat) =
      (lastWindow window ancestors).map fun header => header.timestamp.toNat := by
    rw [lastWindow, lastWindow, List.length_map, List.map_drop]
  have windowNonempty : (lastWindow window ancestors).map (fun header =>
      header.timestamp.toNat) ≠ [] :=
    mt List.map_eq_nil_iff.mp (lastWindow_ne_nil nonempty windowPos)
  rw [calculateMedianTimePast_eq, rollingMedian, times, ← not_le,
    le_upperMedian_iff windowNonempty, not_le, List.length_map, List.countP_map]
  rfl

/-- With verified work the rules come down to what the header names. -/
theorem followsHeaderRules_iff {prim : Primitives} {ancestors : List BlockHeader}
    {header : BlockHeader} (nonempty : ancestors ≠ [])
    (valid : ∀ ancestor ∈ ancestors, HasTarget ancestor)
    (verified : header.verifyPow prim = true) :
    FollowsHeaderRules prim ancestors header ↔ NamesRules ancestors header := by
  have late := calculateMedianTimePast_lt_iff nonempty (by decide : 0 < mtpWindow)
    header.timestamp.toNat
  have required := calculateNextWorkRequiredDual_eq_compactForm valid header.powType
  constructor
  · rintro ⟨pow, timestamp, bits⟩
    rw [required] at bits
    exact ⟨(checkPoW_eq_true.mp pow).1, late.mp timestamp, (Except.ok.inj bits).symm⟩
  · rintro ⟨known, timestamp, bits⟩
    rw [← bits] at required
    obtain ⟨target, decoded, positive⟩ := calculateNextWorkRequiredDual_decodes required
    have hashed : leValue (header.powHash prim) ≤ target := by
      rw [BlockHeader.verifyPow, decide_eq_true_eq, getTarget_eq decoded] at verified
      exact verified
    exact ⟨checkPoW_eq_true.mpr ⟨known, target, decoded, positive, hashed⟩, late.mpr timestamp,
      required⟩

/-! ## Acceptance -/

/-- A block that any reachable node accepts follows the documented header rules
of its own ancestors exactly if its lane is known, more than half of the last
ancestors are earlier and its bits are the compact form of the target that the
ancestors on its lane lead to. -/
theorem processBlock_followsHeaderRules_iff (prim : Primitives)
    (hashNonzero : prim.HashNonzero) (cs : Chainstate)
    (reached : Reaches prim (fun _ _ => True) cs) (block : Block) (message : String)
    (next : Chainstate)
    (accepted : cs.processBlock prim block = some (.ok (true, message), next)) :
    ∃ parent line, cs.blockIndex.lookup block.header.prevBlock = some parent ∧
      Ancestry prim cs.blockIndex line parent ∧
      (FollowsHeaderRules prim (line.map BlockIndexNode.header) block.header ↔
        NamesRules (line.map BlockIndexNode.header) block.header) := by
  obtain ⟨parent, work, admissible, -⟩ := Chainstate.stored_of_accepted accepted
  have tree : IndexTree prim (fun _ => True) cs.blockIndex :=
    reached.indexTree fun _ _ _ => trivial
  obtain ⟨line, above⟩ := tree.ancestry hashNonzero admissible.parent_stored
  have nonempty : line.map BlockIndexNode.header ≠ [] :=
    mt List.map_eq_nil_iff.mp (List.ne_nil_of_mem above.root_mem)
  exact ⟨parent, line, admissible.parent_stored, above,
    followsHeaderRules_iff nonempty (tree.hasTarget_of_ancestry above) admissible.structured.pow⟩

/-- The first sample block is accepted with bits far above the limit. -/
theorem coinbaseBlock_breaks_headerRules :
    let cs := genesisState chainPrimitives
    Reaches chainPrimitives (fun _ _ => True) cs ∧
      Answers chainPrimitives cs coinbaseBlock true ∧
      cs.blockIndex.lookup coinbaseBlock.header.prevBlock = some (rootNode chainPrimitives) ∧
      Ancestry chainPrimitives cs.blockIndex [rootNode chainPrimitives]
        (rootNode chainPrimitives) ∧
      ¬ FollowsHeaderRules chainPrimitives [(rootNode chainPrimitives).header]
        coinbaseBlock.header := by
  refine ⟨.genesis chainPrimitives_initGenesis, coinbaseBlock_answers, by decide +kernel,
    ancestry_rootNode chainPrimitives_hashNonzero, ?_⟩
  rintro ⟨-, -, bits⟩
  exact absurd bits (by decide +kernel)

/-- The headers that the spend of the matured output is behind. -/
def longChainHeaders : List BlockHeader :=
  genesisHeader longChainPrimitives :: minedHeaders genesisDigest longChain

theorem spendingBlock_namesRules : NamesRules longChainHeaders spendingBlock.header := by
  refine ⟨Or.inl (by decide), ?_, ?_⟩
  · decide +kernel
  · decide +kernel

/-- Behind 256 blocks a block is accepted that follows the rules. -/
theorem spendingBlock_followsHeaderRules : ∃ cs message next parent line,
    Reaches longChainPrimitives (fun _ _ => True) cs ∧
      cs.processBlock longChainPrimitives spendingBlock = some (.ok (true, message), next) ∧
      cs.blockIndex.lookup spendingBlock.header.prevBlock = some parent ∧
      Ancestry longChainPrimitives cs.blockIndex line parent ∧
      line.map BlockIndexNode.header = longChainHeaders ∧
      FollowsHeaderRules longChainPrimitives (line.map BlockIndexNode.header)
        spendingBlock.header := by
  obtain ⟨cs, reached, grown, funded⟩ :=
    @longChain_grown (fun _ _ => True) fun _ _ _ _ _ _ _ => trivial
  obtain ⟨admissible, message, next, processed, -⟩ := spendingBlock_accepted reached grown funded
  obtain ⟨parent, line, stored, above, follows⟩ := processBlock_followsHeaderRules_iff
    longChainPrimitives longChainPrimitives_hashNonzero cs reached spendingBlock message next
    processed
  rw [admissible.parent_stored] at stored
  cases stored
  obtain ⟨longer, tip, headers⟩ :=
    grown.headers _ (ancestry_rootNode longChainPrimitives_hashNonzero)
  obtain rfl := above.unique tip
  have same : line.map BlockIndexNode.header = longChainHeaders := headers
  refine ⟨cs, message, next, cs.bestTip, line, reached, processed, admissible.parent_stored, above,
    same, follows.mpr ?_⟩
  rw [same]
  exact spendingBlock_namesRules

end QuantyCoin
