import QuantyCoin.P2mrTree
import QuantyCoin.TreeListings

/-!
# Which depths describe a P2MR tree

`P2MRBuilder::Add`, `P2MRBuilder::Insert` and `P2MRBuilder::ValidDepths` of
`script/signingprovider.cpp` with their assertions.  The builder keeps the path
to the last leaf and collapses it when a node is finished; `ValidDepths` does the
same on Booleans.  Both accept the listings of full binary trees and nothing
else, and the root of the builder is the hash of the listed tree.
-/

namespace QuantyCoin

open TreeStack

/-- The arguments of a call of `P2MRBuilder::Add`. -/
structure AddCall where
  depth : Int
  script : Bytes
  leafVersion : UInt8
  track : Bool

/-- The depth is in the range that `Insert` asserts, the version as `Add` asserts. -/
structure AddCall.Proper (call : AddCall) : Prop where
  depth_nonneg : 0 ≤ call.depth
  depth_le : call.depth ≤ p2mrControlMaxNodeCount
  even : call.leafVersion &&& ~~~taprootLeafMask = 0

namespace P2MRBuilder

/-- The loop of `P2MRBuilder::Insert`, with `m_valid` behind it. -/
def insertLoop (hashes : ScriptHashes) (node : NodeInfo) (depth : Nat)
    (mBranch : List (Option NodeInfo)) : Bool × NodeInfo × Nat × List (Option NodeInfo) :=
  match mBranch[depth]? with
  | some (some sibling) =>
      match depth with
      | 0 => (false, combine hashes node sibling, 0, mBranch.dropLast)
      | depth + 1 => insertLoop hashes (combine hashes node sibling) depth mBranch.dropLast
  | _ => (true, node, depth, mBranch)

/-- `P2MRBuilder::Insert`; nothing where an assertion fails. -/
def assertedInsert (hashes : ScriptHashes) (builder : P2MRBuilder) (node : NodeInfo)
    (depth : Int) : Option P2MRBuilder :=
  if ¬ (0 ≤ depth ∧ depth ≤ p2mrControlMaxNodeCount) then none
  else if depth.toNat + 1 < builder.mBranch.length then some { builder with mValid := false }
  else
    let (mValid, node, depth, mBranch) := insertLoop hashes node depth.toNat builder.mBranch
    if mValid then
      let mBranch :=
        if mBranch.length ≤ depth then
          mBranch ++ List.replicate (depth + 1 - mBranch.length) none
        else mBranch
      if mBranch[depth]?.join.isSome then none
      else some { builder with mValid := mValid, mBranch := mBranch.set depth (some node) }
    else some { builder with mValid := mValid, mBranch := mBranch }

/-- The node of a leaf. -/
def leafNode (hashes : ScriptHashes) (call : AddCall) : NodeInfo where
  hash := computeTapleafHash hashes call.leafVersion call.script
  leaves := if call.track then [⟨call.script, call.leafVersion, []⟩] else []

/-- `P2MRBuilder::Add`; nothing where an assertion fails. -/
def assertedAdd (hashes : ScriptHashes) (builder : P2MRBuilder) (call : AddCall) :
    Option P2MRBuilder :=
  if call.leafVersion &&& ~~~taprootLeafMask ≠ 0 then none
  else if !builder.mValid then some builder
  else builder.assertedInsert hashes (leafNode hashes call) call.depth

/-- Calls of `Add` in order. -/
def addCalls (hashes : ScriptHashes) (builder : P2MRBuilder) : List AddCall → Option P2MRBuilder
  | [] => some builder
  | call :: calls =>
      match builder.assertedAdd hashes call with
      | none => none
      | some builder => addCalls hashes builder calls

/-- The inner loop of `P2MRBuilder::ValidDepths`; nothing where it returns. -/
def collapseDepth : Nat → List Bool → Option (Nat × List Bool)
  | 0, branch => if branch[0]? = some true then none else some (0, branch)
  | depth + 1, branch =>
      if branch[depth + 1]? = some true then collapseDepth depth branch.dropLast
      else some (depth + 1, branch)

/-- The outer loop of `P2MRBuilder::ValidDepths`; nothing where the assertion fails. -/
def validDepthsFrom : List Bool → List Int → Option Bool
  | branch, [] => some (branch.length = 0 || branch.length = 1 && branch[0]? = some true)
  | branch, depth :: depths =>
      if depth < 0 ∨ depth > p2mrControlMaxNodeCount then some false
      else if depth.toNat + 1 < branch.length then some false
      else
        match collapseDepth depth.toNat branch with
        | none => some false
        | some (depth, branch) =>
            let branch :=
              if branch.length ≤ depth then
                branch ++ List.replicate (depth + 1 - branch.length) false
              else branch
            if branch[depth]? = some true then none
            else validDepthsFrom (branch.set depth true) depths

/-- `P2MRBuilder::ValidDepths`. -/
def validDepths (depths : List Int) : Option Bool := validDepthsFrom [] depths

/-- The hash of a tree. -/
def treeHash (hashes : ScriptHashes) : FullTree AddCall → Uint256
  | .leaf call => computeTapleafHash hashes call.leafVersion call.script
  | .node left right =>
      computeTapbranchHash hashes (treeHash hashes left).bytes (treeHash hashes right).bytes

/-! ## The builder with its assertions -/

section Asserted

variable {hashes : ScriptHashes} {builder : P2MRBuilder}

/-- The loop stops at a free slot, and writing there finishes the insertion. -/
theorem insertLoop_eq (node : NodeInfo) (depth : Nat) (mBranch : List (Option NodeInfo)) :
    match insertLoop hashes node depth mBranch with
    | (true, last, level, rest) =>
        TreeStack.insert (combine hashes) node depth mBranch = (true, put rest level last) ∧
          ∀ sibling, rest[level]? ≠ some (some sibling)
    | (false, _, _, rest) =>
        TreeStack.insert (combine hashes) node depth mBranch = (false, rest) := by
  induction depth generalizing node mBranch with
  | zero =>
      unfold insertLoop TreeStack.insert
      rcases slot : mBranch[0]? with _ | _ | sibling
      · simp [slot]
      · simp [slot]
      · simp
  | succ depth ih =>
      unfold insertLoop TreeStack.insert
      rcases slot : mBranch[depth + 1]? with _ | _ | sibling
      · simp [slot]
      · simp [slot]
      · exact ih (combine hashes node sibling) mBranch.dropLast

/-- No assertion of `Insert` fails at a depth in its range. -/
theorem assertedInsert_eq {node : NodeInfo} {depth : Int} (nonneg : 0 ≤ depth)
    (shallow : depth ≤ p2mrControlMaxNodeCount) :
    builder.assertedInsert hashes node depth = some (builder.insert hashes node depth.toNat) := by
  rw [assertedInsert, if_neg (not_not.mpr ⟨nonneg, shallow⟩), insert]
  split_ifs with above
  · rfl
  · have loop := @insertLoop_eq hashes node depth.toNat builder.mBranch
    cases run : insertLoop hashes node depth.toNat builder.mBranch with
    | mk valid rest =>
        obtain ⟨last, level, rest⟩ := rest
        rw [run] at loop
        cases valid with
        | false => simp [loop]
        | true =>
            obtain ⟨inserted, free⟩ := loop
            have filled : (if rest.length ≤ level then
                rest ++ List.replicate (level + 1 - rest.length) none else rest) =
                  rest ++ List.replicate (level + 1 - rest.length) none := by
              split_ifs with short
              · rfl
              · have enough : level + 1 - rest.length = 0 := by omega
                rw [enough, List.replicate_zero, List.append_nil]
            have unused :
                (rest ++ List.replicate (level + 1 - rest.length) none)[level]?.join = none := by
              cases slot : (rest ++ List.replicate (level + 1 - rest.length) none)[level]? with
              | none => rfl
              | some found =>
                  cases found with
                  | none => rfl
                  | some sibling =>
                      rw [List.getElem?_append] at slot
                      split_ifs at slot with inside
                      · exact absurd slot (free sibling)
                      · rw [List.getElem?_replicate] at slot
                        split_ifs at slot
                        simp at slot
            simp [inserted, filled, unused, put]

theorem assertedAdd_eq {call : AddCall} (proper : call.Proper) :
    builder.assertedAdd hashes call =
      let stack := insertListed (combine hashes) (builder.mValid, builder.mBranch)
        (call.depth.toNat, leafNode hashes call)
      some ⟨stack.1, stack.2, builder.mMerkleRoot⟩ := by
  rw [assertedAdd, if_neg (not_not.mpr proper.even),
    assertedInsert_eq proper.depth_nonneg proper.depth_le, insertListed]
  obtain ⟨mValid, mBranch, mMerkleRoot⟩ := builder
  cases mValid with
  | false => simp
  | true =>
      simp only [insert, Bool.not_true, Bool.false_eq_true, if_false, Bool.true_eq_false]
      split_ifs <;> rfl

/-- Calls whose own assertions hold run without a failed one. -/
theorem addCalls_eq {calls : List AddCall} (proper : ∀ call ∈ calls, call.Proper) :
    builder.addCalls hashes calls =
      let stack := (calls.map fun call => (call.depth.toNat, leafNode hashes call)).foldl
        (insertListed (combine hashes)) (builder.mValid, builder.mBranch)
      some ⟨stack.1, stack.2, builder.mMerkleRoot⟩ := by
  induction calls generalizing builder with
  | nil => rfl
  | cons call calls ih =>
      simp only [addCalls, assertedAdd_eq (proper call (by simp)), List.map_cons, List.foldl_cons]
      exact ih fun other member => proper other (by simp [member])

theorem valid_of_isComplete (complete : builder.isComplete = true) : builder.mValid = true :=
  (Bool.and_eq_true_iff.mp complete).1

theorem isComplete_iff :
    builder.isComplete = true ↔ Finished (builder.mValid, builder.mBranch) := by
  obtain ⟨mValid, mBranch, mMerkleRoot⟩ := builder
  rw [isComplete, Finished]
  rcases mBranch with _ | ⟨first, _ | ⟨second, others⟩⟩
  · simp
  · cases first <;> simp
  · simp

end Asserted

/-! ## The other loop -/

/-- The loop on Booleans does what the insertion of nodes without content does. -/
theorem collapseDepth_eq (depth : Nat) (slots : List (Option Unit)) :
    match collapseDepth depth (slots.map Option.isSome) with
    | none => (TreeStack.insert (fun _ _ => ()) () depth slots).1 = false
    | some (level, branch) => ∃ rest : List (Option Unit), rest.map Option.isSome = branch ∧
        rest[level]? ≠ some (some ()) ∧
        TreeStack.insert (fun _ _ => ()) () depth slots = (true, put rest level ()) := by
  induction depth generalizing slots with
  | zero =>
      unfold TreeStack.insert
      rw [collapseDepth, List.getElem?_map]
      rcases slot : slots[0]? with _ | _ | sibling
      · exact ⟨slots, rfl, by simp [slot], rfl⟩
      · exact ⟨slots, rfl, by simp [slot], rfl⟩
      · simp
  | succ depth ih =>
      unfold TreeStack.insert
      rw [collapseDepth, List.getElem?_map]
      rcases slot : slots[depth + 1]? with _ | _ | sibling
      · exact ⟨slots, rfl, by simp [slot], rfl⟩
      · exact ⟨slots, rfl, by simp [slot], rfl⟩
      · simpa [List.map_dropLast] using ih slots.dropLast

/-- `ValidDepths` from any branch: no assertion fails, and true means finished. -/
theorem validDepthsFrom_iff {depths : List Int}
    (inRange : ∀ depth ∈ depths, 0 ≤ depth ∧ depth ≤ p2mrControlMaxNodeCount)
    (slots : List (Option Unit)) :
    validDepthsFrom (slots.map Option.isSome) depths = some true ↔
      Finished ((depths.map fun depth => (depth.toNat, ())).foldl
        (insertListed fun _ _ => ()) (true, slots)) := by
  induction depths generalizing slots with
  | nil =>
      rw [validDepthsFrom, List.map_nil, List.foldl_nil, Finished]
      rcases slots with _ | ⟨first, _ | ⟨second, others⟩⟩
      · simp
      · cases first <;> simp
      · simp
  | cons depth depths ih =>
      obtain ⟨nonneg, shallow⟩ := inRange depth (by simp)
      have rejected {stack : Bool × List (Option Unit)} (invalid : stack.1 = false) :
          ¬ Finished ((depths.map fun depth => (depth.toNat, ())).foldl
            (insertListed fun _ _ => ()) stack) := by
        rw [insertListed_of_invalid invalid]
        rintro (empty | ⟨root, built⟩)
        · simp [empty] at invalid
        · simp [built] at invalid
      have step : insertListed (fun _ _ => ()) (true, slots) (depth.toNat, ()) =
          if depth.toNat + 1 < slots.length then (false, slots)
          else TreeStack.insert (fun _ _ => ()) () depth.toNat slots := by
        rw [insertListed, if_neg (by simp)]
      rw [validDepthsFrom, if_neg (by omega), List.map_cons, List.foldl_cons, List.length_map, step]
      split_ifs with above
      · simp [rejected]
      · have collapsed := collapseDepth_eq depth.toNat slots
        cases run : collapseDepth depth.toNat (slots.map Option.isSome) with
        | none =>
            rw [run] at collapsed
            simp [rejected collapsed]
        | some result =>
            obtain ⟨level, branch⟩ := result
            rw [run] at collapsed
            obtain ⟨rest, rfl, free, inserted⟩ := collapsed
            have filled : (if (rest.map Option.isSome).length ≤ level then
                rest.map Option.isSome ++
                  List.replicate (level + 1 - (rest.map Option.isSome).length) false
                else rest.map Option.isSome) =
                  (rest ++ List.replicate (level + 1 - rest.length) none).map Option.isSome := by
              rw [List.map_append, List.map_replicate, List.length_map]
              split_ifs with short
              · rfl
              · have enough : level + 1 - rest.length = 0 := by omega
                rw [enough, List.replicate_zero, List.append_nil]
            have unused : ((rest ++ List.replicate (level + 1 - rest.length) none).map
                Option.isSome)[level]? ≠ some true := by
              rw [List.getElem?_map, List.getElem?_append]
              split_ifs with inside
              · intro taken
                obtain ⟨found, slot, isSome⟩ := Option.map_eq_some_iff.mp taken
                obtain ⟨sibling, rfl⟩ := Option.isSome_iff_exists.mp isSome
                exact free slot
              · rw [List.getElem?_replicate]
                split_ifs <;> simp
            have written : ((rest ++ List.replicate (level + 1 - rest.length) none).map
                Option.isSome).set level true = (put rest level ()).map Option.isSome := by
              rw [put, List.map_set]
              rfl
            simp only [filled, if_neg unused, written, inserted]
            exact ih (fun other member => inRange other (by simp [member])) _

/-- `ValidDepths` is true for the leaf depths of full binary trees. -/
theorem validDepths_iff {depths : List Int} (nonempty : depths ≠ [])
    (inRange : ∀ depth ∈ depths, 0 ≤ depth ∧ depth ≤ p2mrControlMaxNodeCount) :
    validDepths depths = some true ↔
      ∃ shape : FullTree Unit, shape.leafDepths = depths.map Int.toNat := by
  have items : depths.map (fun depth => (depth.toNat, ())) =
      (depths.map fun depth => (depth.toNat, ())).map (Prod.map id fun _ => ()) := by
    rw [List.map_map]
    rfl
  have ran := validDepthsFrom_iff inRange []
  rw [items, finished_foldl_iff _ (by simpa using nonempty)] at ran
  refine Iff.trans ran (exists_congr fun shape => ?_)
  constructor
  · intro listed
    rw [FullTree.leafDepths, listed, List.map_map]
    rfl
  · intro listed
    have labels : shape.leaves = List.replicate shape.leafDepths.length () :=
      List.eq_replicate_iff.mpr ⟨by simp [FullTree.leaves, FullTree.leafDepths], fun _ _ => rfl⟩
    rw [FullTree.listing_zip, labels, listed, List.length_map, List.zip_eq_zipWith]
    apply List.ext_getElem
    · simp
    · simp

end P2MRBuilder

/-! ## Accepted depths -/

section Accepted

variable {hashes : ScriptHashes} {calls : List AddCall}

theorem P2MRBuilder.hash_fold (tree : FullTree AddCall) :
    (tree.fold (leafNode hashes) (combine hashes)).hash = treeHash hashes tree := by
  induction tree with
  | leaf call => rfl
  | node left right leftIH rightIH =>
      rw [FullTree.fold, combine, leftIH, rightIH, computeTapbranchHash_comm]
      rfl

/-- The calls with their depths. -/
def listedCalls (calls : List AddCall) : List (Nat × AddCall) :=
  calls.map fun call => (call.depth.toNat, call)

/-- The builder after calls whose own assertions hold. -/
theorem P2MRBuilder.addCalls_new (proper : ∀ call ∈ calls, call.Proper) :
    let stack := ((listedCalls calls).map (Prod.map id (leafNode hashes))).foldl
      (insertListed (combine hashes)) (true, [])
    P2MRBuilder.new.addCalls hashes calls = some ⟨stack.1, stack.2, .null⟩ := by
  rw [listedCalls, List.map_map]
  exact addCalls_eq proper

/-- The calls that leave the builder complete list a tree. -/
theorem P2MRBuilder.isComplete_addCalls_iff (nonempty : calls ≠ [])
    (proper : ∀ call ∈ calls, call.Proper) {builder : P2MRBuilder}
    (added : P2MRBuilder.new.addCalls hashes calls = some builder) :
    builder.isComplete = true ↔
      ∃ tree : FullTree AddCall, tree.listing 0 = listedCalls calls := by
  have listedNonempty : listedCalls calls ≠ [] := by simpa [listedCalls] using nonempty
  cases (P2MRBuilder.addCalls_new proper).symm.trans added
  rw [isComplete_iff]
  exact finished_foldl_iff (leafNode hashes) listedNonempty

/-- A list of depths is accepted by the builder exactly if `ValidDepths` accepts
it, and exactly if it is the depths of the leaves of a full binary tree.  No
assertion fails, and the root is the hash of the tree. -/
theorem validDepths_iff_isComplete (nonempty : calls ≠ [])
    (proper : ∀ call ∈ calls, call.Proper) :
    ∃ builder, P2MRBuilder.new.addCalls hashes calls = some builder ∧
      (builder.mValid = true ∧ builder.isComplete = true ↔
        P2MRBuilder.validDepths (calls.map AddCall.depth) = some true) ∧
      (P2MRBuilder.validDepths (calls.map AddCall.depth) = some true ↔
        ∃ shape : FullTree Unit, shape.leafDepths.map Int.ofNat = calls.map AddCall.depth) ∧
      ∀ shape : FullTree Unit, shape.leafDepths.map Int.ofNat = calls.map AddCall.depth →
        ∃ tree : FullTree AddCall, tree.shape = shape ∧ tree.leaves = calls ∧
          builder.finalize.map P2MRBuilder.getOutput =
            some (P2MRBuilder.treeHash hashes tree) := by
  have sameDepths (shape : FullTree Unit) :
      shape.leafDepths.map Int.ofNat = calls.map AddCall.depth ↔
        shape.leafDepths = (calls.map AddCall.depth).map Int.toNat := by
    constructor
    · intro listed
      rw [← listed, List.map_map]
      exact (List.map_id _).symm
    · intro listed
      rw [listed, List.map_map, List.map_map]
      exact List.map_congr_left fun call member =>
        Int.toNat_of_nonneg (proper call member).depth_nonneg
  have firsts : (listedCalls calls).map Prod.fst = (calls.map AddCall.depth).map Int.toNat := by
    rw [listedCalls, List.map_map, List.map_map]
    rfl
  have checked := @P2MRBuilder.validDepths_iff (calls.map AddCall.depth) (by simpa using nonempty)
    (by
      intro depth member
      obtain ⟨call, isCall, rfl⟩ := List.mem_map.mp member
      exact ⟨(proper call isCall).depth_nonneg, (proper call isCall).depth_le⟩)
  have added := @P2MRBuilder.addCalls_new hashes calls proper
  refine ⟨_, added, ?_, ?_, ?_⟩
  · rw [checked]
    constructor
    · rintro ⟨-, complete⟩
      obtain ⟨tree, listed⟩ := (P2MRBuilder.isComplete_addCalls_iff nonempty proper added).mp complete
      exact ⟨tree.shape, by rw [FullTree.leafDepths_shape, FullTree.leafDepths, listed, firsts]⟩
    · rintro ⟨shape, listed⟩
      obtain ⟨tree, -, treeListed⟩ := FullTree.exists_listing (listed.trans firsts.symm)
      have complete := (P2MRBuilder.isComplete_addCalls_iff nonempty proper added).mpr
        ⟨tree, treeListed⟩
      exact ⟨P2MRBuilder.valid_of_isComplete complete, complete⟩
  · simp only [checked, sameDepths]
  · intro shape listed
    rw [sameDepths, ← firsts] at listed
    obtain ⟨tree, sameShape, treeListed⟩ := FullTree.exists_listing listed
    have leaves : tree.leaves = calls := by
      rw [FullTree.leaves, treeListed, listedCalls, List.map_map]
      exact List.map_id _
    refine ⟨tree, sameShape, leaves, ?_⟩
    rw [← treeListed, foldl_listing_root, ← P2MRBuilder.hash_fold]
    rfl

/-- A tree of three leaves, one of them not tracked. -/
def threeCalls : List AddCall :=
  [⟨2, [0x51], 0xc0, true⟩, ⟨2, [0x52], 0xc0, false⟩, ⟨1, [0x53], 0xc2, true⟩]

theorem threeCalls_isComplete :
    ∃ builder, P2MRBuilder.new.addCalls paddingHashes threeCalls = some builder ∧
      builder.isComplete = true ∧ P2MRBuilder.validDepths [2, 2, 1] = some true := by
  have valid : P2MRBuilder.validDepths [2, 2, 1] = some true := by decide
  have proper : ∀ call ∈ threeCalls, call.Proper := by
    intro call member
    simp only [threeCalls, List.mem_cons, List.not_mem_nil, or_false] at member
    obtain rfl | rfl | rfl := member <;> exact ⟨by decide, by decide, by decide⟩
  obtain ⟨builder, added, accepted, -, -⟩ :=
    @validDepths_iff_isComplete paddingHashes threeCalls (by decide) proper
  exact ⟨builder, added, (accepted.mpr valid).2, valid⟩

end Accepted

end QuantyCoin
