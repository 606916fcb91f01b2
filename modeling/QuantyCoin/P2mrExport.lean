import QuantyCoin.P2mrDepths

/-!
# Exporting and rebuilding P2MR trees

`P2MRBuilder::GetTreeTuples` of `script/signingprovider.cpp`.  The newer subtree
comes first in a combined node, so the exported leaves are the listing of the
mirrored tree.  It is built again into a node with the same hash, because the
branch hash sorts its arguments, and with the same leaves in another order,
which the sets of the spend data do not show.
-/

namespace QuantyCoin

open TreeStack

/-! ## Ordered insertion -/

/-- A comparison is a strict linear order. -/
structure StrictLinear {α : Type} (less : α → α → Bool) : Prop where
  asymm : ∀ {a b}, less a b = true → less b a = false
  trans : ∀ {a b c}, less a b = true → less b c = true → less a c = true
  total : ∀ {a b}, a ≠ b → less a b = true ∨ less b a = true

section Ordered

variable {α β : Type} [DecidableEq α] [DecidableEq β] {less : α → α → Bool}
  {lessValue : β → β → Bool}

theorem setInsert_comm (linear : StrictLinear less) (first second : α) (values : List α) :
    setInsert less first (setInsert less second values) =
      setInsert less second (setInsert less first values) := by
  have asymm := @linear.asymm
  have trans := @linear.trans
  have total := @linear.total
  induction values with
  | nil => grind [setInsert]
  | cons value values ih => grind [setInsert]

theorem mapSetInsert_comm (linear : StrictLinear less) (linearValue : StrictLinear lessValue)
    (first second : α) (value other : β) (map : List (α × List β)) :
    mapSetInsert less lessValue first value (mapSetInsert less lessValue second other map) =
      mapSetInsert less lessValue second other (mapSetInsert less lessValue first value map) := by
  have asymm := @linear.asymm
  have trans := @linear.trans
  have total := @linear.total
  have comm := setInsert_comm linearValue
  have singles := comm value other []
  rw [setInsert, setInsert] at singles
  induction map with
  | nil => grind [mapSetInsert]
  | cons entry map ih => grind [mapSetInsert]

end Ordered

theorem shortestVectorFirst_iff {a b : Bytes} :
    shortestVectorFirst a b = true ↔ a.length < b.length ∨ a.length = b.length ∧ a < b := by
  rw [shortestVectorFirst]
  split_ifs with shorter longer
  · simp [shorter]
  · simp only [false_iff, not_or, not_and]
    omega
  · rw [decide_eq_true_iff]
    constructor
    · intro before
      exact .inr ⟨by omega, before⟩
    · rintro (before | ⟨-, before⟩)
      · exact absurd before shorter
      · exact before

theorem leafKeyLess_iff {a b : Bytes × UInt8} :
    leafKeyLess a b = true ↔ a.1 < b.1 ∨ a.1 = b.1 ∧ a.2 < b.2 := by
  rw [leafKeyLess]
  split_ifs with less greater
  · simp [less]
  · simp only [false_iff, not_or, not_and]
    exact ⟨less, fun same => absurd greater (same ▸ List.lt_irrefl _)⟩
  · have same : a.1 = b.1 := List.le_antisymm greater less
    simp [same, List.lt_irrefl]

/-- Control blocks are ordered by their length first. -/
theorem strictLinear_shortestVectorFirst : StrictLinear shortestVectorFirst where
  asymm := by
    intro a b before
    rw [Bool.eq_false_iff, Ne, shortestVectorFirst_iff]
    rw [shortestVectorFirst_iff] at before
    rintro (after | ⟨sameLength, after⟩)
    · omega
    · obtain before | ⟨-, before⟩ := before
      · omega
      · exact List.lt_asymm before after
  trans := by
    intro a b c first second
    rw [shortestVectorFirst_iff] at first second ⊢
    obtain first | ⟨firstLength, first⟩ := first
    · exact .inl (by omega)
    · obtain second | ⟨secondLength, second⟩ := second
      · exact .inl (by omega)
      · exact .inr ⟨firstLength.trans secondLength, List.lt_trans first second⟩
  total := by
    intro a b different
    rw [shortestVectorFirst_iff, shortestVectorFirst_iff]
    obtain shorter | same | longer := Nat.lt_trichotomy a.length b.length
    · exact .inl (.inl shorter)
    · by_cases before : a < b
      · exact .inl (.inr ⟨same, before⟩)
      · by_cases after : b < a
        · exact .inr (.inr ⟨same.symm, after⟩)
        · exact absurd (List.le_antisymm after before) different
    · exact .inr (.inl longer)

/-- Leaves are ordered by their scripts first. -/
theorem strictLinear_leafKeyLess : StrictLinear leafKeyLess where
  asymm := by
    intro a b before
    rw [Bool.eq_false_iff, Ne, leafKeyLess_iff]
    rw [leafKeyLess_iff] at before
    rintro (after | ⟨same, after⟩)
    · obtain before | ⟨same, -⟩ := before
      · exact List.lt_asymm before after
      · exact List.lt_irrefl _ (same ▸ after)
    · obtain before | ⟨-, before⟩ := before
      · exact List.lt_irrefl _ (same ▸ before)
      · exact UInt8.lt_asymm before after
  trans := by
    intro a b c first second
    rw [leafKeyLess_iff] at first second ⊢
    obtain first | ⟨firstSame, first⟩ := first
    · obtain second | ⟨same, -⟩ := second
      · exact .inl (List.lt_trans first second)
      · exact .inl (same ▸ first)
    · obtain second | ⟨secondSame, second⟩ := second
      · exact .inl (firstSame ▸ second)
      · exact .inr ⟨firstSame.trans secondSame, UInt8.lt_trans first second⟩
  total := by
    intro a b different
    rw [leafKeyLess_iff, leafKeyLess_iff]
    by_cases before : a.1 < b.1
    · exact .inl (.inl before)
    · by_cases after : b.1 < a.1
      · exact .inr (.inl after)
      · have same : a.1 = b.1 := List.le_antisymm after before
        obtain less | greater := UInt8.lt_or_lt_of_ne fun sameVersion =>
          different (Prod.ext same sameVersion)
        · exact .inl (.inr ⟨same, less⟩)
        · exact .inr (.inr ⟨same.symm, greater⟩)

/-! ## The exported leaves -/

namespace P2MRBuilder

/-- `P2MRBuilder::GetTreeTuples`; nothing where an assertion fails. -/
def getTreeTuples (builder : P2MRBuilder) : Option (List P2MRTreeLeaf) :=
  if builder.isComplete then
    match builder.mBranch with
    | some root :: _ =>
        if ∀ leaf ∈ root.leaves, leaf.merkleBranch.length ≤ p2mrControlMaxNodeCount then
          some (root.leaves.map fun leaf =>
            ⟨UInt8.ofNat leaf.merkleBranch.length, leaf.leafVersion, leaf.script⟩)
        else none
    | _ => some []
  else none

end P2MRBuilder

/-- The call of `Add` with tracking that takes an exported leaf. -/
def P2MRTreeLeaf.addCall (leaf : P2MRTreeLeaf) : AddCall :=
  ⟨leaf.depth.toNat, leaf.script, leaf.leafVersion, true⟩

namespace P2MRBuilder

section Export

variable {hashes : ScriptHashes} {calls : List AddCall} {builder : P2MRBuilder}

/-- What a call has checked that leaves the builder valid. -/
theorem assertedAdd_inv {call : AddCall} {result : P2MRBuilder}
    (added : builder.assertedAdd hashes call = some result) (valid : result.mValid = true) :
    builder.mValid = true ∧ call.Proper := by
  rw [assertedAdd] at added
  split_ifs at added with odd invalid
  · cases added
    simp [valid] at invalid
  · by_cases inRange : 0 ≤ call.depth ∧ call.depth ≤ p2mrControlMaxNodeCount
    · exact ⟨by simpa using invalid, inRange.1, inRange.2, not_not.mp odd⟩
    · rw [assertedInsert, if_pos inRange] at added
      cases added

theorem proper_of_addCalls {result : P2MRBuilder}
    (added : builder.addCalls hashes calls = some result) (valid : result.mValid = true) :
    builder.mValid = true ∧ ∀ call ∈ calls, call.Proper := by
  induction calls generalizing builder with
  | nil =>
      cases added
      simpa using valid
  | cons call calls ih =>
      rw [addCalls] at added
      cases step : builder.assertedAdd hashes call with
      | none => simp [step] at added
      | some after =>
          simp only [step] at added
          obtain ⟨afterValid, later⟩ := ih added
          obtain ⟨before, proper⟩ := assertedAdd_inv step afterValid
          exact ⟨before, List.forall_mem_cons.mpr ⟨proper, later⟩⟩

/-- The leaves of a node come newest first, each with a branch as long as its depth. -/
theorem leaves_fold {tree : FullTree AddCall} (tracked : ∀ call ∈ tree.leaves, call.track = true)
    (level : Nat) :
    (tree.fold (leafNode hashes) (combine hashes)).leaves.map
        (fun leaf => (leaf.merkleBranch.length + level, leaf.script, leaf.leafVersion)) =
      (tree.mirror.listing level).map fun item => (item.1, item.2.script, item.2.leafVersion) := by
  induction tree generalizing level with
  | leaf call =>
      have isTracked := tracked call (by simp [FullTree.leaves, FullTree.listing])
      simp [FullTree.fold, leafNode, isTracked, FullTree.mirror, FullTree.listing]
  | node left right leftIH rightIH =>
      simp only [FullTree.leaves_node, List.mem_append] at tracked
      have older := leftIH (fun call member => tracked call (.inl member)) (level + 1)
      have newer := rightIH (fun call member => tracked call (.inr member)) (level + 1)
      have lengthens (partner : Uint256) (leaves : List LeafInfo) :
          (leaves.map (extendBranch partner)).map
              (fun leaf => (leaf.merkleBranch.length + level, leaf.script, leaf.leafVersion)) =
            leaves.map fun leaf =>
              (leaf.merkleBranch.length + (level + 1), leaf.script, leaf.leafVersion) := by
        rw [List.map_map]
        apply List.map_congr_left
        intro leaf member
        simp only [Function.comp_apply, extendBranch, List.length_append, List.length_singleton]
        rw [Nat.add_assoc, Nat.add_comm 1]
      rw [FullTree.fold, combine, List.map_append, lengthens, lengthens, newer, older,
        FullTree.mirror, FullTree.listing, List.map_append]

theorem treeHash_mirror (tree : FullTree AddCall) :
    treeHash hashes tree.mirror = treeHash hashes tree := by
  induction tree with
  | leaf call => rfl
  | node left right leftIH rightIH =>
      rw [FullTree.mirror, treeHash, leftIH, rightIH, computeTapbranchHash_comm, treeHash]

/-- The mirrored tree has the same leaves with the same branches, in another order. -/
theorem leaves_fold_mirror_perm (tree : FullTree AddCall) :
    (tree.mirror.fold (leafNode hashes) (combine hashes)).leaves.Perm
      (tree.fold (leafNode hashes) (combine hashes)).leaves := by
  induction tree with
  | leaf call => exact List.Perm.refl _
  | node left right leftIH rightIH =>
      simp only [FullTree.mirror, FullTree.fold, combine, hash_fold, treeHash_mirror]
      exact ((leftIH.map _).append (rightIH.map _)).trans List.perm_append_comm

/-- The spend data does not depend on the order of the leaves. -/
theorem scripts_perm {leaves others : List LeafInfo} (same : leaves.Perm others)
    (scripts : List ((Bytes × UInt8) × List Bytes)) :
    leaves.foldl (fun scripts leaf => mapSetInsert leafKeyLess shortestVectorFirst
        (leaf.script, leaf.leafVersion) (controlBlock leaf) scripts) scripts =
      others.foldl (fun scripts leaf => mapSetInsert leafKeyLess shortestVectorFirst
        (leaf.script, leaf.leafVersion) (controlBlock leaf) scripts) scripts :=
  same.foldl_eq' (fun _ _ _ _ _ =>
    mapSetInsert_comm strictLinear_leafKeyLess strictLinear_shortestVectorFirst _ _ _ _ _) scripts

/-- The builder that the calls of a tree leave behind. -/
theorem addCalls_of_listing (proper : ∀ call ∈ calls, call.Proper) {tree : FullTree AddCall}
    (listed : tree.listing 0 = listedCalls calls) :
    P2MRBuilder.new.addCalls hashes calls =
      some ⟨true, [some (tree.fold (leafNode hashes) (combine hashes))], .null⟩ := by
  have added := @addCalls_new hashes calls proper
  rw [← listed, foldl_listing_root] at added
  exact added

section Exported

variable {tree : FullTree AddCall}

theorem mem_mirror_listing (listed : tree.listing 0 = listedCalls calls) {item : Nat × AddCall}
    (member : item ∈ tree.mirror.listing 0) :
    item.1 = item.2.depth.toNat ∧ item.2 ∈ calls := by
  have inTree := (tree.mirror_listing_perm 0).mem_iff.mp member
  rw [listed, listedCalls, List.mem_map] at inTree
  obtain ⟨call, isCall, rfl⟩ := inTree
  exact ⟨rfl, isCall⟩

/-- The mirrored tree is listed by its own leaves. -/
theorem listedCalls_mirror (listed : tree.listing 0 = listedCalls calls) :
    tree.mirror.listing 0 = listedCalls tree.mirror.leaves := by
  rw [listedCalls, FullTree.leaves, List.map_map]
  refine (List.map_id _).symm.trans (List.map_congr_left fun item member => ?_)
  exact Prod.ext (mem_mirror_listing listed member).1 rfl

/-- The exported leaves are the calls of the mirrored tree. -/
theorem exported_eq (proper : ∀ call ∈ calls, call.Proper)
    (tracked : ∀ call ∈ calls, call.track = true)
    (listed : tree.listing 0 = listedCalls calls) :
    ∃ tuples, getTreeTuples ⟨true, [some (tree.fold (leafNode hashes) (combine hashes))], .null⟩ =
        some tuples ∧ tuples.map P2MRTreeLeaf.addCall = tree.mirror.leaves := by
  have treeTracked : ∀ call ∈ tree.leaves, call.track = true := by
    intro call member
    rw [FullTree.leaves, listed, listedCalls, List.map_map] at member
    exact tracked call (by simpa using member)
  have leaves := @leaves_fold hashes tree treeTracked 0
  have shallow : ∀ item ∈ tree.mirror.listing 0, item.1 ≤ p2mrControlMaxNodeCount := by
    intro item member
    obtain ⟨depth, isCall⟩ := mem_mirror_listing listed member
    have bound := (proper _ isCall).depth_le
    omega
  have branches : ∀ leaf ∈ (tree.fold (leafNode hashes) (combine hashes)).leaves,
      leaf.merkleBranch.length ≤ p2mrControlMaxNodeCount := by
    intro leaf member
    have image := @List.mem_map_of_mem _ _ _ leaf
      (fun leaf => (leaf.merkleBranch.length + 0, leaf.script, leaf.leafVersion)) member
    rw [leaves, List.mem_map] at image
    obtain ⟨item, inMirror, same⟩ := image
    have depth := congrArg Prod.fst same
    exact (Nat.le_of_eq depth.symm).trans (shallow item inMirror)
  refine ⟨_, by rw [getTreeTuples]; exact (if_pos rfl).trans (if_pos branches), ?_⟩
  have triples : (tree.fold (leafNode hashes) (combine hashes)).leaves.map (fun leaf =>
      (⟨UInt8.ofNat leaf.merkleBranch.length, leaf.leafVersion, leaf.script⟩ : P2MRTreeLeaf)) =
      (tree.mirror.listing 0).map fun item =>
        ⟨UInt8.ofNat item.1, item.2.leafVersion, item.2.script⟩ := by
    have images := congrArg (List.map fun triple : Nat × Bytes × UInt8 =>
      (⟨UInt8.ofNat triple.1, triple.2.2, triple.2.1⟩ : P2MRTreeLeaf)) leaves
    rwa [List.map_map, List.map_map] at images
  rw [triples, List.map_map, FullTree.leaves]
  apply List.map_congr_left
  intro item member
  obtain ⟨depth, isCall⟩ := mem_mirror_listing listed member
  have nonneg := (proper _ isCall).depth_nonneg
  have byte : (UInt8.ofNat item.1).toNat = item.1 := by
    rw [UInt8.toNat_ofNat']
    have bound := shallow item member
    rw [p2mrControlMaxNodeCount] at bound
    exact Nat.mod_eq_of_lt (by omega)
  obtain ⟨level, call⟩ := item
  simp only [Function.comp_apply, P2MRTreeLeaf.addCall, byte]
  rw [AddCall.mk.injEq]
  simp only at depth nonneg
  exact ⟨by omega, rfl, rfl, (tracked _ isCall).symm⟩

end Exported

end Export

end P2MRBuilder

/-- Adding the exported leaves of a complete builder to a new one gives a
complete builder with the same output and the same spend data. -/
theorem getTreeTuples_rebuilds {hashes : ScriptHashes} {calls : List AddCall}
    {builder : P2MRBuilder} (tracked : ∀ call ∈ calls, call.track = true)
    (added : P2MRBuilder.new.addCalls hashes calls = some builder)
    (complete : builder.isComplete = true) :
    ∃ tuples rebuilt, builder.getTreeTuples = some tuples ∧
      P2MRBuilder.new.addCalls hashes (tuples.map P2MRTreeLeaf.addCall) = some rebuilt ∧
      rebuilt.mValid = true ∧ rebuilt.isComplete = true ∧
      rebuilt.finalize.map P2MRBuilder.getOutput = builder.finalize.map P2MRBuilder.getOutput ∧
      rebuilt.getSpendData = builder.getSpendData := by
  by_cases empty : calls = []
  · subst empty
    cases added
    exact ⟨[], .new, rfl, rfl, rfl, rfl, rfl, rfl⟩
  · obtain ⟨-, proper⟩ :=
      P2MRBuilder.proper_of_addCalls added (P2MRBuilder.valid_of_isComplete complete)
    obtain ⟨tree, listed⟩ := (P2MRBuilder.isComplete_addCalls_iff empty proper added).mp complete
    cases (P2MRBuilder.addCalls_of_listing proper listed).symm.trans added
    obtain ⟨tuples, exported, isMirror⟩ := @P2MRBuilder.exported_eq hashes calls tree proper
      tracked listed
    have mirrorProper : ∀ call ∈ tree.mirror.leaves, call.Proper := by
      intro call member
      obtain ⟨item, inMirror, rfl⟩ := List.mem_map.mp member
      exact proper _ (P2MRBuilder.mem_mirror_listing listed inMirror).2
    have rebuilt := @P2MRBuilder.addCalls_of_listing hashes _ mirrorProper _
      (P2MRBuilder.listedCalls_mirror listed)
    have sameHash : (tree.mirror.fold (P2MRBuilder.leafNode hashes)
        (P2MRBuilder.combine hashes)).hash =
          (tree.fold (P2MRBuilder.leafNode hashes) (P2MRBuilder.combine hashes)).hash := by
      rw [P2MRBuilder.hash_fold, P2MRBuilder.hash_fold, P2MRBuilder.treeHash_mirror]
    refine ⟨tuples, _, exported, isMirror ▸ rebuilt, rfl, rfl, ?_, ?_⟩
    · exact congrArg some sameHash
    · exact congrArg some (congrArg₂ P2MRSpendData.mk sameHash
        (P2MRBuilder.scripts_perm (P2MRBuilder.leaves_fold_mirror_perm tree) []))

/-- A tree whose exported order is not the one it was built in. -/
def lopsidedCalls : List AddCall :=
  [⟨2, [0x51], 0xc0, true⟩, ⟨2, [0x52], 0xc0, true⟩, ⟨1, [0x53], 0xc2, true⟩]

theorem lopsidedCalls_rebuilds :
    ∃ builder, P2MRBuilder.new.addCalls paddingHashes lopsidedCalls = some builder ∧
      ∃ tuples rebuilt, builder.getTreeTuples = some tuples ∧
        P2MRBuilder.new.addCalls paddingHashes (tuples.map P2MRTreeLeaf.addCall) = some rebuilt ∧
        rebuilt.getSpendData = builder.getSpendData := by
  obtain ⟨builder, added⟩ : ∃ builder,
      P2MRBuilder.new.addCalls paddingHashes lopsidedCalls = some builder := ⟨_, rfl⟩
  have complete : builder.isComplete = true := by
    cases added
    rfl
  obtain ⟨tuples, rebuilt, exported, again, -, -, -, same⟩ :=
    getTreeTuples_rebuilds (by decide) added complete
  exact ⟨builder, added, tuples, rebuilt, exported, again, same⟩

end QuantyCoin
