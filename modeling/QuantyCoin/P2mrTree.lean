import QuantyCoin.BlockHashing
import QuantyCoin.Transaction
import QuantyCoin.TreeStack

/-!
# Script trees of P2MR outputs

`P2MRBuilder` of `script/signingprovider.cpp`, `BuildP2MRTreeChecked` of
`wallet/p2mr.cpp` and the branch of `VerifyWitnessProgram` in
`script/interpreter.cpp` for witness version 2.  The builder collects the Merkle
branch of every leaf while it combines nodes from the leaves up.  The verifier
folds the branch of one leaf, and hashes each pair in sorted order.
-/

namespace QuantyCoin

open ByteDecoder BlockHashing TreeStack

/-! ## Hashes -/

/-- `uint256`. -/
structure Uint256 where
  bytes : Bytes
  bytes_length : bytes.length = 32
  deriving DecidableEq

/-- The SHA-256 hashers of the script interpreter, plain and with its tags. -/
structure ScriptHashes where
  sha256 : Bytes → Uint256
  hasherTapleaf : Bytes → Uint256
  hasherTapbranch : Bytes → Uint256

def taprootLeafMask : UInt8 := 0xfe
def taprootLeafTapscript : UInt8 := 0xc0
def annexTag : UInt8 := 0x50
def p2mrControlBaseSize : Nat := 1
def p2mrControlNodeSize : Nat := 32
def p2mrControlMaxNodeCount : Nat := 128
def p2mrControlMaxSize : Nat :=
  p2mrControlBaseSize + p2mrControlNodeSize * p2mrControlMaxNodeCount

section Hashing

variable (hashes : ScriptHashes)

/-- `ComputeTapleafHash`. -/
def computeTapleafHash (leafVersion : UInt8) (script : Bytes) : Uint256 :=
  hashes.hasherTapleaf (leafVersion :: encodeBytes script)

/-- `ComputeTapbranchHash`. -/
def computeTapbranchHash (a b : Bytes) : Uint256 :=
  if a < b then hashes.hasherTapbranch (a ++ b) else hashes.hasherTapbranch (b ++ a)

end Hashing

theorem computeTapbranchHash_comm (hashes : ScriptHashes) (a b : Bytes) :
    computeTapbranchHash hashes a b = computeTapbranchHash hashes b a := by
  rw [computeTapbranchHash, computeTapbranchHash]
  by_cases less : a < b
  · rw [if_pos less, if_neg (List.lt_asymm less)]
  · by_cases greater : b < a
    · rw [if_neg less, if_pos greater]
    · rw [List.le_antisymm greater less]

/-! ## Spend data -/

/-- `ShortestVectorFirstComparator`. -/
def shortestVectorFirst (a b : Bytes) : Bool :=
  if a.length < b.length then true
  else if a.length > b.length then false
  else a < b

/-- The order of the keys `(script, leaf_version)` of a map. -/
def leafKeyLess (a b : Bytes × UInt8) : Bool :=
  if a.1 < b.1 then true
  else if b.1 < a.1 then false
  else a.2 < b.2

/-- `std::set::insert`. -/
def setInsert {α : Type} [DecidableEq α] (less : α → α → Bool) (value : α) : List α → List α
  | [] => [value]
  | first :: rest =>
      if value = first then first :: rest
      else if less value first then value :: first :: rest
      else first :: setInsert less value rest

/-- `map[key].insert(value)` on a map of sets. -/
def mapSetInsert {α β : Type} [DecidableEq α] [DecidableEq β] (less : α → α → Bool)
    (lessValue : β → β → Bool) (key : α) (value : β) : List (α × List β) → List (α × List β)
  | [] => [(key, [value])]
  | (first, values) :: rest =>
      if key = first then (first, setInsert lessValue value values) :: rest
      else if less key first then (key, [value]) :: (first, values) :: rest
      else (first, values) :: mapSetInsert less lessValue key value rest

theorem mem_setInsert {α : Type} [DecidableEq α] {less : α → α → Bool} {value other : α}
    {values : List α} :
    other ∈ setInsert less value values ↔ other = value ∨ other ∈ values := by
  induction values with
  | nil => simp [setInsert]
  | cons first rest ih =>
      rw [setInsert]
      split_ifs with same before
      · simp [same]
      · simp
      · rw [List.mem_cons, ih, List.mem_cons]
        tauto

/-- The set under a key of the map holds a value. -/
def Listed {α β : Type} (map : List (α × List β)) (key : α) (value : β) : Prop :=
  ∃ values, (key, values) ∈ map ∧ value ∈ values

section Listed

variable {α β : Type} {map : List (α × List β)} {key other : α} {value found : β}

theorem not_listed_nil : ¬ Listed ([] : List (α × List β)) key value := by
  rintro ⟨values, member, -⟩
  cases member

theorem listed_cons {first : α} {values : List β} :
    Listed ((first, values) :: map) key value ↔
      (key = first ∧ value ∈ values) ∨ Listed map key value := by
  simp only [Listed, List.mem_cons, Prod.mk.injEq]
  constructor
  · rintro ⟨values', ⟨rfl, rfl⟩ | member, inside⟩
    · exact .inl ⟨rfl, inside⟩
    · exact .inr ⟨values', member, inside⟩
  · rintro (⟨rfl, inside⟩ | ⟨values', member, inside⟩)
    · exact ⟨values, .inl ⟨rfl, rfl⟩, inside⟩
    · exact ⟨values', .inr member, inside⟩

theorem listed_mapSetInsert [DecidableEq α] [DecidableEq β] {less : α → α → Bool}
    {lessValue : β → β → Bool} :
    Listed (mapSetInsert less lessValue key value map) other found ↔
      (other = key ∧ found = value) ∨ Listed map other found := by
  induction map with
  | nil => simp [mapSetInsert, listed_cons]
  | cons entry rest ih =>
      obtain ⟨first, values⟩ := entry
      rw [mapSetInsert]
      split_ifs with same before
      · subst same
        rw [listed_cons, listed_cons, mem_setInsert]
        tauto
      · rw [listed_cons, List.mem_singleton]
      · rw [listed_cons, ih, listed_cons]
        tauto

end Listed

/-- `P2MRSpendData`. -/
structure P2MRSpendData where
  merkleRoot : Uint256
  scripts : List ((Bytes × UInt8) × List Bytes)

/-! ## The builder -/

/-- A tracked leaf with the hashes it is combined with on the way up. -/
structure LeafInfo where
  script : Bytes
  leafVersion : UInt8
  merkleBranch : List Uint256

structure NodeInfo where
  hash : Uint256
  leaves : List LeafInfo

structure P2MRBuilder where
  mValid : Bool
  mBranch : List (Option NodeInfo)
  mMerkleRoot : Uint256

/-- `uint256()`. -/
def Uint256.null : Uint256 := ⟨List.replicate 32 0, rfl⟩

namespace P2MRBuilder

/-- A new builder. -/
def new : P2MRBuilder := ⟨true, [], .null⟩

/-- The last step of the branch of a leaf. -/
def extendBranch (partner : Uint256) (leaf : LeafInfo) : LeafInfo :=
  { leaf with merkleBranch := leaf.merkleBranch ++ [partner] }

/-- `P2MRBuilder::Combine`. -/
def combine (hashes : ScriptHashes) (a b : NodeInfo) : NodeInfo where
  hash := computeTapbranchHash hashes a.hash.bytes b.hash.bytes
  leaves := a.leaves.map (extendBranch b.hash) ++ b.leaves.map (extendBranch a.hash)

/-- `P2MRBuilder::Insert`, of a depth its assertion allows. -/
def insert (hashes : ScriptHashes) (builder : P2MRBuilder) (node : NodeInfo) (depth : Nat) :
    P2MRBuilder :=
  if depth + 1 < builder.mBranch.length then { builder with mValid := false }
  else
    let result := TreeStack.insert (combine hashes) node depth builder.mBranch
    { builder with mValid := result.1, mBranch := result.2 }

/-- `P2MRBuilder::Add` with tracking, of a leaf version its assertion allows. -/
def add (hashes : ScriptHashes) (builder : P2MRBuilder) (depth : Nat) (script : Bytes)
    (leafVersion : UInt8) : P2MRBuilder :=
  if !builder.mValid then builder
  else builder.insert hashes
    ⟨computeTapleafHash hashes leafVersion script, [⟨script, leafVersion, []⟩]⟩ depth

/-- `P2MRBuilder::IsComplete`. -/
def isComplete (builder : P2MRBuilder) : Bool :=
  builder.mValid &&
    match builder.mBranch with
    | [] => true
    | [some _] => true
    | _ => false

/-- `P2MRBuilder::Finalize`; nothing where an assertion fails. -/
def finalize (builder : P2MRBuilder) : Option P2MRBuilder :=
  if builder.isComplete then
    match builder.mBranch with
    | some root :: _ => some { builder with mMerkleRoot := root.hash }
    | _ => none
  else none

/-- `P2MRBuilder::GetOutput`: the witness program. -/
def getOutput (builder : P2MRBuilder) : Uint256 := builder.mMerkleRoot

/-- The control block of a leaf. -/
def controlBlock (leaf : LeafInfo) : Bytes :=
  (leaf.leafVersion ||| 1) :: leaf.merkleBranch.flatMap Uint256.bytes

/-- `P2MRBuilder::GetSpendData`; nothing where an assertion fails. -/
def getSpendData (builder : P2MRBuilder) : Option P2MRSpendData :=
  if builder.isComplete then
    match builder.mBranch with
    | some root :: _ => some
        { merkleRoot := root.hash
          scripts := root.leaves.foldl (fun scripts leaf =>
            mapSetInsert leafKeyLess shortestVectorFirst (leaf.script, leaf.leafVersion)
              (controlBlock leaf) scripts) [] }
    | _ => some ⟨.null, []⟩
  else none

end P2MRBuilder

/-- `P2MRTreeLeaf`. -/
structure P2MRTreeLeaf where
  depth : UInt8
  leafVersion : UInt8
  script : Bytes

/-- A failed assertion, or the text of a `util::Error`. -/
inductive TreeFailure
  | aborted
  | error (message : String)
  deriving DecidableEq

/-- The loop of `BuildP2MRTreeChecked`. -/
def addLeaves (hashes : ScriptHashes) (builder : P2MRBuilder) :
    List P2MRTreeLeaf → Except TreeFailure P2MRBuilder
  | [] => .ok builder
  | leaf :: leaves =>
      if leaf.depth.toNat > p2mrControlMaxNodeCount then
        .error (.error "depth out of range")
      else if leaf.leafVersion &&& ~~~taprootLeafMask ≠ 0 then
        .error (.error "leaf_version parity bit must be unset")
      else
        addLeaves hashes (builder.add hashes leaf.depth.toNat leaf.script leaf.leafVersion) leaves

/-- `BuildP2MRTreeChecked`. -/
def buildP2MRTreeChecked (hashes : ScriptHashes) (leaves : List P2MRTreeLeaf) :
    Except TreeFailure P2MRBuilder := do
  if leaves = [] then .error (.error "tree must contain at least one leaf")
  else
    let builder ← addLeaves hashes .new leaves
    if !builder.mValid || !builder.isComplete then
      .error (.error "invalid P2MR tree, verify DFS order and depths")
    else
      match builder.finalize with
      | none => .error .aborted
      | some builder => .ok builder

/-! ## The verifier -/

/-- The script verification flags that the branch reads. -/
structure VerifyFlags where
  p2mr : Bool
  discourageUpgradableTaprootVersion : Bool

inductive ScriptError
  | witnessProgramWitnessEmpty
  | witnessProgramMismatch
  | taprootWrongControlSize
  | discourageUpgradableTaprootVersion
  deriving DecidableEq

/-- What the leaf script is executed with. -/
structure LeafExecution where
  stack : List Bytes
  script : Bytes
  annexHash : Option Uint256
  tapleafHash : Uint256
  validationWeightLeft : Nat

/-- How the checks of a witness end: in an error, in success, or in the
execution of a leaf script. -/
inductive WitnessCheck
  | failed (error : ScriptError)
  | succeeded
  | execute (leaf : LeafExecution)

section Verifier

variable (hashes : ScriptHashes)

/-- `VerifyP2MRCommitment`. -/
def verifyP2MRCommitment (control program : Bytes) (tapleafHash : Uint256) : Bool :=
  (absorb (fun k node => computeTapbranchHash hashes k.bytes node) p2mrControlNodeSize tapleafHash
    (control.drop p2mrControlBaseSize)).bytes = program

/-- Take an annex off the stack. -/
def popAnnex (stack : List Bytes) : Option Uint256 × List Bytes :=
  match stack.getLast? with
  | some annex =>
      if 2 ≤ stack.length ∧ annex.head? = some annexTag then
        (some (hashes.sha256 (encodeBytes annex)), stack.dropLast)
      else (none, stack)
  | none => (none, stack)

/-- `GetSerializeSize(witness.stack) + VALIDATION_WEIGHT_OFFSET`. -/
def validationWeight (stack : List Bytes) : Nat :=
  (encodeVarint stack.length ++ stack.flatMap encodeBytes).length + 50

/-- `control.size()` is out of bounds or not a number of nodes. -/
def WrongControlSize (control : Bytes) : Prop :=
  control.length < p2mrControlBaseSize ∨ control.length > p2mrControlMaxSize ∨
    (control.length - p2mrControlBaseSize) % p2mrControlNodeSize ≠ 0

instance (control : Bytes) : Decidable (WrongControlSize control) :=
  inferInstanceAs (Decidable (_ ∨ _ ∨ _))

/-- The branch of `VerifyWitnessProgram` for a program of 32 bytes with witness
version 2, outside of P2SH. -/
def verifyP2MRProgram (flags : VerifyFlags) (witness : List Bytes) (program : Bytes) :
    WitnessCheck :=
  if !flags.p2mr then .succeeded
  else if witness.length = 0 then .failed .witnessProgramWitnessEmpty
  else
    let (annexHash, stack) := popAnnex hashes witness
    match stack.reverse with
    | control :: script :: rest =>
        if WrongControlSize control then .failed .taprootWrongControlSize
        else if control.headD 0 &&& 1 ≠ 1 then .failed .witnessProgramMismatch
        else
          let tapleafHash := computeTapleafHash hashes (control.headD 0 &&& taprootLeafMask) script
          if !verifyP2MRCommitment hashes control program tapleafHash then
            .failed .witnessProgramMismatch
          else if control.headD 0 &&& taprootLeafMask = taprootLeafTapscript then
            .execute ⟨rest.reverse, script, annexHash, tapleafHash, validationWeight witness⟩
          else if flags.discourageUpgradableTaprootVersion then
            .failed .discourageUpgradableTaprootVersion
          else .succeeded
    | _ => .failed .witnessProgramMismatch

end Verifier

/-! ## Branches -/

/-- The root that the branch of a leaf leads to. -/
def climb (hashes : ScriptHashes) (start : Uint256) (branch : List Uint256) : Uint256 :=
  branch.foldl (fun k partner => computeTapbranchHash hashes k.bytes partner.bytes) start

/-- The branch of a leaf leads to a hash and fits a control block below the
given level. -/
structure LeafInfo.Sound (hashes : ScriptHashes) (level : Nat) (root : Uint256)
    (leaf : LeafInfo) : Prop where
  climbs : climb hashes (computeTapleafHash hashes leaf.leafVersion leaf.script)
    leaf.merkleBranch = root
  depth_le : leaf.merkleBranch.length + level ≤ p2mrControlMaxNodeCount
  even : leaf.leafVersion &&& ~~~taprootLeafMask = 0

/-- The leaves of a node are sound for its hash. -/
def NodeInfo.Sound (hashes : ScriptHashes) (level : Nat) (node : NodeInfo) : Prop :=
  ∀ leaf ∈ node.leaves, leaf.Sound hashes level node.hash

namespace P2MRBuilder

variable {hashes : ScriptHashes} {builder : P2MRBuilder}

theorem extendBranch_sound {level : Nat} {root partner : Uint256} {leaf : LeafInfo}
    (sound : leaf.Sound hashes (level + 1) root) :
    (extendBranch partner leaf).Sound hashes level
      (computeTapbranchHash hashes root.bytes partner.bytes) where
  climbs := by
    rw [← sound.climbs]
    exact List.foldl_concat ..
  depth_le := by
    have := sound.depth_le
    simp only [extendBranch, List.length_append, List.length_singleton]
    omega
  even := sound.even

/-- The order of the two nodes does not matter. -/
theorem combine_sound {level : Nat} {a b : NodeInfo} (soundA : a.Sound hashes (level + 1))
    (soundB : b.Sound hashes (level + 1)) : (combine hashes a b).Sound hashes level := by
  intro leaf member
  simp only [combine, List.mem_append, List.mem_map] at member ⊢
  obtain ⟨before, inA, rfl⟩ | ⟨before, inB, rfl⟩ := member
  · exact extendBranch_sound (soundA before inA)
  · rw [computeTapbranchHash_comm]
    exact extendBranch_sound (soundB before inB)

/-- Every node on the stack is sound at its level. -/
def Sound (hashes : ScriptHashes) (builder : P2MRBuilder) : Prop :=
  ∀ level node, Occupied builder.mBranch level node → node.Sound hashes level

/-- A node has a leaf with the script and the version. -/
def HasLeaf (script : Bytes) (leafVersion : UInt8) (node : NodeInfo) : Prop :=
  ∃ leaf ∈ node.leaves, leaf.script = script ∧ leaf.leafVersion = leafVersion

/-- Some node on the stack has the leaf. -/
def Tracks (builder : P2MRBuilder) (script : Bytes) (leafVersion : UInt8) : Prop :=
  ∃ level node, Occupied builder.mBranch level node ∧ HasLeaf script leafVersion node

theorem hasLeaf_combine {script : Bytes} {leafVersion : UInt8} {a b : NodeInfo}
    (either : HasLeaf script leafVersion a ∨ HasLeaf script leafVersion b) :
    HasLeaf script leafVersion (combine hashes a b) := by
  obtain ⟨leaf, member, scriptEq, versionEq⟩ | ⟨leaf, member, scriptEq, versionEq⟩ := either
  · exact ⟨extendBranch b.hash leaf,
      List.mem_append_left _ (List.mem_map_of_mem member), scriptEq, versionEq⟩
  · exact ⟨extendBranch a.hash leaf,
      List.mem_append_right _ (List.mem_map_of_mem member), scriptEq, versionEq⟩

theorem insert_sound {node : NodeInfo} {depth : Nat} (sound : builder.Sound hashes)
    (nodeSound : node.Sound hashes depth) : (builder.insert hashes node depth).Sound hashes := by
  rw [insert]
  split_ifs with out
  · exact sound
  · intro level found occupied
    exact insert_forall (fun _ _ _ => combine_sound) nodeSound sound occupied

theorem insert_tracks {node : NodeInfo} {depth : Nat} {script : Bytes} {leafVersion : UInt8}
    (valid : (builder.insert hashes node depth).mValid = true)
    (somewhere : HasLeaf script leafVersion node ∨ builder.Tracks script leafVersion) :
    (builder.insert hashes node depth).Tracks script leafVersion := by
  rw [insert] at valid ⊢
  split_ifs at valid ⊢ with out
  exact insert_exists (fun _ _ => hasLeaf_combine) (by omega) somewhere valid

theorem valid_of_add {depth : Nat} {script : Bytes} {leafVersion : UInt8}
    (valid : (builder.add hashes depth script leafVersion).mValid = true) :
    builder.mValid = true := by
  rw [add] at valid
  split_ifs at valid with invalid
  · exact valid
  · simpa using invalid

theorem add_of_valid (valid : builder.mValid = true) (depth : Nat) (script : Bytes)
    (leafVersion : UInt8) :
    builder.add hashes depth script leafVersion = builder.insert hashes
      ⟨computeTapleafHash hashes leafVersion script, [⟨script, leafVersion, []⟩]⟩ depth := by
  rw [add, valid]
  rfl

theorem add_sound {depth : Nat} {script : Bytes} {leafVersion : UInt8}
    (sound : builder.Sound hashes) (shallow : depth ≤ p2mrControlMaxNodeCount)
    (even : leafVersion &&& ~~~taprootLeafMask = 0) :
    (builder.add hashes depth script leafVersion).Sound hashes := by
  cases valid : builder.mValid with
  | false =>
      rw [add, valid]
      exact sound
  | true =>
      rw [add_of_valid valid]
      apply insert_sound sound
      intro leaf member
      cases List.mem_singleton.mp member
      exact ⟨rfl, by simpa using shallow, even⟩

theorem add_tracks {depth : Nat} {script script' : Bytes} {leafVersion leafVersion' : UInt8}
    (valid : (builder.add hashes depth script leafVersion).mValid = true)
    (somewhere : (script' = script ∧ leafVersion' = leafVersion) ∨
      builder.Tracks script' leafVersion') :
    (builder.add hashes depth script leafVersion).Tracks script' leafVersion' := by
  have before := valid_of_add valid
  rw [add_of_valid before] at valid ⊢
  apply insert_tracks valid
  obtain ⟨rfl, rfl⟩ | tracked := somewhere
  · exact .inl ⟨_, List.mem_singleton_self _, rfl, rfl⟩
  · exact .inr tracked

theorem valid_of_addLeaves {leaves : List P2MRTreeLeaf} {result : P2MRBuilder}
    (added : addLeaves hashes builder leaves = .ok result) (valid : result.mValid = true) :
    builder.mValid = true := by
  induction leaves generalizing builder with
  | nil =>
      cases added
      exact valid
  | cons leaf leaves ih =>
      rw [addLeaves] at added
      split_ifs at added
      exact valid_of_add (ih added)

/-- The loop keeps the stack sound and loses no leaf. -/
theorem addLeaves_sound {leaves : List P2MRTreeLeaf} {result : P2MRBuilder}
    (sound : builder.Sound hashes) (added : addLeaves hashes builder leaves = .ok result)
    (valid : result.mValid = true) :
    result.Sound hashes ∧
      (∀ script leafVersion, builder.Tracks script leafVersion →
        result.Tracks script leafVersion) ∧
      ∀ leaf ∈ leaves, result.Tracks leaf.script leaf.leafVersion := by
  induction leaves generalizing builder with
  | nil =>
      cases added
      refine ⟨sound, fun _ _ tracked => tracked, ?_⟩
      intro leaf member
      cases member
  | cons leaf leaves ih =>
      rw [addLeaves] at added
      split_ifs at added with deep odd
      have stepValid := valid_of_addLeaves added valid
      obtain ⟨resultSound, kept, tracked⟩ :=
        ih (add_sound sound (by omega) (not_not.mp odd)) added
      refine ⟨resultSound, ?_, ?_⟩
      · intro script leafVersion before
        exact kept _ _ (add_tracks stepValid (.inr before))
      · intro other member
        cases member with
        | head => exact kept _ _ (add_tracks stepValid (.inl ⟨rfl, rfl⟩))
        | tail _ later => exact tracked other later

/-- An accepted tree has one root, and all leaves are below it. -/
theorem root_of_accepted {leaves : List P2MRTreeLeaf}
    (accepted : buildP2MRTreeChecked hashes leaves = .ok builder) :
    ∃ root, builder = ⟨true, [some root], root.hash⟩ ∧ root.Sound hashes 0 ∧
      ∀ leaf ∈ leaves, HasLeaf leaf.script leaf.leafVersion root := by
  rw [buildP2MRTreeChecked] at accepted
  split_ifs at accepted with empty
  cases added : addLeaves hashes .new leaves with
  | error error =>
      rw [added] at accepted
      cases accepted
  | ok result =>
      simp only [added, bind, Except.bind] at accepted
      split_ifs at accepted with incomplete
      simp only [Bool.or_eq_true, Bool.not_eq_true', not_or, Bool.not_eq_false] at incomplete
      obtain ⟨valid, complete⟩ := incomplete
      have newSound : P2MRBuilder.new.Sound hashes := by
        intro level node occupied
        cases occupied
      obtain ⟨sound, -, tracked⟩ := addLeaves_sound newSound added valid
      obtain ⟨mValid, mBranch, mMerkleRoot⟩ := result
      simp only at valid
      subst valid
      simp only [isComplete, Bool.true_and] at complete
      match mBranch with
      | [] =>
          obtain ⟨leaf, member⟩ := List.exists_mem_of_ne_nil _ empty
          obtain ⟨level, node, occupied, -⟩ := tracked leaf member
          cases occupied
      | [some root] =>
          simp only [finalize, isComplete, Bool.true_and, if_true] at accepted
          cases accepted
          refine ⟨root, rfl, sound 0 root rfl, ?_⟩
          intro leaf member
          obtain ⟨level, node, occupied, has⟩ := tracked leaf member
          have first : level = 0 := by
            have := occupied.lt_length
            simp only [List.length_singleton] at this
            omega
          subst first
          cases occupied
          exact has

/-! ## Control blocks -/

theorem controlBlock_length (leaf : LeafInfo) :
    (controlBlock leaf).length = 1 + 32 * leaf.merkleBranch.length := by
  have nodes (branch : List Uint256) :
      (branch.flatMap Uint256.bytes).length = 32 * branch.length := by
    induction branch with
    | nil => rfl
    | cons node branch ih =>
        rw [List.flatMap_cons, List.length_append, ih, node.bytes_length, List.length_cons]
        omega
  rw [controlBlock, List.length_cons, nodes]
  omega

theorem blocks_flatMap_bytes (branch : List Uint256) :
    blocks 32 (branch.flatMap Uint256.bytes) = branch.map Uint256.bytes := by
  induction branch with
  | nil => rfl
  | cons node branch ih =>
      rw [List.flatMap_cons, blocks_block_append node.bytes_length (by decide), ih, List.map_cons]

/-- The verifier climbs the branch in the control block. -/
theorem verifyP2MRCommitment_controlBlock {leaf : LeafInfo} {level : Nat} {root : Uint256}
    (sound : leaf.Sound hashes level root) :
    verifyP2MRCommitment hashes (controlBlock leaf) root.bytes
      (computeTapleafHash hashes leaf.leafVersion leaf.script) = true := by
  have path : (controlBlock leaf).drop p2mrControlBaseSize =
      leaf.merkleBranch.flatMap Uint256.bytes := rfl
  have climbed := sound.climbs
  rw [climb] at climbed
  rw [verifyP2MRCommitment, path, absorb, p2mrControlNodeSize, blocks_flatMap_bytes,
    List.foldl_map, climbed]
  exact decide_eq_true rfl

/-- The first byte of a control block: odd, not the annex tag, and the leaf
version under the mask. -/
theorem controlByte_of_even {leafVersion : UInt8}
    (even : leafVersion &&& ~~~taprootLeafMask = 0) :
    (leafVersion ||| 1) &&& 1 = 1 ∧ leafVersion ||| 1 ≠ annexTag ∧
      (leafVersion ||| 1) &&& taprootLeafMask = leafVersion := by
  have every : ∀ byte : Fin 256, UInt8.ofFin byte &&& ~~~taprootLeafMask = 0 →
      (UInt8.ofFin byte ||| 1) &&& 1 = 1 ∧ UInt8.ofFin byte ||| 1 ≠ annexTag ∧
        (UInt8.ofFin byte ||| 1) &&& taprootLeafMask = UInt8.ofFin byte := by
    decide +kernel
  exact every leafVersion.toFin even

/-- The map of spend data lists the control blocks of the leaves. -/
theorem listed_foldl_mapSetInsert {leaves : List LeafInfo}
    {scripts : List ((Bytes × UInt8) × List Bytes)} {key : Bytes × UInt8} {control : Bytes} :
    Listed (leaves.foldl (fun scripts leaf => mapSetInsert leafKeyLess shortestVectorFirst
        (leaf.script, leaf.leafVersion) (controlBlock leaf) scripts) scripts) key control ↔
      Listed scripts key control ∨
        ∃ leaf ∈ leaves, key = (leaf.script, leaf.leafVersion) ∧ control = controlBlock leaf := by
  induction leaves generalizing scripts with
  | nil => simp
  | cons leaf leaves ih =>
      rw [List.foldl_cons, ih, listed_mapSetInsert]
      simp only [List.mem_cons, exists_eq_or_imp]
      tauto

/-- The spend data of a builder with one root. -/
theorem getSpendData_root (root : NodeInfo) :
    ∃ spendData, getSpendData ⟨true, [some root], root.hash⟩ = some spendData ∧
      spendData.merkleRoot = root.hash ∧
      ∀ key control, Listed spendData.scripts key control ↔
        ∃ leaf ∈ root.leaves, key = (leaf.script, leaf.leafVersion) ∧
          control = controlBlock leaf := by
  refine ⟨_, rfl, rfl, ?_⟩
  intro key control
  rw [listed_foldl_mapSetInsert]
  simp only [not_listed_nil, false_or]

end P2MRBuilder

/-- The checks of the verifier before a leaf script is executed. -/
structure PassesChecks (hashes : ScriptHashes) (program script control : Bytes)
    (leafVersion : UInt8) : Prop where
  size : ¬ WrongControlSize control
  parity : control.headD 0 &&& 1 = 1
  notAnnex : control.head? ≠ some annexTag
  version : control.headD 0 &&& taprootLeafMask = leafVersion
  commitment : verifyP2MRCommitment hashes control program
    (computeTapleafHash hashes (control.headD 0 &&& taprootLeafMask) script) = true

section Spendable

variable {hashes : ScriptHashes}

theorem LeafInfo.Sound.passesChecks {root : Uint256} {leaf : LeafInfo}
    (sound : leaf.Sound hashes 0 root) :
    PassesChecks hashes root.bytes leaf.script (P2MRBuilder.controlBlock leaf)
      leaf.leafVersion := by
  obtain ⟨parity, notAnnex, version⟩ := P2MRBuilder.controlByte_of_even sound.even
  have length := P2MRBuilder.controlBlock_length leaf
  have depth : leaf.merkleBranch.length ≤ 128 := sound.depth_le
  refine ⟨?_, parity, ?_, version, ?_⟩
  · simp only [WrongControlSize, p2mrControlBaseSize, p2mrControlMaxSize, p2mrControlNodeSize,
      p2mrControlMaxNodeCount, length]
    omega
  · simpa [P2MRBuilder.controlBlock] using notAnnex
  · have head : (P2MRBuilder.controlBlock leaf).headD 0 = leaf.leafVersion ||| 1 := rfl
    rw [head, version]
    exact P2MRBuilder.verifyP2MRCommitment_controlBlock sound

/-- A witness that passes the checks reaches the end of the branch. -/
theorem verifyP2MRProgram_of_passesChecks {program script control : Bytes} {leafVersion : UInt8}
    (passes : PassesChecks hashes program script control leafVersion) {flags : VerifyFlags}
    (enabled : flags.p2mr = true) (inputs : List Bytes) :
    verifyP2MRProgram hashes flags (inputs ++ [script, control]) program =
      if leafVersion = taprootLeafTapscript then
        .execute ⟨inputs, script, none, computeTapleafHash hashes leafVersion script,
          validationWeight (inputs ++ [script, control])⟩
      else if flags.discourageUpgradableTaprootVersion then
        .failed .discourageUpgradableTaprootVersion
      else .succeeded := by
  have last : (inputs ++ [script, control]).getLast? = some control := by simp
  have annex : popAnnex hashes (inputs ++ [script, control]) =
      (none, inputs ++ [script, control]) := by
    rw [popAnnex, last]
    exact if_neg fun isAnnex => passes.notAnnex isAnnex.2
  have popped : (inputs ++ [script, control]).reverse = control :: script :: inputs.reverse := by
    simp
  have commitment := passes.commitment
  rw [passes.version] at commitment
  simp only [verifyP2MRProgram, enabled, annex, popped, if_neg passes.size, passes.parity,
    passes.version, commitment, List.reverse_reverse]
  simp

/-- Trees that are accepted can be spent: every control block listed for a leaf
passes the checks of the verifier against the output, and every leaf has one. -/
theorem buildP2MRTreeChecked_spendable {leaves : List P2MRTreeLeaf} {builder : P2MRBuilder}
    (accepted : buildP2MRTreeChecked hashes leaves = .ok builder) :
    ∃ spendData, builder.getSpendData = some spendData ∧
      (∀ script leafVersion control, Listed spendData.scripts (script, leafVersion) control →
        PassesChecks hashes builder.getOutput.bytes script control leafVersion ∧
        ∀ (flags : VerifyFlags) (inputs : List Bytes), flags.p2mr = true →
          verifyP2MRProgram hashes flags (inputs ++ [script, control])
              builder.getOutput.bytes =
            if leafVersion = taprootLeafTapscript then
              .execute ⟨inputs, script, none, computeTapleafHash hashes leafVersion script,
                validationWeight (inputs ++ [script, control])⟩
            else if flags.discourageUpgradableTaprootVersion then
              .failed .discourageUpgradableTaprootVersion
            else .succeeded) ∧
      ∀ leaf ∈ leaves, ∃ control,
        Listed spendData.scripts (leaf.script, leaf.leafVersion) control := by
  obtain ⟨root, rfl, sound, tracked⟩ := P2MRBuilder.root_of_accepted accepted
  obtain ⟨spendData, returned, -, listed⟩ := P2MRBuilder.getSpendData_root root
  refine ⟨spendData, returned, ?_, ?_⟩
  · intro script leafVersion control isListed
    obtain ⟨leaf, member, keyEq, rfl⟩ := (listed _ _).mp isListed
    cases keyEq
    have passes := (sound leaf member).passesChecks
    exact ⟨passes, fun flags inputs enabled =>
      verifyP2MRProgram_of_passesChecks passes enabled inputs⟩
  · intro leaf member
    obtain ⟨info, inRoot, scriptEq, versionEq⟩ := tracked leaf member
    exact ⟨P2MRBuilder.controlBlock info,
      (listed _ _).mpr ⟨info, inRoot, by rw [scriptEq, versionEq], rfl⟩⟩

/-- Hashers that pad or cut to 32 bytes. -/
def paddingHashes : ScriptHashes where
  sha256 data := ⟨(data ++ List.replicate 32 0).take 32, by simp⟩
  hasherTapleaf data := ⟨(data ++ List.replicate 32 0).take 32, by simp⟩
  hasherTapbranch data := ⟨(data ++ List.replicate 32 0).take 32, by simp⟩

/-- Two equal leaves and one above them. -/
def repeatedLeaves : List P2MRTreeLeaf :=
  [⟨2, 0xc0, [0x51]⟩, ⟨2, 0xc0, [0x51]⟩, ⟨1, 0xc2, [0x52]⟩]

theorem repeatedLeaves_spendable :
    ∃ builder spendData, buildP2MRTreeChecked paddingHashes repeatedLeaves = .ok builder ∧
      builder.getSpendData = some spendData ∧
      ∃ control, Listed spendData.scripts ([0x51], 0xc0) control ∧
        PassesChecks paddingHashes builder.getOutput.bytes [0x51] control 0xc0 := by
  obtain ⟨builder, accepted⟩ : ∃ builder,
      buildP2MRTreeChecked paddingHashes repeatedLeaves = .ok builder := ⟨_, rfl⟩
  obtain ⟨spendData, returned, passes, listed⟩ := buildP2MRTreeChecked_spendable accepted
  obtain ⟨control, isListed⟩ := listed ⟨2, 0xc0, [0x51]⟩ (List.mem_cons_self ..)
  exact ⟨builder, spendData, accepted, returned, control, isListed,
    (passes _ _ _ isListed).1⟩

end Spendable

end QuantyCoin
