import QuantyCoin.TreeStack

/-!
# Full binary trees and their listings

A full binary tree is described by the depths of its leaves in depth-first
order.  Inserting the listed leaves on a stack builds the tree again, and every
list that leaves one finished root on the stack is the listing of a tree.
-/

namespace TreeStack

variable {Leaf Node Other : Type*}

/-- A binary tree in which every inner node has two children. -/
inductive FullTree (Leaf : Type*)
  | leaf (label : Leaf)
  | node (left right : FullTree Leaf)

namespace FullTree

/-- The leaves in depth-first order with their depths, below a level. -/
def listing (level : Nat) : FullTree Leaf → List (Nat × Leaf)
  | leaf label => [(level, label)]
  | node left right => left.listing (level + 1) ++ right.listing (level + 1)

/-- The depths of the leaves. -/
def leafDepths (tree : FullTree Leaf) : List Nat :=
  (tree.listing 0).map Prod.fst

/-- The leaves in depth-first order. -/
def leaves (tree : FullTree Leaf) : List Leaf :=
  (tree.listing 0).map Prod.snd

/-- The tree without its labels. -/
def shape : FullTree Leaf → FullTree Unit
  | leaf _ => leaf ()
  | node left right => node left.shape right.shape

/-- The value of a tree, if the newer child is combined with the older one. -/
def fold (atLeaf : Leaf → Node) (combine : Node → Node → Node) : FullTree Leaf → Node
  | leaf label => atLeaf label
  | node left right => combine (right.fold atLeaf combine) (left.fold atLeaf combine)

/-- The tree with left and right exchanged everywhere. -/
def mirror : FullTree Leaf → FullTree Leaf
  | leaf label => leaf label
  | node left right => node right.mirror left.mirror

@[simp]
theorem mirror_mirror (tree : FullTree Leaf) : tree.mirror.mirror = tree := by
  induction tree with
  | leaf label => rfl
  | node left right leftIH rightIH => rw [mirror, mirror, leftIH, rightIH]

theorem mirror_listing_perm (tree : FullTree Leaf) (level : Nat) :
    (tree.mirror.listing level).Perm (tree.listing level) := by
  induction tree generalizing level with
  | leaf label => exact List.Perm.refl _
  | node left right leftIH rightIH =>
      rw [mirror, listing, listing]
      exact ((rightIH (level + 1)).append (leftIH (level + 1))).trans List.perm_append_comm

theorem map_snd_listing (tree : FullTree Leaf) (level other : Nat) :
    (tree.listing level).map Prod.snd = (tree.listing other).map Prod.snd := by
  induction tree generalizing level other with
  | leaf label => rfl
  | node left right leftIH rightIH =>
      rw [listing, listing, List.map_append, List.map_append, leftIH (level + 1) (other + 1),
        rightIH (level + 1) (other + 1)]

theorem leaves_node (left right : FullTree Leaf) :
    (node left right).leaves = left.leaves ++ right.leaves := by
  rw [leaves, listing, List.map_append, map_snd_listing left 1 0, map_snd_listing right 1 0]
  rfl

theorem listing_zip (tree : FullTree Leaf) :
    tree.listing 0 = tree.leafDepths.zip tree.leaves := by
  rw [leafDepths, leaves, ← List.unzip_fst, ← List.unzip_snd, List.zip_unzip]

theorem map_fst_listing_shape (tree : FullTree Leaf) (level : Nat) :
    (tree.shape.listing level).map Prod.fst = (tree.listing level).map Prod.fst := by
  induction tree generalizing level with
  | leaf label => rfl
  | node left right leftIH rightIH =>
      rw [shape, listing, listing, List.map_append, List.map_append, leftIH, rightIH]

/-- Every shape can be labelled with any list of as many labels. -/
theorem exists_labelled (shape : FullTree Unit) (level : Nat) (labels : List Leaf)
    (enough : labels.length = (shape.listing level).length) :
    ∃ tree : FullTree Leaf, tree.shape = shape ∧
      (tree.listing level).map Prod.snd = labels := by
  induction shape generalizing level labels with
  | leaf label =>
      match labels, enough with
      | [label], _ => exact ⟨leaf label, rfl, rfl⟩
  | node left right leftIH rightIH =>
      rw [listing, List.length_append] at enough
      obtain ⟨leftTree, rfl, leftLabels⟩ :=
        leftIH (level + 1) (labels.take (left.listing (level + 1)).length) (by
          rw [List.length_take]
          omega)
      obtain ⟨rightTree, rfl, rightLabels⟩ :=
        rightIH (level + 1) (labels.drop (leftTree.shape.listing (level + 1)).length) (by
          rw [List.length_drop]
          omega)
      refine ⟨node leftTree rightTree, rfl, ?_⟩
      rw [listing, List.map_append, leftLabels, rightLabels, List.take_append_drop]

/-- Leaves are listed by a tree of a given shape if their depths are. -/
theorem exists_listing {shape : FullTree Unit} {items : List (Nat × Leaf)}
    (depths : shape.leafDepths = items.map Prod.fst) :
    ∃ tree : FullTree Leaf, tree.shape = shape ∧ tree.listing 0 = items := by
  have enough : (items.map Prod.snd).length = (shape.listing 0).length := by
    rw [List.length_map, ← @List.length_map _ _ items Prod.fst, ← depths, leafDepths, List.length_map]
  obtain ⟨tree, rfl, labels⟩ := exists_labelled shape 0 (items.map Prod.snd) enough
  refine ⟨tree, rfl, ?_⟩
  rw [leafDepths, map_fst_listing_shape] at depths
  rw [listing_zip, leafDepths, leaves, depths, labels, ← List.unzip_fst, ← List.unzip_snd,
    List.zip_unzip]

theorem leafDepths_shape (tree : FullTree Leaf) : tree.shape.leafDepths = tree.leafDepths :=
  map_fst_listing_shape tree 0

end FullTree

/-! ## Building -/

section Insert

variable {combine : Node → Node → Node}

/-- Insert a node, unless its level is above the unfinished ones. -/
def insertListed (combine : Node → Node → Node) (stack : Bool × List (Option Node))
    (item : Nat × Node) : Bool × List (Option Node) :=
  if stack.1 = false then stack
  else if item.1 + 1 < stack.2.length then (false, stack.2)
  else insert combine item.2 item.1 stack.2

/-- The last slot is written behind the slots of the levels above it. -/
theorem put_eq {slots : List (Option Node)} {level : Nat} (short : slots.length ≤ level + 1)
    (node : Node) :
    put slots level node =
      slots.take level ++ List.replicate (level - slots.length) none ++ [some node] := by
  have length : (slots ++ List.replicate (level + 1 - slots.length) none).length = level + 1 := by
    rw [List.length_append, List.length_replicate]
    omega
  rw [put, List.set_eq_take_append_cons_drop, if_pos (by omega), List.drop_of_length_le (Nat.le_of_eq length),
    List.take_append, List.take_replicate]
  congr 3
  omega

/-- Combining with the left sibling leaves the stack as it was before it. -/
theorem insert_put {slots : List (Option Node)} {level : Nat}
    (short : slots.length ≤ level + 1) (left right : Node) :
    insert combine right (level + 1) (put slots (level + 1) left) =
      insert combine (combine right left) level slots := by
  have before : (put slots (level + 1) left).dropLast =
      slots ++ List.replicate (level + 1 - slots.length) none := by
    rw [put_eq (by omega), List.dropLast_concat, List.take_of_length_le short]
  have occupied : (put slots (level + 1) left)[level + 1]? = some (some left) := occupied_put_self
  rw [insert, occupied]
  simp only [before]
  obtain full | free : slots.length = level + 1 ∨ slots.length ≤ level := by omega
  · rw [full, Nat.sub_self, List.replicate_zero, List.append_nil]
  · have empty : (slots ++ List.replicate (level + 1 - slots.length) none)[level]? =
        some none := by
      rw [List.getElem?_append_right free, List.getElem?_replicate, if_pos (by omega)]
    have absent : slots[level]? = none := List.getElem?_eq_none free
    have padded : put (slots ++ List.replicate (level + 1 - slots.length) none) level
        (combine right left) = put slots level (combine right left) := by
      have filled : level + 1 -
          (slots ++ List.replicate (level + 1 - slots.length) none).length = 0 := by
        rw [List.length_append, List.length_replicate]
        omega
      rw [put, filled, List.replicate_zero, List.append_nil, put]
    unfold insert
    rw [empty, absent]
    simp only [padded]

theorem insertListed_of_invalid {stack : Bool × List (Option Node)} (invalid : stack.1 = false)
    (items : List (Nat × Node)) : items.foldl (insertListed combine) stack = stack := by
  induction items with
  | nil => rfl
  | cons item items ih => rw [List.foldl_cons, insertListed, if_pos invalid, ih]

theorem insertListed_of_short {slots : List (Option Node)} {item : Nat × Node}
    (short : slots.length ≤ item.1 + 1) :
    insertListed combine (true, slots) item = insert combine item.2 item.1 slots := by
  rw [insertListed, if_neg (by simp), if_neg (by simpa using short)]

/-- Inserting the listing of a tree is inserting its value. -/
theorem foldl_listing (atLeaf : Leaf → Node) (tree : FullTree Leaf) {level : Nat}
    {slots : List (Option Node)} (short : slots.length ≤ level + 1) :
    ((tree.listing level).map (Prod.map id atLeaf)).foldl (insertListed combine) (true, slots) =
      insert combine (tree.fold atLeaf combine) level slots := by
  induction tree generalizing level slots with
  | leaf label => exact insertListed_of_short short
  | node left right leftIH rightIH =>
      have absent : slots[level + 1]? = none := List.getElem?_eq_none short
      have first : insert combine (left.fold atLeaf combine) (level + 1) slots =
          (true, put slots (level + 1) (left.fold atLeaf combine)) := by
        rw [insert, absent]
      have length : (put slots (level + 1) (left.fold atLeaf combine)).length ≤ level + 2 := by
        rw [put, List.length_set, List.length_append, List.length_replicate]
        omega
      rw [FullTree.listing, List.map_append, List.foldl_append, leftIH (by omega), first,
        rightIH length, insert_put short]
      rfl

/-- The listing of a whole tree leaves its value as the only node. -/
theorem foldl_listing_root (atLeaf : Leaf → Node) (tree : FullTree Leaf) :
    ((tree.listing 0).map (Prod.map id atLeaf)).foldl (insertListed combine) (true, []) =
      (true, [some (tree.fold atLeaf combine)]) := by
  rw [foldl_listing atLeaf tree (Nat.zero_le _)]
  rfl

/-! ## Values of trees -/

/-- Inserting commutes with a map that respects combining. -/
theorem insert_map {image : Node → Other} {combine' : Other → Other → Other}
    (respects : ∀ newer older, image (combine newer older) = combine' (image newer) (image older))
    (node : Node) (level : Nat) (slots : List (Option Node)) :
    insert combine' (image node) level (slots.map (Option.map image)) =
      Prod.map id (List.map (Option.map image)) (insert combine node level slots) := by
  have written (node : Node) (level : Nat) (slots : List (Option Node)) :
      put (slots.map (Option.map image)) level (image node) =
        (put slots level node).map (Option.map image) := by
    rw [put, put, List.map_set, List.map_append, List.map_replicate, List.length_map]
    rfl
  induction level generalizing node slots with
  | zero =>
      unfold insert
      rw [List.getElem?_map]
      rcases slots[0]? with _ | _ | sibling
      · simp [written]
      · simp [written]
      · simp [List.map_dropLast]
  | succ level ih =>
      unfold insert
      rw [List.getElem?_map]
      rcases slots[level + 1]? with _ | _ | sibling
      · simp [written]
      · simp [written]
      · simp [← ih, respects, List.map_dropLast]

theorem foldl_insertListed_map {image : Node → Other} {combine' : Other → Other → Other}
    (respects : ∀ newer older, image (combine newer older) = combine' (image newer) (image older))
    (items : List (Nat × Node)) (stack : Bool × List (Option Node)) :
    (items.map (Prod.map id image)).foldl (insertListed combine')
        (Prod.map id (List.map (Option.map image)) stack) =
      Prod.map id (List.map (Option.map image)) (items.foldl (insertListed combine) stack) := by
  induction items generalizing stack with
  | nil => rfl
  | cons item items ih =>
      obtain ⟨level, node⟩ := item
      have step : insertListed combine' (Prod.map id (List.map (Option.map image)) stack)
          (level, image node) =
            Prod.map id (List.map (Option.map image)) (insertListed combine stack (level, node)) := by
        obtain ⟨valid, slots⟩ := stack
        simp only [insertListed, Prod.map, id_eq, List.length_map]
        split_ifs
        · rfl
        · rfl
        · exact insert_map respects node level slots
      rw [List.map_cons, List.foldl_cons, List.foldl_cons, ← ih, ← step]
      rfl

end Insert

/-! ## Every accepted list is a listing -/

/-- The leaves of the trees on a stack, from a level on. -/
def listedFrom (level : Nat) : List (Option (FullTree Leaf)) → List (Nat × Leaf)
  | [] => []
  | none :: slots => listedFrom (level + 1) slots
  | some tree :: slots => tree.listing level ++ listedFrom (level + 1) slots

theorem listedFrom_append (level : Nat) (slots others : List (Option (FullTree Leaf))) :
    listedFrom level (slots ++ others) =
      listedFrom level slots ++ listedFrom (level + slots.length) others := by
  induction slots generalizing level with
  | nil => rfl
  | cons slot slots ih =>
      cases slot <;>
        simp [listedFrom, ih, Nat.add_assoc, Nat.add_comm 1]

theorem listedFrom_replicate_none (level count : Nat) :
    listedFrom level (List.replicate count (none : Option (FullTree Leaf))) = [] := by
  induction count generalizing level with
  | zero => rfl
  | succ count ih => rw [List.replicate_succ, listedFrom, ih]

/-- The node of two trees, the newer one on the right. -/
def join (newer older : FullTree Leaf) : FullTree Leaf := .node older newer

/-- Inserting a tree lists its leaves behind the earlier ones. -/
theorem listedFrom_insert {tree : FullTree Leaf} {level : Nat}
    {slots : List (Option (FullTree Leaf))} (short : slots.length ≤ level + 1)
    (proper : (insert join tree level slots).1 = true) :
    listedFrom 0 (insert join tree level slots).2 =
      listedFrom 0 slots ++ tree.listing level := by
  have written (tree : FullTree Leaf) (level : Nat) (slots : List (Option (FullTree Leaf)))
      (short : slots.length ≤ level + 1) (free : ∀ sibling, slots[level]? ≠ some (some sibling)) :
      listedFrom 0 (put slots level tree) = listedFrom 0 slots ++ tree.listing level := by
    have kept : listedFrom 0 (slots.take level) = listedFrom 0 slots := by
      obtain full | below : slots.length = level + 1 ∨ slots.length ≤ level := by omega
      · have last : slots = slots.take level ++ [slots[level]] := by
          rw [List.take_append_getElem, List.take_of_length_le (Nat.le_of_eq full)]
        have empty : slots[level] = none := by
          cases slot : slots[level] with
          | none => rfl
          | some sibling =>
              exact absurd (List.getElem?_eq_some_iff.mpr ⟨by omega, slot⟩) (free sibling)
        conv_rhs => rw [last, listedFrom_append, empty]
        simp [listedFrom]
      · rw [List.take_of_length_le below]
    have reached : (slots.take level ++
        List.replicate (level - slots.length) (none : Option (FullTree Leaf))).length = level := by
      rw [List.length_append, List.length_take, List.length_replicate]
      omega
    rw [put_eq short, listedFrom_append, listedFrom_append, listedFrom_replicate_none, kept,
      reached, Nat.zero_add]
    simp [listedFrom]
  induction level generalizing tree slots with
  | zero =>
      unfold insert at proper ⊢
      split
      · rename_i sibling slot
        simp [slot] at proper
      · rename_i free
        exact written tree 0 slots short fun sibling slot => free sibling slot
  | succ level ih =>
      unfold insert at proper ⊢
      split
      · rename_i sibling slot
        simp only [slot] at proper
        have below := Occupied.lt_length slot
        have last : slots = slots.dropLast ++ [some sibling] := by
          obtain ⟨inside, found⟩ := List.getElem?_eq_some_iff.mp slot
          have full : slots.length = level + 2 := by omega
          rw [← found, List.dropLast_eq_take, full]
          simp only [Nat.add_succ_sub_one]
          rw [List.take_append_getElem, List.take_of_length_le (Nat.le_of_eq full)]
        have length : slots.dropLast.length = level + 1 := by
          rw [List.length_dropLast]
          omega
        rw [ih (by omega) proper]
        conv_rhs => rw [last, listedFrom_append, length]
        simp [listedFrom, join, FullTree.listing]
      · rename_i free
        exact written tree (level + 1) slots short fun sibling slot => free sibling slot

/-- As long as nothing is rejected, the trees on the stack list what was inserted. -/
theorem listedFrom_foldl {items : List (Nat × Leaf)} {slots : List (Option (FullTree Leaf))}
    (proper : ((items.map (Prod.map id FullTree.leaf)).foldl (insertListed join)
      (true, slots)).1 = true) :
    listedFrom 0 ((items.map (Prod.map id FullTree.leaf)).foldl (insertListed join)
      (true, slots)).2 = listedFrom 0 slots ++ items := by
  induction items generalizing slots with
  | nil => simp
  | cons item items ih =>
      obtain ⟨level, label⟩ := item
      simp only [List.map_cons, List.foldl_cons, Prod.map, id_eq] at proper ⊢
      cases step : insertListed join (true, slots) (level, FullTree.leaf label) with
      | mk valid after =>
          rw [step] at proper
          cases valid with
          | false =>
              rw [insertListed_of_invalid rfl] at proper
              cases proper
          | true =>
              rw [ih proper]
              have short : slots.length ≤ level + 1 := by
                by_contra deep
                rw [insertListed, if_neg (by simp), if_pos (by simpa using deep)] at step
                cases step
              rw [insertListed_of_short short] at step
              have grown := @listedFrom_insert _ (FullTree.leaf label) level slots short
                (by rw [step])
              rw [step] at grown
              rw [grown, List.append_assoc]
              rfl

/-- A stack on which something was inserted is not empty. -/
theorem foldl_insertListed_ne_nil {combine : Node → Node → Node} {items : List (Nat × Node)}
    (nonempty : items ≠ []) {stack : Bool × List (Option Node)}
    (proper : (items.foldl (insertListed combine) stack).1 = true) :
    (items.foldl (insertListed combine) stack).2 ≠ [] := by
  have inserted (node : Node) (level : Nat) (slots : List (Option Node))
      (proper : (insert combine node level slots).1 = true) :
      (insert combine node level slots).2 ≠ [] := by
    induction level generalizing node slots with
    | zero =>
        unfold insert at proper ⊢
        split
        · rename_i sibling slot
          simp [slot] at proper
        · exact List.ne_nil_of_length_pos (Nat.zero_lt_of_lt occupied_put_self.lt_length)
    | succ level ih =>
        unfold insert at proper ⊢
        split
        · rename_i sibling slot
          simp only [slot] at proper
          exact ih _ _ proper
        · exact List.ne_nil_of_length_pos (Nat.zero_lt_of_lt occupied_put_self.lt_length)
  obtain ⟨front, last, rfl⟩ := List.eq_nil_or_concat' items |>.resolve_left nonempty
  rw [List.foldl_concat] at proper ⊢
  rw [insertListed] at proper ⊢
  split_ifs at proper ⊢ with invalid above
  · exact absurd proper (by rw [invalid]; decide)
  · exact inserted _ _ _ proper

/-- A list leaves one finished node exactly if it is the listing of a tree, and
the node is the value of the tree. -/
theorem foldl_insertListed_root_iff {combine : Node → Node → Node} (atLeaf : Leaf → Node)
    (items : List (Nat × Leaf)) (root : Node) :
    (items.map (Prod.map id atLeaf)).foldl (insertListed combine) (true, []) =
        (true, [some root]) ↔
      ∃ tree : FullTree Leaf, tree.listing 0 = items ∧ tree.fold atLeaf combine = root := by
  constructor
  · intro built
    have respects (newer older : FullTree Leaf) :
        (join newer older).fold atLeaf combine =
          combine (newer.fold atLeaf combine) (older.fold atLeaf combine) := rfl
    have valued := foldl_insertListed_map respects
      (items.map (Prod.map id FullTree.leaf)) (true, [])
    have labels : (items.map (Prod.map id FullTree.leaf)).map
        (Prod.map id fun tree => tree.fold atLeaf combine) = items.map (Prod.map id atLeaf) := by
      rw [List.map_map]
      rfl
    rw [labels] at valued
    cases run : (items.map (Prod.map id FullTree.leaf)).foldl (insertListed join) (true, []) with
    | mk valid slots =>
        rw [run] at valued
        have same := built.symm.trans valued
        simp only [Prod.map, id_eq, Prod.mk.injEq] at same
        obtain ⟨rfl, isRoot⟩ := same
        obtain ⟨tree, rfl, value⟩ : ∃ tree, slots = [some tree] ∧
            tree.fold atLeaf combine = root := by
          match slots, isRoot with
          | [some tree], isRoot => exact ⟨tree, rfl, by simpa using isRoot.symm⟩
        have listed := @listedFrom_foldl _ items [] (by rw [run])
        rw [run] at listed
        exact ⟨tree, by simpa [listedFrom] using listed, value⟩
  · rintro ⟨tree, rfl, rfl⟩
    exact foldl_listing_root atLeaf tree

/-- Nothing was rejected, and the stack is empty or holds one finished node. -/
def Finished (stack : Bool × List (Option Node)) : Prop :=
  stack = (true, []) ∨ ∃ root, stack = (true, [some root])

/-- A list is finished exactly if it is the listing of a tree. -/
theorem finished_foldl_iff {combine : Node → Node → Node} (atLeaf : Leaf → Node)
    {items : List (Nat × Leaf)} (nonempty : items ≠ []) :
    Finished ((items.map (Prod.map id atLeaf)).foldl (insertListed combine) (true, [])) ↔
      ∃ tree : FullTree Leaf, tree.listing 0 = items := by
  constructor
  · rintro (empty | ⟨root, built⟩)
    · exact absurd (congrArg Prod.snd empty) (foldl_insertListed_ne_nil
        (by simpa using nonempty) (congrArg Prod.fst empty))
    · obtain ⟨tree, listed, -⟩ := (foldl_insertListed_root_iff atLeaf items root).mp built
      exact ⟨tree, listed⟩
  · rintro ⟨tree, listed⟩
    exact .inr ⟨_, (foldl_insertListed_root_iff atLeaf items _).mpr ⟨tree, listed, rfl⟩⟩

end TreeStack
