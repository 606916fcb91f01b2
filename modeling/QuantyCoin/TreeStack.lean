import Mathlib.Data.List.Basic
import Mathlib.Tactic.Common

/-!
# Building a binary tree from its leaves

A binary tree is built from its leaves in depth-first order, on a stack with one
slot for each level.  A slot holds the finished left subtree at its level.  A new
node at the level of a finished one is combined with it, which gives a node one
level up.  Properties of a node at its level pass from the nodes that are
inserted to the ones on the stack.
-/

namespace TreeStack

variable {Node : Type*}

/-- The slot of a level holds a node. -/
def Occupied (slots : List (Option Node)) (level : Nat) (node : Node) : Prop :=
  slots[level]? = some (some node)

/-- Write a slot, with empty ones in front of it where the stack is too short. -/
def put (slots : List (Option Node)) (level : Nat) (node : Node) : List (Option Node) :=
  (slots ++ List.replicate (level + 1 - slots.length) none).set level (some node)

/-- Combine a node with finished subtrees as long as its slot is occupied.  The
Boolean tells that the root has not been combined with anything. -/
def insert (combine : Node → Node → Node) (node : Node) (level : Nat)
    (slots : List (Option Node)) : Bool × List (Option Node) :=
  match slots[level]? with
  | some (some sibling) =>
      match level with
      | 0 => (false, slots.dropLast)
      | level + 1 => insert combine (combine node sibling) level slots.dropLast
  | _ => (true, put slots level node)

section Put

variable {slots : List (Option Node)} {level other : Nat} {node found : Node}

theorem occupied_put_self : Occupied (put slots level node) level node := by
  rw [Occupied, put, List.getElem?_set_self]
  rw [List.length_append, List.length_replicate]
  omega

theorem occupied_put_ne (different : other ≠ level) :
    Occupied (put slots level node) other found ↔ Occupied slots other found := by
  rw [Occupied, Occupied, put, List.getElem?_set_ne (Ne.symm different)]
  by_cases inside : other < slots.length
  · rw [List.getElem?_append_left inside]
  · rw [List.getElem?_append_right (by omega), List.getElem?_replicate,
      List.getElem?_eq_none (by omega)]
    split <;> simp

theorem Occupied.lt_length (occupied : Occupied slots level node) : level < slots.length :=
  (List.getElem?_eq_some_iff.mp occupied).1

theorem Occupied.of_dropLast (occupied : Occupied slots.dropLast level node) :
    Occupied slots level node := by
  have inside := occupied.lt_length
  rw [List.length_dropLast] at inside
  rwa [Occupied, List.getElem?_dropLast, if_pos inside] at occupied

theorem Occupied.dropLast (occupied : Occupied slots level node)
    (below : level + 1 < slots.length) : Occupied slots.dropLast level node := by
  rwa [Occupied, List.getElem?_dropLast, if_pos (by omega)]

end Put

section Insert

variable {combine : Node → Node → Node}

/-- Every node on the stack has a property of its level, if the inserted node
has it and combining passes it one level up. -/
theorem insert_forall {property : Nat → Node → Prop}
    (combined : ∀ level node sibling, property (level + 1) node → property (level + 1) sibling →
      property level (combine node sibling))
    {node : Node} {level : Nat} {slots : List (Option Node)} (holds : property level node)
    (onStack : ∀ position found, Occupied slots position found → property position found)
    {position : Nat} {found : Node}
    (occupied : Occupied (insert combine node level slots).2 position found) :
    property position found := by
  induction level generalizing node slots with
  | zero =>
      unfold insert at occupied
      split at occupied
      · exact onStack position found occupied.of_dropLast
      · by_cases same : position = 0
        · subst same
          cases occupied_put_self.symm.trans occupied
          exact holds
        · exact onStack position found ((occupied_put_ne same).mp occupied)
  | succ level ih =>
      unfold insert at occupied
      split at occupied
      · rename_i sibling slot
        exact ih (combined level node sibling holds (onStack _ _ slot))
          (fun other found' below => onStack other found' below.of_dropLast) occupied
      · by_cases same : position = level + 1
        · subst same
          cases occupied_put_self.symm.trans occupied
          exact holds
        · exact onStack position found ((occupied_put_ne same).mp occupied)

/-- A property that a combination inherits from either side is not lost. -/
theorem insert_exists {property : Node → Prop}
    (inherited : ∀ node sibling, property node ∨ property sibling →
      property (combine node sibling))
    {node : Node} {level : Nat} {slots : List (Option Node)}
    (depthFirst : slots.length ≤ level + 1)
    (somewhere : property node ∨ ∃ position found, Occupied slots position found ∧ property found)
    (proper : (insert combine node level slots).1 = true) :
    ∃ position found,
      Occupied (insert combine node level slots).2 position found ∧ property found := by
  have written (slots : List (Option Node)) (node : Node) (level : Nat)
      (free : ∀ sibling, slots[level]? ≠ some (some sibling))
      (somewhere :
        property node ∨ ∃ position found, Occupied slots position found ∧ property found) :
      ∃ position found, Occupied (put slots level node) position found ∧ property found := by
    obtain holds | ⟨position, found, occupied, holds⟩ := somewhere
    · exact ⟨level, node, occupied_put_self, holds⟩
    · have different : position ≠ level := by
        rintro rfl
        exact free found occupied
      exact ⟨position, found, (occupied_put_ne different).mpr occupied, holds⟩
  induction level generalizing node slots with
  | zero =>
      unfold insert at proper ⊢
      split
      · rename_i sibling slot
        simp [slot] at proper
      · rename_i free
        exact written slots node 0 (fun sibling slot => free sibling slot) somewhere
  | succ level ih =>
      unfold insert at proper ⊢
      split
      · rename_i sibling slot
        simp only [slot] at proper
        have length : slots.length = level + 2 := by
          have := Occupied.lt_length slot
          omega
        refine ih (by rw [List.length_dropLast]; omega) ?_ proper
        obtain holds | ⟨position, found, occupied, holds⟩ := somewhere
        · exact .inl (inherited node sibling (.inl holds))
        · by_cases same : position = level + 1
          · subst same
            cases slot.symm.trans occupied
            exact .inl (inherited node sibling (.inr holds))
          · have := occupied.lt_length
            exact .inr ⟨position, found, occupied.dropLast (by omega), holds⟩
      · rename_i free
        exact written slots node (level + 1) (fun sibling slot => free sibling slot) somewhere

end Insert

end TreeStack
