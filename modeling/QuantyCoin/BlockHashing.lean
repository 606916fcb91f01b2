import Mathlib.Data.List.Basic
import Mathlib.Tactic.Common

/-!
# Hashing a string block by block

An iterated hash cuts a string into blocks of a fixed size and folds a
compression function over them.  A streaming hasher compresses a block as soon
as it is complete, so what matters is that the state after the complete blocks
of a string does not depend on how the string arrives.  Two compression
functions give the same state as long as they agree at the blocks and states
that one of them meets.
-/

namespace BlockHashing

variable {α β σ : Type*}

/-- The complete blocks of a string. -/
def blocks (size : Nat) (data : List α) : List (List α) :=
  (List.range (data.length / size)).map fun i => (data.drop (size * i)).take size

/-- The state after the complete blocks of a string. -/
def absorb (compress : σ → List α → σ) (size : Nat) (state : σ) (data : List α) : σ :=
  (blocks size data).foldl compress state

section Blocks

variable {size : Nat} {data first second : List α}

theorem blocks_of_lt (short : data.length < size) : blocks size data = [] := by
  rw [blocks, Nat.div_eq_of_lt short]
  rfl

theorem blocks_block_append (complete : first.length = size) (positive : 0 < size) :
    blocks size (first ++ second) = first :: blocks size second := by
  have count : (first ++ second).length / size = second.length / size + 1 := by
    rw [List.length_append, complete, Nat.add_comm, Nat.add_div_right _ positive]
  rw [blocks, count, List.range_succ_eq_map, List.map_cons, List.map_map]
  congr 1
  · rw [Nat.mul_zero, List.drop_zero, List.take_append_of_le_length (by omega), ← complete,
      List.take_length]
  · apply List.map_congr_left
    intro i _
    have start : size * (i + 1) = first.length + size * i := by
      rw [complete, Nat.mul_succ, Nat.add_comm]
    rw [Function.comp_apply, Nat.succ_eq_add_one, start, List.drop_length_add_append]

theorem blocks_eq_singleton (complete : data.length = size) (positive : 0 < size) :
    blocks size data = [data] := by
  rw [← List.append_nil data, blocks_block_append complete positive,
    blocks_of_lt (by simpa using positive), List.append_nil]

/-- A string of complete blocks is cut independently of what follows. -/
theorem blocks_append (aligned : size ∣ first.length) (positive : 0 < size) :
    blocks size (first ++ second) = blocks size first ++ blocks size second := by
  obtain ⟨count, lengthEq⟩ := aligned
  induction count generalizing first with
  | zero =>
      have empty : first = [] := List.eq_nil_of_length_eq_zero (by simpa using lengthEq)
      subst first
      have none : blocks size ([] : List α) = [] := blocks_of_lt (by simpa using positive)
      rw [none, List.nil_append, List.nil_append]
  | succ count ih =>
      have headLength : (first.take size).length = size := by
        rw [List.length_take, lengthEq, Nat.mul_succ]
        omega
      have tailLength : (first.drop size).length = size * count := by
        rw [List.length_drop, lengthEq, Nat.mul_succ]
        omega
      have split : blocks size first = first.take size :: blocks size (first.drop size) := by
        conv_lhs => rw [← List.take_append_drop size first]
        exact blocks_block_append headLength positive
      conv_lhs => rw [← List.take_append_drop size first, List.append_assoc]
      rw [blocks_block_append headLength positive, ih tailLength, split]
      rfl

theorem length_of_mem_blocks {block : List α} (member : block ∈ blocks size data) :
    block.length = size := by
  obtain ⟨i, inside, rfl⟩ := List.mem_map.mp member
  have bound : size * (i + 1) ≤ data.length := by
    calc
      size * (i + 1) ≤ size * (data.length / size) :=
        Nat.mul_le_mul_left size (List.mem_range.mp inside)
      _ ≤ data.length := Nat.mul_div_le data.length size
  rw [Nat.mul_succ] at bound
  rw [List.length_take, List.length_drop]
  omega

end Blocks

section Absorb

variable {compress : σ → List α → σ} {size : Nat} {data first second : List α} {state : σ}

theorem absorb_of_lt (short : data.length < size) : absorb compress size state data = state := by
  rw [absorb, blocks_of_lt short]
  rfl

theorem absorb_append (aligned : size ∣ first.length) (positive : 0 < size) :
    absorb compress size state (first ++ second) =
      absorb compress size (absorb compress size state first) second := by
  rw [absorb, blocks_append aligned positive, List.foldl_append]
  rfl

theorem absorb_block_append (complete : first.length = size) (positive : 0 < size) :
    absorb compress size state (first ++ second) =
      absorb compress size (compress state first) second := by
  rw [absorb, blocks_block_append complete positive]
  rfl

theorem absorb_block (complete : first.length = size) (positive : 0 < size) :
    absorb compress size state first = compress state first := by
  rw [← List.append_nil first, absorb_block_append complete positive,
    absorb_of_lt (by simpa using positive), List.append_nil]

end Absorb

/-! ## Two compression functions -/

/-- A property holds at every block with the state the fold has reached. -/
def Along (compress : σ → β → σ) (property : σ → β → Prop) : σ → List β → Prop
  | _, [] => True
  | state, block :: rest =>
      property state block ∧ Along compress property (compress state block) rest

section Agreement

variable {compress other : σ → β → σ} {property : σ → β → Prop}

theorem along_append {state : σ} {first second : List β} :
    Along compress property state (first ++ second) ↔
      Along compress property state first ∧
        Along compress property (first.foldl compress state) second := by
  induction first generalizing state with
  | nil => simp [Along]
  | cons block rest ih => simp [Along, ih, and_assoc]

variable (agree : ∀ state block, property state block ↔ compress state block = other state block)

include agree

theorem foldl_eq_of_along {state : σ} {blocks : List β}
    (along : Along compress property state blocks) :
    blocks.foldl compress state = blocks.foldl other state := by
  induction blocks generalizing state with
  | nil => rfl
  | cons block rest ih =>
      have head := (agree state block).mp along.1
      rw [List.foldl_cons, List.foldl_cons, ← head]
      exact ih along.2

/-- When the functions agree before the last block, the results tell whether
they agree there too. -/
theorem foldl_eq_iff_along {state : σ} {blocks : List β}
    (before : Along compress property state blocks.dropLast) :
    blocks.foldl compress state = blocks.foldl other state ↔
      Along compress property state blocks := by
  refine ⟨?_, foldl_eq_of_along agree⟩
  intro same
  rcases List.eq_nil_or_concat' blocks with rfl | ⟨initial, last, rfl⟩
  · trivial
  · rw [List.dropLast_concat] at before
    rw [List.foldl_append, List.foldl_append, ← foldl_eq_of_along agree before] at same
    exact along_append.mpr ⟨before, (agree _ last).mpr same, trivial⟩

end Agreement

end BlockHashing
