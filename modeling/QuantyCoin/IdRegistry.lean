import Mathlib.Data.List.Nodup
import Mathlib.Tactic.Common

/-!
# Identifiers issued from a counter

Holders join a registry, are issued identifiers from one counter, and leave.
The registry keeps a value for every identifier of a present holder.  A holder
that leaves takes all its identifiers out of the table, and its list stays as a
record.  In every run an identifier is issued once, so that it never changes
hands.
-/

namespace IdRegistry

variable {α : Type*}

structure Holder where
  ids : List Nat
  live : Bool

/-- A table, the counter and everyone who ever joined. -/
structure Registry (α : Type*) where
  table : Nat → Option α
  next : Nat
  holders : List Holder

/-- An identifier that was issued. -/
structure Grant (α : Type*) where
  holder : Nat
  id : Nat
  value : α

namespace Registry

/-- An empty registry. -/
def empty (first : Nat) : Registry α := ⟨fun _ => none, first, []⟩

def join (registry : Registry α) : Registry α :=
  { registry with holders := registry.holders ++ [⟨[], true⟩] }

/-- Pass over an identifier. -/
def skip (registry : Registry α) : Registry α := { registry with next := registry.next + 1 }

def issue (registry : Registry α) (index : Nat) (ids : List Nat) (value : α) : Registry α where
  table := Function.update registry.table registry.next (some value)
  next := registry.next + 1
  holders := registry.holders.set index ⟨ids ++ [registry.next], true⟩

def leave (registry : Registry α) (index : Nat) (ids : List Nat) : Registry α where
  table := fun id => if id ∈ ids then none else registry.table id
  next := registry.next
  holders := registry.holders.set index ⟨ids, false⟩

end Registry

/-- The registries that can be reached, with everything that was issued on the
way. -/
inductive Run (first : Nat) : List (Grant α) → Registry α → Prop
  | start : Run first [] (.empty first)
  | join {grants registry} (run : Run first grants registry) : Run first grants registry.join
  | skip {grants registry} (run : Run first grants registry) : Run first grants registry.skip
  | issue {grants registry} (run : Run first grants registry) (index : Nat) (ids : List Nat)
      (value : α) (present : registry.holders[index]? = some ⟨ids, true⟩) :
      Run first (grants ++ [⟨index, registry.next, value⟩]) (registry.issue index ids value)
  | leave {grants registry} (run : Run first grants registry) (index : Nat) (ids : List Nat)
      (present : registry.holders[index]? = some ⟨ids, true⟩) :
      Run first grants (registry.leave index ids)

/-- The table holds what was issued to the present holders. -/
structure Consistent (grants : List (Grant α)) (registry : Registry α) : Prop where
  increasing : (grants.map Grant.id).Pairwise (· < ·)
  below : ∀ grant ∈ grants, grant.id < registry.next
  joined : ∀ grant ∈ grants, grant.holder < registry.holders.length
  granted : ∀ index holder, registry.holders[index]? = some holder →
    ∀ id, id ∈ holder.ids ↔ ∃ value, ⟨index, id, value⟩ ∈ grants
  table_iff : ∀ id value, registry.table id = some value ↔
    ∃ index ids, registry.holders[index]? = some ⟨ids, true⟩ ∧ ⟨index, id, value⟩ ∈ grants

section Consistent

variable {first : Nat} {grants : List (Grant α)} {registry : Registry α}

/-- No identifier is issued twice. -/
theorem Consistent.eq_of_id_eq (consistent : Consistent grants registry) {grant grant' : Grant α}
    (member : grant ∈ grants) (member' : grant' ∈ grants) (same : grant.id = grant'.id) :
    grant = grant' := by
  have distinct : (grants.map Grant.id).Nodup :=
    consistent.increasing.imp fun less => Nat.ne_of_lt less
  exact List.inj_on_of_nodup_map distinct member member' same

theorem consistent_empty : Consistent ([] : List (Grant α)) (.empty first) where
  increasing := .nil
  below := by simp
  joined := by simp
  granted := by simp [Registry.empty]
  table_iff := by simp [Registry.empty]

theorem Consistent.join (consistent : Consistent grants registry) :
    Consistent grants registry.join where
  increasing := consistent.increasing
  below := consistent.below
  joined grant member := by
    have := consistent.joined grant member
    simp only [Registry.join, List.length_append]
    omega
  granted index holder found id := by
    simp only [Registry.join, List.getElem?_append] at found
    split_ifs at found with inside
    · exact consistent.granted index holder found id
    · -- the new holder: nothing was issued to its index
      obtain ⟨here, rfl⟩ := List.getElem?_eq_some_iff.mp found
      have last : index = registry.holders.length := by
        simp only [List.length_singleton] at here
        omega
      subst last
      simp only [Nat.sub_self, List.getElem_cons_zero, List.not_mem_nil, false_iff, not_exists]
      intro value member
      exact absurd (consistent.joined _ member) (Nat.lt_irrefl _)
  table_iff id value := by
    simp only [Registry.join]
    rw [consistent.table_iff]
    constructor
    · rintro ⟨index, ids, found, member⟩
      refine ⟨index, ids, ?_, member⟩
      rw [List.getElem?_append_left (consistent.joined _ member)]
      exact found
    · rintro ⟨index, ids, found, member⟩
      rw [List.getElem?_append_left (consistent.joined _ member)] at found
      exact ⟨index, ids, found, member⟩

theorem Consistent.skip (consistent : Consistent grants registry) :
    Consistent grants registry.skip where
  increasing := consistent.increasing
  below grant member := Nat.lt_succ_of_lt (consistent.below grant member)
  joined := consistent.joined
  granted := consistent.granted
  table_iff := consistent.table_iff

theorem Consistent.issue (consistent : Consistent grants registry) {index : Nat} {ids : List Nat}
    (value : α) (present : registry.holders[index]? = some ⟨ids, true⟩) :
    Consistent (grants ++ [⟨index, registry.next, value⟩])
      (registry.issue index ids value) where
  increasing := by
    rw [List.map_append, List.pairwise_append]
    refine ⟨consistent.increasing, by simp, ?_⟩
    intro id earlier id' last
    obtain ⟨grant, member, rfl⟩ := List.mem_map.mp earlier
    cases List.mem_singleton.mp last
    exact consistent.below grant member
  below grant member := by
    rcases List.mem_append.mp member with earlier | last
    · exact Nat.lt_succ_of_lt (consistent.below grant earlier)
    · cases List.mem_singleton.mp last
      exact Nat.lt_succ_self _
  joined grant member := by
    simp only [Registry.issue, List.length_set]
    rcases List.mem_append.mp member with earlier | last
    · exact consistent.joined grant earlier
    · cases List.mem_singleton.mp last
      exact (List.getElem?_eq_some_iff.mp present).1
  granted other holder found id := by
    have inside := (List.getElem?_eq_some_iff.mp present).1
    simp only [Registry.issue, List.mem_append, List.mem_singleton, Grant.mk.injEq] at found ⊢
    by_cases same : other = index
    · subst same
      rw [List.getElem?_set_self inside] at found
      cases found
      rw [List.mem_append, List.mem_singleton, consistent.granted _ _ present id]
      constructor
      · rintro (⟨value', member⟩ | rfl)
        · exact ⟨value', .inl member⟩
        · exact ⟨value, .inr ⟨rfl, rfl, rfl⟩⟩
      · rintro ⟨value', member | ⟨-, rfl, -⟩⟩
        · exact .inl ⟨value', member⟩
        · exact .inr rfl
    · rw [List.getElem?_set_ne (Ne.symm same)] at found
      rw [consistent.granted _ _ found id]
      simp [same]
  table_iff id value' := by
    have inside := (List.getElem?_eq_some_iff.mp present).1
    -- which holders are present does not change
    have live (other : Nat) : (∃ ids', (registry.issue index ids value).holders[other]? =
        some ⟨ids', true⟩) ↔ ∃ ids', registry.holders[other]? = some ⟨ids', true⟩ := by
      simp only [Registry.issue]
      by_cases same : other = index
      · subst same
        rw [List.getElem?_set_self inside, present]
        simp
      · rw [List.getElem?_set_ne (Ne.symm same)]
    have reorder (map : List Holder) (issued : List (Grant α)) :
        (∃ other ids', map[other]? = some ⟨ids', true⟩ ∧ ⟨other, id, value'⟩ ∈ issued) ↔
          ∃ other, (∃ ids', map[other]? = some ⟨ids', true⟩) ∧
            ⟨other, id, value'⟩ ∈ issued := by
      simp only [exists_and_right]
    rw [reorder]
    simp only [live, List.mem_append, List.mem_singleton, Grant.mk.injEq]
    by_cases new : id = registry.next
    · subst new
      have unissued (other : Nat) : (⟨other, registry.next, value'⟩ : Grant α) ∉ grants :=
        fun member => Nat.lt_irrefl _ (consistent.below _ member)
      simp only [Registry.issue, Function.update_self, unissued, false_or, true_and,
        Option.some.injEq]
      constructor
      · rintro rfl
        exact ⟨index, ⟨ids, present⟩, rfl, rfl⟩
      · rintro ⟨other, -, -, rfl⟩
        rfl
    · simp only [Registry.issue, Function.update_of_ne new, new, false_and, and_false, or_false]
      rw [consistent.table_iff, reorder]

theorem Consistent.leave (consistent : Consistent grants registry) {index : Nat} {ids : List Nat}
    (present : registry.holders[index]? = some ⟨ids, true⟩) :
    Consistent grants (registry.leave index ids) where
  increasing := consistent.increasing
  below := consistent.below
  joined grant member := by
    simp only [Registry.leave, List.length_set]
    exact consistent.joined grant member
  granted other holder found id := by
    have inside := (List.getElem?_eq_some_iff.mp present).1
    simp only [Registry.leave] at found
    by_cases same : other = index
    · subst same
      rw [List.getElem?_set_self inside] at found
      cases found
      exact consistent.granted _ _ present id
    · rw [List.getElem?_set_ne (Ne.symm same)] at found
      exact consistent.granted _ _ found id
  table_iff id value := by
    have inside := (List.getElem?_eq_some_iff.mp present).1
    simp only [Registry.leave]
    constructor
    · intro found
      split_ifs at found with gone
      obtain ⟨other, ids', live, member⟩ := (consistent.table_iff id value).mp found
      refine ⟨other, ids', ?_, member⟩
      have different : index ≠ other := by
        rintro rfl
        exact gone ((consistent.granted _ _ present id).mpr ⟨value, member⟩)
      rw [List.getElem?_set_ne different]
      exact live
    · rintro ⟨other, ids', live, member⟩
      have different : index ≠ other := by
        rintro rfl
        rw [List.getElem?_set_self inside] at live
        cases live
      rw [List.getElem?_set_ne different] at live
      have kept : id ∉ ids := by
        intro gone
        obtain ⟨value', member'⟩ := (consistent.granted _ _ present id).mp gone
        exact different (congrArg Grant.holder (consistent.eq_of_id_eq member' member rfl))
      rw [if_neg kept]
      exact (consistent.table_iff id value).mpr ⟨other, ids', live, member⟩

/-- Every reachable registry is consistent. -/
theorem Run.consistent (run : Run first grants registry) : Consistent grants registry := by
  induction run with
  | start => exact consistent_empty
  | join _ ih => exact ih.join
  | skip _ ih => exact ih.skip
  | issue _ index ids value present ih => exact ih.issue value present
  | leave _ index ids present ih => exact ih.leave present

end Consistent

end IdRegistry
