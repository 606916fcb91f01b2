import Mathlib.Data.Finmap
import Mathlib.Tactic.Common

/-!
# Walking parent links in a finite store

Nodes are stored under keys and name the key of their parent.  `walk` follows
parent links until a stopping node or a missing parent; it is bounded by fuel,
and `walk_stable` shows that one unit more than the number of stored keys is
enough for every walk that ends at all.

A `Lineage` is the list of nodes from a root to a node.  Lineages are unique,
repeat no key, and two of them split at one last shared node.
-/

namespace AncestorWalk

variable {K N : Type*} [DecidableEq K]

/-- Follow parent links from a node until a node satisfies `stop` or the
parent is not stored.  The result is the stopping node, if there is one, and
the nodes passed before it; `none` means that the fuel was spent. -/
def walk (store : Finmap fun _ : K => N) (parent : N → K) (stop : N → Bool) :
    Nat → N → Option (Option N × List N)
  | 0, _ => none
  | fuel + 1, node =>
      if stop node then some (some node, [])
      else
        match store.lookup (parent node) with
        | none => some (none, [node])
        | some next =>
            (walk store parent stop fuel next).map fun result =>
              (result.1, node :: result.2)

section Fuel

variable {store : Finmap fun _ : K => N} {parent : N → K} {stop : N → Bool}

/-- One step of a walk that ends. -/
theorem walk_succ_eq_some {fuel : Nat} {node : N} {result : Option N × List N} :
    walk store parent stop (fuel + 1) node = some result ↔
      (stop node = true ∧ result = (some node, [])) ∨
      (stop node = false ∧ store.lookup (parent node) = none ∧
        result = (none, [node])) ∨
      (stop node = false ∧ ∃ next rest,
        store.lookup (parent node) = some next ∧
        walk store parent stop fuel next = some (result.1, rest) ∧
        result.2 = node :: rest) := by
  rw [walk]
  cases stopped : stop node with
  | true => simp [eq_comm]
  | false =>
      cases found : store.lookup (parent node) with
      | none => simp [eq_comm]
      | some next =>
          obtain ⟨last, passed⟩ := result
          simp only [Bool.false_eq_true, if_false, Option.map_eq_some_iff,
            Prod.mk.injEq, Prod.exists, false_and, false_or, true_and,
            reduceCtorEq, Option.some.injEq, exists_and_left, exists_eq_left']
          constructor
          · rintro ⟨_, rest, walked, rfl, rfl⟩
            exact ⟨rest, walked, rfl⟩
          · rintro ⟨rest, walked, rfl⟩
            exact ⟨last, rest, walked, rfl, rfl⟩

/-- Induction over a walk that ends. -/
@[elab_as_elim]
theorem walk_induction {motive : N → Option N → List N → Prop}
    (stops : ∀ node, motive node (some node) [])
    (ends : ∀ node, motive node none [node])
    (passes : ∀ fuel node next last rest, store.lookup (parent node) = some next →
      walk store parent stop fuel next = some (last, rest) → motive next last rest →
      motive node last (node :: rest))
    {fuel : Nat} {node : N} {last : Option N} {passed : List N}
    (walked : walk store parent stop fuel node = some (last, passed)) :
    motive node last passed := by
  induction fuel generalizing node passed with
  | zero => simp [walk] at walked
  | succ fuel ih =>
      rcases walk_succ_eq_some.mp walked with
        ⟨-, result⟩ | ⟨-, -, result⟩ | ⟨-, next, rest, found, walkedRest, result⟩
      · cases result
        exact stops node
      · cases result
        exact ends node
      · dsimp only at result walkedRest
        subst result
        exact passes fuel node next last rest found walkedRest (ih walkedRest)

/-- A walk that ends needs one unit of fuel for every node passed and one for
the stopping node; with that much it gives the same result. -/
theorem walk_of_fuel {fuel fuel' : Nat} {node : N} {last : Option N}
    {passed : List N}
    (walked : walk store parent stop fuel node = some (last, passed))
    (enough : passed.length + last.isSome.toNat ≤ fuel') :
    walk store parent stop fuel' node = some (last, passed) := by
  induction fuel generalizing fuel' node passed with
  | zero => simp [walk] at walked
  | succ fuel ih =>
      rcases walk_succ_eq_some.mp walked with
        ⟨stopped, result⟩ | ⟨stopped, missing, result⟩ |
        ⟨stopped, next, rest, found, walkedRest, result⟩
      · cases result
        obtain ⟨fuel', rfl⟩ : ∃ other, fuel' = other + 1 :=
          ⟨fuel' - 1, by simp at enough; omega⟩
        exact walk_succ_eq_some.mpr (Or.inl ⟨stopped, rfl⟩)
      · cases result
        obtain ⟨fuel', rfl⟩ : ∃ other, fuel' = other + 1 :=
          ⟨fuel' - 1, by simp at enough; omega⟩
        exact walk_succ_eq_some.mpr (Or.inr (Or.inl ⟨stopped, missing, rfl⟩))
      · dsimp only at result walkedRest
        subst result
        obtain ⟨fuel', rfl⟩ : ∃ other, fuel' = other + 1 :=
          ⟨fuel' - 1, by simp at enough; omega⟩
        refine walk_succ_eq_some.mpr (Or.inr (Or.inr
          ⟨stopped, next, rest, found, ih walkedRest ?_, rfl⟩))
        simp only [List.length_cons] at enough
        omega

/-- The result of a walk does not depend on the fuel. -/
theorem walk_unique {fuel fuel' : Nat} {node : N}
    {result result' : Option N × List N}
    (walked : walk store parent stop fuel node = some result)
    (walked' : walk store parent stop fuel' node = some result') :
    result = result' := by
  let common := result.2.length + result.1.isSome.toNat +
    (result'.2.length + result'.1.isSome.toNat)
  have first : walk store parent stop common node = some result :=
    walk_of_fuel walked (by omega)
  have second : walk store parent stop common node = some result' :=
    walk_of_fuel walked' (by omega)
  exact Option.some.inj (first.symm.trans second)

/-- Behind every passed node whose parent is stored the walk goes on from
there. -/
theorem walk_from_passed {fuel : Nat} {node : N} {last : Option N}
    {before after : List N} {member next : N}
    (walked : walk store parent stop fuel node =
      some (last, before ++ member :: after))
    (found : store.lookup (parent member) = some next) :
    ∃ fuel', walk store parent stop fuel' next = some (last, after) := by
  induction fuel generalizing node before with
  | zero => simp [walk] at walked
  | succ fuel ih =>
      rcases walk_succ_eq_some.mp walked with
        ⟨-, result⟩ | ⟨-, missing, result⟩ |
        ⟨-, step, rest, foundStep, walkedRest, result⟩
      · simp at result
      · simp only [Prod.mk.injEq, List.append_eq_singleton_iff, List.cons.injEq,
          reduceCtorEq, and_false, or_false] at result
        obtain ⟨-, -, rfl, -⟩ := result
        rw [missing] at found
        cases found
      · dsimp only at result walkedRest
        cases before with
        | nil =>
            simp only [List.nil_append, List.cons.injEq] at result
            obtain ⟨rfl, rfl⟩ := result
            rw [foundStep] at found
            cases found
            exact ⟨fuel, walkedRest⟩
        | cons first before =>
            simp only [List.cons_append, List.cons.injEq] at result
            obtain ⟨-, rfl⟩ := result
            exact ih walkedRest

/-- A walk that ends never asks for the same parent twice. -/
theorem walk_parents_nodup {fuel : Nat} {node : N} {last : Option N}
    {passed : List N}
    (walked : walk store parent stop fuel node = some (last, passed)) :
    (passed.map parent).Nodup := by
  refine walk_induction ?_ ?_ ?_ walked
  · simp
  · simp
  · intro fuel node next last rest found walkedRest ih
    rw [List.map_cons, List.nodup_cons]
    refine ⟨?_, ih⟩
    intro repeated
    obtain ⟨member, memberOf, sameParent⟩ := List.mem_map.mp repeated
    obtain ⟨before, after, rfl⟩ := List.append_of_mem memberOf
    -- From the repeated parent the walk would have to end twice.
    obtain ⟨fuel', again⟩ := walk_from_passed walkedRest (sameParent ▸ found)
    have same := congrArg (fun result => result.2.length) (walk_unique walkedRest again)
    simp only [List.length_append, List.length_cons] at same
    omega

/-- All passed nodes but the last have stored parents. -/
theorem walk_parents_stored {fuel : Nat} {node : N} {last : Option N}
    {passed : List N}
    (walked : walk store parent stop fuel node = some (last, passed)) :
    ∀ member ∈ (if last.isSome then passed else passed.dropLast),
      parent member ∈ store := by
  refine walk_induction ?_ ?_ ?_ walked
  · simp
  · simp
  · intro fuel node next last rest found _ restStored
    have headStored : parent node ∈ store := Finmap.mem_of_lookup_eq_some found
    cases last with
    | some stopped =>
        simp only [Option.isSome_some, if_true] at restStored ⊢
        intro member memberOf
        rcases List.mem_cons.mp memberOf with rfl | memberOf
        · exact headStored
        · exact restStored member memberOf
    | none =>
        simp only [Option.isSome_none, Bool.false_eq_true, if_false] at restStored ⊢
        intro member memberOf
        cases rest with
        | nil => simp at memberOf
        | cons second rest =>
            rw [List.dropLast_cons_cons] at memberOf
            rcases List.mem_cons.mp memberOf with rfl | memberOf
            · exact headStored
            · exact restStored member memberOf

omit [DecidableEq K] in
private theorem length_le_card_of_nodup {keys : List K} {bound : Finset K}
    (distinct : keys.Nodup) (within : ∀ key ∈ keys, key ∈ bound) :
    keys.length ≤ bound.card := by
  classical
  rw [← List.toFinset_card_of_nodup distinct]
  apply Finset.card_le_card
  intro key member
  exact within key (List.mem_toFinset.mp member)

/-- One unit of fuel more than there are keys is enough: a walk that does not
end with it never ends. -/
theorem walk_stable {fuel : Nat} {node : N} {result : Option N × List N}
    (walked : walk store parent stop fuel node = some result) :
    walk store parent stop (store.keys.card + 1) node = some result := by
  obtain ⟨last, passed⟩ := result
  apply walk_of_fuel walked
  have distinct := walk_parents_nodup walked
  have stored := walk_parents_stored walked
  cases last with
  | some stopped =>
      have bound : (passed.map parent).length ≤ store.keys.card := by
        apply length_le_card_of_nodup distinct
        intro key member
        obtain ⟨passedNode, memberOf, rfl⟩ := List.mem_map.mp member
        exact Finmap.mem_keys.mpr (stored passedNode memberOf)
      simp only [List.length_map] at bound
      simp only [Option.isSome_some, Bool.toNat_true]
      omega
  | none =>
      have distinctInit : (passed.dropLast.map parent).Nodup := by
        rw [List.map_dropLast]
        exact distinct.sublist (List.dropLast_sublist _)
      have bound : (passed.dropLast.map parent).length ≤ store.keys.card := by
        apply length_le_card_of_nodup distinctInit
        intro key member
        obtain ⟨passedNode, memberOf, rfl⟩ := List.mem_map.mp member
        exact Finmap.mem_keys.mpr (stored passedNode memberOf)
      simp only [List.length_map, List.length_dropLast] at bound
      simp only [Option.isSome_none, Bool.toNat_false]
      omega

end Fuel

/-! ## Lineages -/

/-- The nodes from a root to a node, each the parent of the next, filed under
their keys and numbered by `rank`. -/
inductive Lineage (store : Finmap fun _ : K => N) (key parent : N → K)
    (rank : N → Nat) (root : N) : List N → N → Prop
  | root (stored : store.lookup (key root) = some root)
      (parentless : store.lookup (parent root) = none)
      (lowest : rank root = 0) :
      Lineage store key parent rank root [root] root
  | child {line : List N} {last node : N}
      (above : Lineage store key parent rank root line last)
      (stored : store.lookup (key node) = some node)
      (linked : parent node = key last)
      (ranked : rank node = rank last + 1) :
      Lineage store key parent rank root (line ++ [node]) node

namespace Lineage

variable {store : Finmap fun _ : K => N} {key parent : N → K}
  {rank : N → Nat} {root : N}

theorem stored {line : List N} {node : N}
    (lineage : Lineage store key parent rank root line node) :
    ∀ member ∈ line, store.lookup (key member) = some member := by
  induction lineage with
  | root stored _ _ => simpa using stored
  | child _ stored _ _ ih =>
      intro member memberOf
      rcases List.mem_append.mp memberOf with memberOf | memberOf
      · exact ih member memberOf
      · rw [List.mem_singleton.mp memberOf]
        exact stored

theorem node_mem {line : List N} {node : N}
    (lineage : Lineage store key parent rank root line node) : node ∈ line := by
  cases lineage <;> simp

theorem last_eq {line : List N} {last node : N}
    (lineage : Lineage store key parent rank root (line ++ [last]) node) :
    last = node := by
  have ends : (line ++ [last]).getLast? = some node := by
    generalize line ++ [last] = full at lineage
    cases lineage <;> simp
  simpa using ends

theorem node_stored {line : List N} {node : N}
    (lineage : Lineage store key parent rank root line node) :
    store.lookup (key node) = some node :=
  lineage.stored node lineage.node_mem

theorem length_eq {line : List N} {node : N}
    (lineage : Lineage store key parent rank root line node) :
    line.length = rank node + 1 := by
  induction lineage with
  | root _ _ lowest => simp [lowest]
  | child _ _ _ ranked ih => simp [ih, ranked]

theorem root_mem {line : List N} {node : N}
    (lineage : Lineage store key parent rank root line node) : root ∈ line := by
  induction lineage with
  | root => simp
  | child _ _ _ _ ih => simp [ih]

/-- Lineages survive in a larger store that still lacks the root's parent. -/
theorem mono {store' : Finmap fun _ : K => N} {line : List N} {node : N}
    (lineage : Lineage store key parent rank root line node)
    (kept : ∀ other found, store.lookup other = some found → store'.lookup other = some found)
    (parentless : store'.lookup (parent root) = none) :
    Lineage store' key parent rank root line node := by
  induction lineage with
  | root stored _ lowest => exact .root (kept _ _ stored) parentless lowest
  | child _ stored linked ranked ih => exact ih.child (kept _ _ stored) linked ranked

/-- A node has one lineage. -/
theorem unique {line line' : List N} {node : N}
    (lineage : Lineage store key parent rank root line node)
    (lineage' : Lineage store key parent rank root line' node) :
    line = line' := by
  induction lineage generalizing line' with
  | root _ parentless lowest =>
      cases lineage' with
      | root => rfl
      | child above _ linked ranked =>
          rw [linked, above.node_stored] at parentless
          cases parentless
  | child above _ linked ranked ih =>
      cases lineage' with
      | root _ parentless _ =>
          rw [linked, above.node_stored] at parentless
          cases parentless
      | child above' _ linked' _ =>
          have sameKey := linked.symm.trans linked'
          have sameLast := above.node_stored
          rw [sameKey, above'.node_stored] at sameLast
          cases sameLast
          rw [ih above']

/-- The last node of a longer lineage and what stands before it. -/
theorem of_append_singleton {line : List N} {last node : N} (nonempty : line ≠ [])
    (lineage : Lineage store key parent rank root (line ++ [last]) node) :
    last = node ∧ ∃ above, Lineage store key parent rank root line above ∧
      parent node = key above ∧ rank node = rank above + 1 := by
  generalize whole : line ++ [last] = full at lineage
  cases lineage with
  | root =>
      have short := congrArg List.length whole
      simp only [List.length_append, List.length_cons, List.length_nil] at short
      exact (nonempty (List.eq_nil_of_length_eq_zero (by omega))).elim
  | child above stored linked ranked =>
      obtain ⟨rfl, same⟩ := List.append_inj' whole rfl
      cases same
      exact ⟨rfl, _, above, linked, ranked⟩

/-- Every member has the part of the lineage up to it as its own. -/
theorem of_member {before after : List N} {member node : N}
    (lineage : Lineage store key parent rank root
      (before ++ member :: after) node) :
    Lineage store key parent rank root (before ++ [member]) member := by
  induction after using List.reverseRecOn generalizing node with
  | nil =>
      have last := lineage.last_eq
      subst last
      exact lineage
  | append_singleton after last ih =>
      rw [← List.cons_append, ← List.append_assoc] at lineage
      obtain ⟨-, above, aboveLineage, -, -⟩ :=
        of_append_singleton (by simp) lineage
      exact ih aboveLineage

/-- A member's rank is its position. -/
theorem rank_member {before after : List N} {member node : N}
    (lineage : Lineage store key parent rank root
      (before ++ member :: after) node) :
    rank member = before.length := by
  have length := lineage.of_member.length_eq
  simp only [List.length_append, List.length_cons, List.length_nil] at length
  omega

theorem eq_of_key_eq {line line' : List N} {node node' first second : N}
    (lineage : Lineage store key parent rank root line node)
    (lineage' : Lineage store key parent rank root line' node')
    (firstMem : first ∈ line) (secondMem : second ∈ line')
    (same : key first = key second) : first = second := by
  have found := lineage.stored first firstMem
  rw [same, lineage'.stored second secondMem] at found
  exact (Option.some.inj found).symm

/-- A lineage repeats no key. -/
theorem keys_nodup {line : List N} {node : N}
    (lineage : Lineage store key parent rank root line node) :
    (line.map key).Nodup := by
  induction lineage with
  | root => simp
  | @child line last node above stored linked ranked ih =>
      rw [List.map_append, List.nodup_append]
      refine ⟨ih, by simp, ?_⟩
      rintro repeated repeatedMem other otherMem rfl
      obtain ⟨member, memberOf, memberKey⟩ := List.mem_map.mp repeatedMem
      have otherKey : repeated = key node := by simpa using otherMem
      have whole := above.child stored linked ranked
      have same : member = node := whole.eq_of_key_eq whole
        (by simp [memberOf]) (by simp) (memberKey.trans otherKey)
      subst member
      -- An earlier position has a smaller rank.
      obtain ⟨before, after, rfl⟩ := List.append_of_mem memberOf
      have early := above.rank_member
      have late := whole.length_eq
      simp only [List.length_append, List.length_cons, List.length_nil] at late
      omega

/-- A lineage is no longer than there are keys. -/
theorem length_le {line : List N} {node : N}
    (lineage : Lineage store key parent rank root line node) :
    line.length ≤ store.keys.card := by
  rw [← List.length_map key]
  apply length_le_card_of_nodup lineage.keys_nodup
  intro other member
  obtain ⟨lineNode, memberOf, rfl⟩ := List.mem_map.mp member
  exact Finmap.mem_keys.mpr
    (Finmap.mem_of_lookup_eq_some (lineage.stored lineNode memberOf))

/-- Walking without a stop lists the whole lineage from the node back. -/
theorem walk_eq {line : List N} {node : N}
    (lineage : Lineage store key parent rank root line node)
    {fuel : Nat} (enough : line.length ≤ fuel) :
    walk store parent (fun _ => false) fuel node = some (none, line.reverse) := by
  induction lineage generalizing fuel with
  | root stored parentless _ =>
      obtain ⟨fuel, rfl⟩ : ∃ other, fuel = other + 1 :=
        ⟨fuel - 1, by simp at enough; omega⟩
      exact walk_succ_eq_some.mpr (Or.inr (Or.inl ⟨rfl, parentless, rfl⟩))
  | child above _ linked _ ih =>
      obtain ⟨fuel, rfl⟩ : ∃ other, fuel = other + 1 :=
        ⟨fuel - 1, by simp at enough; omega⟩
      simp only [List.length_append, List.length_cons, List.length_nil] at enough
      refine walk_succ_eq_some.mpr (Or.inr (Or.inr
        ⟨rfl, _, _, linked ▸ above.node_stored, ih (by omega), by simp⟩))

/-- Walking to a stopping member passes exactly the members behind it. -/
theorem walk_until_eq {before after : List N} {ancestor node : N}
    {stop : N → Bool}
    (lineage : Lineage store key parent rank root
      (before ++ ancestor :: after) node)
    (stops : stop ancestor = true) (passes : ∀ member ∈ after, stop member = false)
    {fuel : Nat} (enough : after.length + 1 ≤ fuel) :
    walk store parent stop fuel node = some (some ancestor, after.reverse) := by
  obtain ⟨fuel, rfl⟩ : ∃ other, fuel = other + 1 := ⟨fuel - 1, by omega⟩
  induction after using List.reverseRecOn generalizing node fuel with
  | nil =>
      have last := lineage.last_eq
      subst last
      exact walk_succ_eq_some.mpr (Or.inl ⟨stops, rfl⟩)
  | append_singleton after last ih =>
      rw [← List.cons_append, ← List.append_assoc] at lineage
      obtain ⟨rfl, above, aboveLineage, linked, -⟩ :=
        of_append_singleton (by simp) lineage
      simp only [List.length_append, List.length_cons, List.length_nil] at enough
      obtain ⟨fuel, rfl⟩ : ∃ other, fuel = other + 1 := ⟨fuel - 1, by omega⟩
      have walkedAbove := ih aboveLineage
        (fun member memberOf => passes member (by simp [memberOf])) fuel (by omega)
      exact walk_succ_eq_some.mpr (Or.inr (Or.inr
        ⟨passes last (by simp), above, _, linked ▸ aboveLineage.node_stored,
          walkedAbove, by simp⟩))

/-- Two lineages share a first part and split behind its last node. -/
theorem fork {line line' : List N} {node node' : N}
    (lineage : Lineage store key parent rank root line node)
    (lineage' : Lineage store key parent rank root line' node') :
    ∃ shared ancestor old new,
      line = shared ++ ancestor :: old ∧ line' = shared ++ ancestor :: new ∧
        ∀ member ∈ new, key member ∉ line.map key := by
  induction lineage' with
  | root stored parentless lowest =>
      obtain ⟨before, old, rfl⟩ := List.append_of_mem lineage.root_mem
      have start := lineage.of_member.unique (.root stored parentless lowest)
      obtain ⟨rfl, -⟩ : before = [] ∧ root = root := by
        simpa using start
      exact ⟨[], root, old, [], rfl, rfl, by simp⟩
  | @child above last node' aboveLineage stored linked ranked ih =>
      have whole := aboveLineage.child stored linked ranked
      by_cases member : node' ∈ line
      · obtain ⟨before, old, rfl⟩ := List.append_of_mem member
        have start := lineage.of_member.unique whole
        refine ⟨before, node', old, [], rfl, start.symm, by simp⟩
      · obtain ⟨shared, ancestor, old, new, lineEq, aboveEq, apart⟩ := ih
        refine ⟨shared, ancestor, old, new ++ [node'], lineEq,
          by simp [aboveEq], ?_⟩
        intro other otherMem
        rcases List.mem_append.mp otherMem with otherMem | otherMem
        · exact apart other otherMem
        · rw [List.mem_singleton.mp otherMem]
          intro sameKey
          obtain ⟨twin, twinMem, twinKey⟩ := List.mem_map.mp sameKey
          have twinEq := lineage.eq_of_key_eq whole twinMem (by simp) twinKey
          exact member (twinEq ▸ twinMem)

end Lineage

end AncestorWalk
