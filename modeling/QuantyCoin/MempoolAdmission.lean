import Mathlib.Algebra.BigOperators.Group.Finset.Basic
import QuantyCoin.MempoolInvariant
import QuantyCoin.UtxoUndoExactness

/-!
# What admission to the memory pool is worth to a block

`add_transaction` makes some of the checks of `validate_structure` and of
`apply_block` in a loop of its own.  It leaves out four of them: that no
outpoint is named twice, the size limit, the range of the total output and the
ban on null outpoints.  A transaction it accepts can go into a block exactly if
it passes these four.
-/

namespace QuantyCoin

open ByteDecoder

/-! ## Structural validation as a conjunction -/

/-- The checks of `validate_structure` that `add_transaction` does not make. -/
structure Includable (tx : Transaction) : Prop where
  distinct : tx.outpoints.Nodup
  size_le : (tx.serialize true).length ≤ 1000000
  totalOut_le : tx.totalOut ≤ maxMoneySatoshis
  no_null : ∀ inp ∈ tx.vin, inp.isCoinbase = false

theorem checkOutputs_eq_none (index total : Nat) (outs : List TxOut) (outs_ne : outs ≠ []) :
    checkOutputs index total outs = none ↔
      total + (outs.map TxOut.value).sum ≤ maxMoneySatoshis := by
  induction outs generalizing index total with
  | nil => exact (outs_ne rfl).elim
  | cons out outs ih =>
      rw [checkOutputs, if_neg (Nat.not_lt.mpr out.value_le), List.map_cons, List.sum_cons]
      by_cases exceeds : total + out.value > maxMoneySatoshis
      · rw [if_pos exceeds]
        simp only [reduceCtorEq, false_iff]
        omega
      · rw [if_neg exceeds]
        cases outs with
        | nil =>
            simp only [checkOutputs, List.map_nil, List.sum_nil, true_iff]
            omega
        | cons next outs => rw [ih _ _ (List.cons_ne_nil _ _), Nat.add_assoc]

theorem findDuplicateInput_eq_none (index : Nat) (seen : List Outpoint) (inputs : List TxIn) :
    findDuplicateInput index seen inputs = none ↔
      (inputs.map TxIn.outpoint).Nodup ∧ ∀ inp ∈ inputs, inp.outpoint ∉ seen := by
  induction inputs generalizing index seen with
  | nil => simp [findDuplicateInput]
  | cons inp inputs ih =>
      rw [findDuplicateInput]
      by_cases repeated : inp.outpoint ∈ seen
      · simp [repeated]
      · rw [if_neg repeated, ih, List.map_cons, List.nodup_cons, List.forall_mem_cons]
        constructor
        · rintro ⟨distinct, unseen⟩
          refine ⟨⟨?_, distinct⟩, repeated, ?_⟩
          · intro later
            obtain ⟨twin, member, same⟩ := List.mem_map.mp later
            exact unseen twin member (by simp [same])
          · intro other member earlier
            exact unseen other member (List.mem_cons_of_mem _ earlier)
        · rintro ⟨⟨fresh, distinct⟩, -, unseen⟩
          refine ⟨distinct, ?_⟩
          intro other member earlier
          rcases List.mem_cons.mp earlier with same | earlier
          · exact fresh (List.mem_map.mpr ⟨other, member, same⟩)
          · exact unseen other member earlier

theorem checkCoinbaseStructure_eq_none {tx : Transaction} (not_coinbase : tx.isCoinbase = false) :
    checkCoinbaseStructure tx = none ↔ ∀ inp ∈ tx.vin, inp.isCoinbase = false := by
  rw [checkCoinbaseStructure, if_neg (by simp [not_coinbase])]
  simp [List.findIdx?_eq_none_iff]

/-- Validation of a transaction that spends and pays something. -/
theorem validateStructure_iff_includable {tx : Transaction} (inputs : tx.vin ≠ [])
    (outputs : tx.vout ≠ []) (not_coinbase : tx.isCoinbase = false) :
    tx.validateStructure.1 = true ↔ Includable tx := by
  have outs := checkOutputs_eq_none 0 0 tx.vout outputs
  have duplicates := findDuplicateInput_eq_none 0 [] tx.vin
  have nulls := checkCoinbaseStructure_eq_none not_coinbase
  rw [Nat.zero_add] at outs
  simp only [List.not_mem_nil, not_false_eq_true, implies_true, and_true] at duplicates
  rw [Transaction.validateStructure, if_neg inputs, if_neg outputs]
  by_cases oversized : (tx.serialize true).length > 1000000
  · rw [if_pos oversized]
    simp only [Bool.false_eq_true, false_iff]
    exact fun includable => Nat.not_lt.mpr includable.size_le oversized
  rw [if_neg oversized]
  constructor
  · intro valid
    split at valid
    · cases valid
    rename_i inRange
    split at valid
    · cases valid
    rename_i distinct
    split at valid
    · cases valid
    rename_i noNull
    exact ⟨duplicates.mp distinct, Nat.not_lt.mp oversized, outs.mp inRange, nulls.mp noNull⟩
  · rintro ⟨distinct, -, inRange, noNull⟩
    rw [outs.mpr inRange, duplicates.mpr distinct, nulls.mpr noNull]

/-! ## Accepted transactions -/

theorem spentOutpoints_coinbases {others : List Transaction}
    (coinbases : ∀ other ∈ others, other.isCoinbase = true) : spentOutpoints others = [] := by
  rw [spentOutpoints, List.flatMap_eq_nil_iff]
  intro other member
  rw [if_pos (coinbases other member)]

theorem spentOutpoints_append (first second : List Transaction) :
    spentOutpoints (first ++ second) = spentOutpoints first ++ spentOutpoints second := by
  rw [spentOutpoints, List.flatMap_append, ← spentOutpoints, ← spentOutpoints]

theorem spentOutpoints_cons {tx : Transaction} (not_coinbase : tx.isCoinbase = false)
    (rest : List Transaction) :
    spentOutpoints (tx :: rest) = tx.outpoints ++ spentOutpoints rest := by
  rw [spentOutpoints, List.flatMap_cons, if_neg (by simp [not_coinbase])]
  rfl

theorem spentOutpoints_among_coinbases {tx : Transaction} {before after : List Transaction}
    (not_coinbase : tx.isCoinbase = false)
    (coinbases : ∀ other ∈ before ++ after, other.isCoinbase = true) :
    spentOutpoints (before ++ tx :: after) = tx.outpoints := by
  have first := spentOutpoints_coinbases fun other member =>
    coinbases other (List.mem_append_left after member)
  have last := spentOutpoints_coinbases fun other member =>
    coinbases other (List.mem_append_right before member)
  rw [spentOutpoints_append, spentOutpoints_cons not_coinbase, first, last, List.nil_append,
    List.append_nil]

namespace Mempool.Admitted

variable {prim : Primitives} {pool : Mempool} {utxoSet : UTXOSet} {tx : Transaction}
  {totalIn : Nat}

theorem unspent_output (admitted : Admitted prim pool utxoSet tx totalIn)
    {outpoint : Outpoint} (member : outpoint ∈ tx.outpoints) : outpoint ∈ utxoSet.utxos := by
  obtain ⟨inp, inpMember, rfl⟩ := List.mem_map.mp member
  obtain ⟨index, utxo, checked⟩ := (checkInputs_eq_ok admitted.checked).1 inp inpMember
  exact Finmap.mem_of_lookup_eq_some checked.found

/-- The total that admission compares with counts every input. -/
theorem totalIn_eq (admitted : Admitted prim pool utxoSet tx totalIn) :
    totalIn = (tx.outpoints.map (valueAt utxoSet)).sum := by
  rw [(checkInputs_eq_ok admitted.checked).2, Nat.zero_add, Transaction.outpoints,
    List.map_map]
  rfl

theorem totalOut_le_distinct (admitted : Admitted prim pool utxoSet tx totalIn)
    (distinct : tx.outpoints.Nodup) :
    tx.totalOut ≤ ∑ outpoint ∈ tx.outpoints.toFinset, valueAt utxoSet outpoint := by
  rw [List.sum_toFinset _ distinct, ← admitted.totalIn_eq]
  exact admitted.balanced

theorem applyBlock (admitted : Admitted prim pool utxoSet tx totalIn)
    (distinct : tx.outpoints.Nodup) {before after : List Transaction}
    (coinbases : ∀ other ∈ before ++ after, other.isCoinbase = true) (blockHash : Bytes)
    (height : Nat) :
    ∃ undo next, utxoSet.applyBlock prim blockHash height (before ++ tx :: after) =
      (.ok undo, next) := by
  have spent := spentOutpoints_among_coinbases admitted.not_coinbase coinbases
  apply applyBlock_of_distinct
  · rwa [spent]
  · rw [spent]
    intro outpoint member
    exact admitted.unspent_output member

end Mempool.Admitted

/-- An accepted transaction is structurally valid, covered by the distinct
outputs it spends and applicable in a block with coinbases only, exactly if it
passes the four checks that admission leaves out. -/
theorem accepted_sound_iff (prim : Primitives) (pool : Mempool) (utxoSet : UTXOSet)
    (tx : Transaction) (now : Nat)
    (accepted : (pool.addTransaction prim tx utxoSet now).1.1 = true) :
    (tx.validateStructure.1 = true ∧
      tx.totalOut ≤ ∑ outpoint ∈ tx.outpoints.toFinset, Mempool.valueAt utxoSet outpoint ∧
      ∀ before after blockHash height,
        (∀ other ∈ before ++ after, other.isCoinbase = true) →
        ∃ undo next, utxoSet.applyBlock prim blockHash height (before ++ tx :: after) =
          (.ok undo, next)) ↔
      tx.outpoints.Nodup ∧ (tx.serialize true).length ≤ 1000000 ∧
        tx.totalOut ≤ maxMoneySatoshis ∧ ∀ inp ∈ tx.vin, inp.isCoinbase = false := by
  rcases Mempool.addTransaction_cases prim pool tx utxoSet now with
    ⟨message, refused⟩ | ⟨totalIn, admitted, -⟩
  · rw [refused] at accepted
    cases accepted
  have valid := validateStructure_iff_includable admitted.inputs admitted.outputs
    admitted.not_coinbase
  constructor
  · rintro ⟨structured, -, -⟩
    obtain ⟨distinct, size, total, noNull⟩ := valid.mp structured
    exact ⟨distinct, size, total, noNull⟩
  · rintro ⟨distinct, size, total, noNull⟩
    refine ⟨valid.mpr ⟨distinct, size, total, noNull⟩, admitted.totalOut_le_distinct distinct,
      ?_⟩
    intro before after blockHash height coinbases
    exact admitted.applyBlock distinct coinbases blockHash height

/-- The signed spend of the funding output can go into a block. -/
theorem signedSpend_sound :
    signedSpend.tx.validateStructure.1 = true ∧
      ∃ undo next, fundedSet.applyBlock spendPrimitives (leBytes 32 8) 2
        [sampleCoinbase, signedSpend.tx] = (.ok undo, next) := by
  have sound := (accepted_sound_iff spendPrimitives Mempool.empty fundedSet signedSpend.tx 0
    (by decide +kernel)).mpr (by decide +kernel)
  exact ⟨sound.1, sound.2.2 [sampleCoinbase] [] (leBytes 32 8) 2 (by decide)⟩

/-- A transaction that names its only output twice is accepted, pays out twice
what it consumes and fits into no block. -/
theorem doubledSpend_unsound :
    (Mempool.empty.addTransaction spendPrimitives doubledSpend.tx fundedSet 0).1 =
        (true, "Accepted") ∧
      doubledSpend.tx.validateStructure = (false, "Duplicate input detected at index 1") ∧
      doubledSpend.tx.totalOut = 100 * coin ∧
      (∑ outpoint ∈ doubledSpend.tx.outpoints.toFinset,
        Mempool.valueAt fundedSet outpoint) = 50 * coin ∧
      (fundedSet.applyBlock spendPrimitives (leBytes 32 8) 2
        [sampleCoinbase, doubledSpend.tx]).1.isOk = false := by
  decide +kernel

end QuantyCoin
