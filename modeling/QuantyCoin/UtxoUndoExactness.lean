import QuantyCoin.UtxoSet

/-!
# When undo data restores the unspent outputs

Applying a block takes and puts map entries in an order that its undo record
does not keep.  Here the loops of `apply_block` are identified with a run of
the corresponding events, and the exactness theorem of `MapJournal` is read
back: `revert_block`, and the rollback of a failed application, restore the
set exactly when every outpoint created on the way is restorable.

The condition fails as soon as a block spends one of its own outputs: the
outpoint is then recorded both as created and as spent, and undoing the block
leaves it in the set.
-/

namespace QuantyCoin

open ByteDecoder MapJournal

/-! ## The events of a block -/

/-- The inputs a transaction takes out of the set, in order. -/
def spendEvents (tx : Transaction) : List (Event Outpoint UTXOEntry) :=
  if tx.isCoinbase then [] else tx.vin.map fun inp => .take inp.outpoint

/-- The outputs a transaction puts into the set, in order. -/
def createEvents (prim : Primitives) (height : Nat) (tx : Transaction) :
    List (Event Outpoint UTXOEntry) :=
  tx.vout.zipIdx.map fun out =>
    .put (tx.txid prim, out.2)
      ⟨out.1.value, out.1.scriptPubkey, height, tx.isCoinbase⟩

def transactionEvents (prim : Primitives) (height : Nat) (tx : Transaction) :
    List (Event Outpoint UTXOEntry) :=
  spendEvents tx ++ createEvents prim height tx

/-- Everything a block does to the set, in order. -/
def blockEvents (prim : Primitives) (height : Nat) (transactions : List Transaction) :
    List (Event Outpoint UTXOEntry) :=
  transactions.flatMap (transactionEvents prim height)

/-! ## The loops of `apply_block` as runs -/

/-- The journal behind the local variables of `apply_block`. -/
def ApplyProgress.journal (progress : ApplyProgress) : Journal Outpoint UTXOEntry :=
  ⟨progress.utxos, progress.spentUtxos, progress.createdOutpoints⟩

/-- A loop of `apply_block` does what a run of events does: it ends with the
same journal, or stops with the run and has then rolled its journal back. -/
def Follows : Except ApplyFailure ApplyProgress →
    Journal Outpoint UTXOEntry × Option Outpoint → Prop
  | .ok progress, (journal, none) => journal = progress.journal
  | .error failure, (journal, some _) =>
      failure.utxos = undo journal.store journal.taken journal.added
  | .ok _, (_, some _) => False
  | .error _, (_, none) => False

theorem Follows.bind {result : Except ApplyFailure ApplyProgress}
    {next : ApplyProgress → Except ApplyFailure ApplyProgress}
    {journal : Journal Outpoint UTXOEntry}
    {first second : List (Event Outpoint UTXOEntry)}
    (firstFollows : Follows result (run journal first))
    (secondFollows : ∀ progress, Follows (next progress) (run progress.journal second)) :
    Follows (result >>= next) (run journal (first ++ second)) := by
  rw [run_append]
  rcases ran : run journal first with ⟨middle, missing⟩
  rw [ran] at firstFollows
  cases result with
  | error failure =>
      cases missing with
      | none => exact firstFollows.elim
      | some key => exact firstFollows
  | ok progress =>
      cases missing with
      | none =>
          have middleEq : middle = progress.journal := firstFollows
          subst middleEq
          exact secondFollows progress
      | some key => exact firstFollows.elim

/-- A loop follows the events of its elements if each round does. -/
theorem Follows.foldlM {α : Type}
    {body : ApplyProgress → α → Except ApplyFailure ApplyProgress}
    {events : α → List (Event Outpoint UTXOEntry)}
    (round : ∀ progress item,
      Follows (body progress item) (run progress.journal (events item)))
    (items : List α) (progress : ApplyProgress) :
    Follows (items.foldlM body progress)
      (run progress.journal (items.flatMap events)) := by
  induction items generalizing progress with
  | nil => rfl
  | cons item items ih =>
      rw [List.foldlM_cons, List.flatMap_cons]
      exact (round progress item).bind ih

theorem spendInput_follows (progress : ApplyProgress) (inp : TxIn) :
    Follows (UTXOSet.spendInput progress inp)
      (run progress.journal [.take inp.outpoint]) := by
  cases found : progress.utxos.lookup inp.outpoint with
  | none =>
      simp [UTXOSet.spendInput, found, run, step, ApplyProgress.journal, Follows,
        UTXOSet.rollbackPartial]
  | some entry =>
      simp [UTXOSet.spendInput, found, run, step, ApplyProgress.journal, Follows]

theorem addOutputs_follows (txid : Bytes) (height : Nat) (isCb : Bool)
    (outs : List (TxOut × Nat)) (progress : ApplyProgress) :
    run progress.journal (outs.map fun out =>
        .put (txid, out.2) ⟨out.1.value, out.1.scriptPubkey, height, isCb⟩) =
      ((outs.foldl (UTXOSet.addOutput txid height isCb) progress).journal, none) := by
  induction outs generalizing progress with
  | nil => rfl
  | cons out outs ih => exact ih (UTXOSet.addOutput txid height isCb progress out)

theorem applyTransaction_follows (prim : Primitives) (height : Nat)
    (progress : ApplyProgress) (tx : Transaction) :
    Follows (UTXOSet.applyTransaction prim height progress tx)
      (run progress.journal (transactionEvents prim height tx)) := by
  have spends : Follows
      (if tx.isCoinbase then .ok progress else tx.vin.foldlM UTXOSet.spendInput progress)
      (run progress.journal (spendEvents tx)) := by
    cases coinbase : tx.isCoinbase with
    | true => simp [spendEvents, coinbase, run, Follows]
    | false =>
        have loop := Follows.foldlM spendInput_follows tx.vin progress
        simpa [spendEvents, coinbase, List.map_eq_flatMap] using loop
  have creates : ∀ progress : ApplyProgress, Follows
      (.ok (tx.vout.zipIdx.foldl
        (UTXOSet.addOutput (tx.txid prim) height tx.isCoinbase) progress))
      (run progress.journal (createEvents prim height tx)) := by
    intro progress
    rw [createEvents, addOutputs_follows]
    rfl
  have whole := spends.bind creates
  rw [transactionEvents]
  convert whole using 1
  rw [UTXOSet.applyTransaction]
  split <;> rename_i spent <;> rw [spent] <;> rfl

/-- What `apply_block` computes, in terms of its events. -/
theorem applyBlock_follows (prim : Primitives) (set : UTXOSet) (height : Nat)
    (transactions : List Transaction) :
    Follows (transactions.foldlM (UTXOSet.applyTransaction prim height)
        ⟨set.utxos, ∅, ∅⟩)
      (run (start set.utxos) (blockEvents prim height transactions)) :=
  Follows.foldlM (applyTransaction_follows prim height) transactions ⟨set.utxos, ∅, ∅⟩

theorem applyBlock_eq_ok {prim : Primitives} {set next : UTXOSet}
    {blockHash : Bytes} {height : Nat} {transactions : List Transaction}
    {undo : BlockUndo} :
    set.applyBlock prim blockHash height transactions = (.ok undo, next) ↔
      ∃ journal, run (start set.utxos) (blockEvents prim height transactions) =
          (journal, none) ∧
        undo = ⟨blockHash, journal.taken, journal.added⟩ ∧
        next = ⟨journal.store, set.undoHistory.insert blockHash undo⟩ := by
  have follows := applyBlock_follows prim set height transactions
  rcases ran : run (start set.utxos) (blockEvents prim height transactions) with
    ⟨journal, missing⟩
  rw [ran] at follows
  rw [UTXOSet.applyBlock]
  cases loop : transactions.foldlM (UTXOSet.applyTransaction prim height)
      ⟨set.utxos, ∅, ∅⟩ with
  | error failure =>
      rw [loop] at follows
      cases missing with
      | none => exact follows.elim
      | some key => simp
  | ok progress =>
      rw [loop] at follows
      cases missing with
      | some key => exact follows.elim
      | none =>
          have journalEq : journal = progress.journal := follows
          subst journalEq
          simp only [Prod.mk.injEq, and_true, exists_eq_left', Except.ok.injEq,
            ApplyProgress.journal]
          constructor
          · rintro ⟨rfl, rfl⟩
            exact ⟨rfl, rfl⟩
          · rintro ⟨rfl, rfl⟩
            exact ⟨rfl, rfl⟩

/-- A failed application has run the events before the missing input and
undone them. -/
theorem applyBlock_eq_error {prim : Primitives} {set next : UTXOSet}
    {blockHash : Bytes} {height : Nat} {transactions : List Transaction}
    {error : PyException}
    (failed : set.applyBlock prim blockHash height transactions = (.error error, next)) :
    ∃ journal,
      run (start set.utxos)
          (beforeMissing set.utxos (blockEvents prim height transactions)) =
          (journal, none) ∧
        next = { set with
          utxos := undo journal.store journal.taken journal.added } := by
  have follows := applyBlock_follows prim set height transactions
  rcases ran : run (start set.utxos) (blockEvents prim height transactions) with
    ⟨journal, missing⟩
  rw [ran] at follows
  rw [UTXOSet.applyBlock] at failed
  cases loop : transactions.foldlM (UTXOSet.applyTransaction prim height)
      ⟨set.utxos, ∅, ∅⟩ with
  | ok progress => simp [loop] at failed
  | error failure =>
      rw [loop] at follows failed
      cases missing with
      | none => exact follows.elim
      | some key =>
          have rolledBack : failure.utxos =
              undo journal.store journal.taken journal.added := follows
          have completed := run_beforeMissing (start set.utxos)
            (blockEvents prim height transactions)
          rw [ran] at completed
          simp only [Prod.mk.injEq] at failed
          exact ⟨journal, completed, by rw [← failed.2, rolledBack]⟩

/-! ## Sample transactions -/

/-- 50 coins to `OP_1`. -/
def sampleOut : TxOut := ⟨50 * coin, [0x51], by decide⟩

def sampleCoinbase : Transaction :=
  ⟨1, [⟨zeroHash, 0xFFFFFFFF, [0x01, 0x01], 0xFFFFFFFF, []⟩], [sampleOut], 0⟩

def sampleCoinbaseTxid : Bytes :=
  leBytes 32 0xe9cdb353f83497c77c1a1121bfad607e111ba2886723f4ed4e946045a051753c

/-- Passes the coins of `sampleCoinbase` on. -/
def samplePassOn : Transaction :=
  ⟨1, [⟨sampleCoinbaseTxid, 0, [], 0xFFFFFFFF, []⟩], [sampleOut], 0⟩

/-- Spends an output that does not exist. -/
def sampleMissing : Transaction :=
  ⟨1, [⟨List.replicate 32 1, 0, [], 0xFFFFFFFF, []⟩], [⟨coin, [0x51], by decide⟩], 0⟩

/-- The double SHA-256 digests of the three transactions. -/
def sampleTxids : List (Bytes × Nat) :=
  [(sampleCoinbase.serialize false,
      0xe9cdb353f83497c77c1a1121bfad607e111ba2886723f4ed4e946045a051753c),
    (samplePassOn.serialize false,
      0x31e7bc83abf8924529cbfb93dfab5121d1a33c04025554fb16b9b6db86d8a673),
    (sampleMissing.serialize false,
      0x624019f8d8d5c0c37dc0b56a6328af74f0bb4d8c4817af111862e969e72010c4)]

def samplePrimitives : Primitives := .ofDigests sampleTxids

/-! ## Exactness -/

/-- Reverting right after an application restores the history, and the map if
the journal can be undone. -/
theorem revertBlock_eq_iff_undo {set : UTXOSet} {blockHash : Bytes}
    (fresh : blockHash ∉ set.undoHistory) (journal : Journal Outpoint UTXOEntry) :
    UTXOSet.revertBlock ⟨journal.store, set.undoHistory.insert blockHash
        ⟨blockHash, journal.taken, journal.added⟩⟩ blockHash = (.ok (), set) ↔
      undo journal.store journal.taken journal.added = set.utxos := by
  have historyBack : ∀ record : BlockUndo,
      (set.undoHistory.insert blockHash record).erase blockHash = set.undoHistory := by
    intro record
    apply Finmap.ext_lookup
    intro other
    by_cases same : other = blockHash
    · subst other
      rw [Finmap.lookup_erase, Finmap.lookup_eq_none.mpr fresh]
    · rw [Finmap.lookup_erase_ne same, Finmap.lookup_insert_of_ne _ same]
  obtain ⟨utxos, undoHistory⟩ := set
  simp only [UTXOSet.revertBlock, Finmap.lookup_insert, UTXOSet.rollbackPartial,
    historyBack, Prod.mk.injEq, true_and, UTXOSet.mk.injEq, and_true]

/-- Reverting a block that was just applied gives the old set back exactly
when every outpoint the block creates is restorable: it was absent and the
block never spends it, or the last time the block spends it the entry found is
the one the set had before the block. -/
theorem revertBlock_applyBlock_iff (prim : Primitives) (set next : UTXOSet)
    (blockHash : Bytes) (height : Nat) (transactions : List Transaction)
    (undo : BlockUndo) (fresh : blockHash ∉ set.undoHistory)
    (applied : set.applyBlock prim blockHash height transactions = (.ok undo, next)) :
    next.revertBlock blockHash = (.ok (), set) ↔
      ∀ outpoint ∈ putKeys (blockEvents prim height transactions),
        Restorable set.utxos (blockEvents prim height transactions) outpoint := by
  obtain ⟨journal, completed, rfl, rfl⟩ := applyBlock_eq_ok.mp applied
  rw [revertBlock_eq_iff_undo fresh, undo_run_eq_iff completed]

/-- Applying and reverting the two transactions leaves the output of the first
in a set that was empty. -/
theorem revertBlock_applyBlock_own_output :
    let applied := UTXOSet.empty.applyBlock samplePrimitives (leBytes 32 7) 1
      [sampleCoinbase, samplePassOn]
    leBytes 32 7 ∉ UTXOSet.empty.undoHistory ∧ applied.1.isOk = true ∧
      (applied.2.revertBlock (leBytes 32 7)).2.utxos.lookup (sampleCoinbaseTxid, 0) =
        some ⟨50 * coin, [0x51], 1, true⟩ ∧
      applied.2.revertBlock (leBytes 32 7) ≠ (.ok (), UTXOSet.empty) := by
  refine ⟨by decide, by decide, by decide, ?_⟩
  intro restored
  exact absurd (congrArg (fun result => result.2.utxos) restored) (by decide)

theorem revertBlock_applyBlock_coinbase :
    (UTXOSet.empty.applyBlock samplePrimitives (leBytes 32 7) 1
      [sampleCoinbase]).2.revertBlock (leBytes 32 7) = (.ok (), UTXOSet.empty) := by
  apply (revertBlock_applyBlock_iff samplePrimitives UTXOSet.empty _ (leBytes 32 7) 1
    [sampleCoinbase] _ (by decide) rfl).mpr
  intro outpoint _
  exact Or.inl ⟨by simp [blockEvents, transactionEvents, spendEvents, createEvents,
    show sampleCoinbase.isCoinbase = true by decide], rfl⟩

/-- A failed application leaves the old set exactly when every outpoint
created before the missing input is restorable. -/
theorem applyBlock_failed_eq_iff (prim : Primitives) (set next : UTXOSet)
    (blockHash : Bytes) (height : Nat) (transactions : List Transaction)
    (error : PyException)
    (failed : set.applyBlock prim blockHash height transactions = (.error error, next)) :
    next = set ↔
      ∀ outpoint ∈ putKeys
          (beforeMissing set.utxos (blockEvents prim height transactions)),
        Restorable set.utxos
          (beforeMissing set.utxos (blockEvents prim height transactions)) outpoint := by
  obtain ⟨journal, completed, rfl⟩ := applyBlock_eq_error failed
  rw [← undo_run_eq_iff completed]
  obtain ⟨utxos, undoHistory⟩ := set
  simp

/-- The rollback of a failed application leaves the output of the first
transaction behind when the second has spent it. -/
theorem applyBlock_failed_own_output :
    let applied := UTXOSet.empty.applyBlock samplePrimitives (leBytes 32 7) 1
      [sampleCoinbase, samplePassOn, sampleMissing]
    applied.1.isOk = false ∧
      applied.2.utxos.lookup (sampleCoinbaseTxid, 0) =
        some ⟨50 * coin, [0x51], 1, true⟩ ∧
      applied.2 ≠ UTXOSet.empty := by
  decide

theorem applyBlock_failed_missing_input :
    (UTXOSet.empty.applyBlock samplePrimitives (leBytes 32 7) 1
      [sampleCoinbase, sampleMissing]).2 = UTXOSet.empty := by
  apply (applyBlock_failed_eq_iff samplePrimitives UTXOSet.empty _ (leBytes 32 7) 1
    [sampleCoinbase, sampleMissing] _ rfl).mpr
  have executed : beforeMissing UTXOSet.empty.utxos
      (blockEvents samplePrimitives 1 [sampleCoinbase, sampleMissing]) =
        [.put (sampleCoinbaseTxid, 0) ⟨50 * coin, [0x51], 1, true⟩] := by
    decide
  intro outpoint _
  exact Or.inl ⟨by simp [executed], rfl⟩

/-! ## Recoverable blocks -/

/-- Whatever the transactions create, up to their first missing input if they
have one, is restorable: applying them can be undone in either case. -/
def Recoverable (prim : Primitives) (height : Nat) (transactions : List Transaction)
    (utxos : UtxoMap) : Prop :=
  ∀ outpoint ∈ putKeys (beforeMissing utxos (blockEvents prim height transactions)),
    Restorable utxos (beforeMissing utxos (blockEvents prim height transactions)) outpoint

theorem Recoverable.revertBlock_eq {prim : Primitives} {transactions : List Transaction}
    {height : Nat} {set next : UTXOSet}
    (recoverable : Recoverable prim height transactions set.utxos)
    {blockHash : Bytes} {undo : BlockUndo} (fresh : blockHash ∉ set.undoHistory)
    (applied : set.applyBlock prim blockHash height transactions = (.ok undo, next)) :
    next.revertBlock blockHash = (.ok (), set) := by
  obtain ⟨journal, completed, rfl, rfl⟩ := applyBlock_eq_ok.mp applied
  have whole : beforeMissing set.utxos (blockEvents prim height transactions) =
      blockEvents prim height transactions := beforeMissing_of_completed completed
  rw [revertBlock_eq_iff_undo fresh, undo_run_eq_iff completed, ← whole]
  exact recoverable

theorem Recoverable.failed_eq {prim : Primitives} {transactions : List Transaction}
    {height : Nat} {set next : UTXOSet}
    (recoverable : Recoverable prim height transactions set.utxos)
    {blockHash : Bytes} {error : PyException}
    (failed : set.applyBlock prim blockHash height transactions = (.error error, next)) :
    next = set := by
  obtain ⟨journal, completed, rfl⟩ := applyBlock_eq_error failed
  have undone := (undo_run_eq_iff completed).mpr recoverable
  rw [undone]

/-! ## Clean blocks -/

/-- The outpoints of all outputs of a list of transactions. -/
def createdOutpoints (prim : Primitives) (transactions : List Transaction) :
    List Outpoint :=
  transactions.flatMap fun tx => tx.vout.zipIdx.map fun out => (tx.txid prim, out.2)

/-- The outpoints that the transactions other than coinbases spend. -/
def spentOutpoints (transactions : List Transaction) : List Outpoint :=
  transactions.flatMap fun tx => if tx.isCoinbase then [] else tx.vin.map TxIn.outpoint

/-- No transaction spends an output of the same list, and no output is created
under an outpoint of the map. -/
structure Clean (prim : Primitives) (transactions : List Transaction)
    (utxos : UtxoMap) : Prop where
  not_spent : ∀ outpoint ∈ createdOutpoints prim transactions,
    outpoint ∉ spentOutpoints transactions
  absent : ∀ outpoint ∈ createdOutpoints prim transactions, outpoint ∉ utxos

theorem putKeys_blockEvents (prim : Primitives) (height : Nat)
    (transactions : List Transaction) :
    putKeys (blockEvents prim height transactions) =
      createdOutpoints prim transactions := by
  induction transactions with
  | nil => rfl
  | cons tx rest ih =>
      have spends : putKeys (spendEvents tx) = [] := by
        cases coinbase : tx.isCoinbase <;> simp [spendEvents, coinbase, putKeys]
      have creates : putKeys (createEvents prim height tx) =
          tx.vout.zipIdx.map fun out => (tx.txid prim, out.2) := by
        simp [createEvents, putKeys, List.filterMap_map]
      rw [blockEvents, List.flatMap_cons, putKeys_append, transactionEvents,
        putKeys_append, spends, creates, List.nil_append, createdOutpoints,
        List.flatMap_cons]
      exact congrArg _ ih

theorem takeKeys_blockEvents (prim : Primitives) (height : Nat)
    (transactions : List Transaction) :
    takeKeys (blockEvents prim height transactions) = spentOutpoints transactions := by
  induction transactions with
  | nil => rfl
  | cons tx rest ih =>
      have creates : takeKeys (createEvents prim height tx) = [] := by
        simp [createEvents, takeKeys, List.filterMap_map]
      have spends : takeKeys (spendEvents tx) =
          if tx.isCoinbase then [] else tx.vin.map TxIn.outpoint := by
        cases coinbase : tx.isCoinbase <;>
          simp [spendEvents, coinbase, takeKeys, List.filterMap_map]
      rw [blockEvents, List.flatMap_cons, takeKeys_append, transactionEvents,
        takeKeys_append, spends, creates, List.append_nil, spentOutpoints,
        List.flatMap_cons]
      exact congrArg _ ih

theorem take_mem_blockEvents (prim : Primitives) (height : Nat)
    (transactions : List Transaction) (outpoint : Outpoint) :
    .take outpoint ∈ blockEvents prim height transactions ↔
      outpoint ∈ spentOutpoints transactions := by
  rw [← mem_takeKeys, takeKeys_blockEvents]

/-- A block applies if every outpoint it spends is unspent and spent once. -/
theorem applyBlock_of_distinct {set : UTXOSet} {transactions : List Transaction}
    (distinct : (spentOutpoints transactions).Nodup)
    (present : ∀ outpoint ∈ spentOutpoints transactions, outpoint ∈ set.utxos)
    (prim : Primitives) (blockHash : Bytes) (height : Nat) :
    ∃ undo next, set.applyBlock prim blockHash height transactions = (.ok undo, next) := by
  rw [← takeKeys_blockEvents prim height] at distinct present
  obtain ⟨journal, completed⟩ := @run_completes _ _ _ (start set.utxos) _ distinct present
  exact ⟨_, _, applyBlock_eq_ok.mpr ⟨journal, completed, rfl, rfl⟩⟩

/-- Clean blocks are recoverable. -/
theorem Clean.recoverable {prim : Primitives} {transactions : List Transaction}
    {utxos : UtxoMap} (clean : Clean prim transactions utxos) (height : Nat) :
    Recoverable prim height transactions utxos := by
  intro outpoint put
  have executed := beforeMissing_isPrefix utxos (blockEvents prim height transactions)
  have created : outpoint ∈ createdOutpoints prim transactions := by
    obtain ⟨rest, whole⟩ := executed
    rw [← putKeys_blockEvents prim height, ← whole, putKeys_append]
    exact List.mem_append_left _ put
  refine Or.inl ⟨?_, Finmap.lookup_eq_none.mpr (clean.absent outpoint created)⟩
  intro taken
  exact clean.not_spent outpoint created
    ((take_mem_blockEvents prim height transactions outpoint).mp (executed.subset taken))

end QuantyCoin
