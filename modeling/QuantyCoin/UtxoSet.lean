import QuantyCoin.MapJournal
import QuantyCoin.Transaction

/-!
# The set of unspent outputs

`core/utxo.py`: applying the transactions of a block, the undo record kept for
it, and reverting it.  The two dictionaries are finite maps.  A call returns
its result or exception together with the set it leaves behind.
-/

namespace QuantyCoin

structure UTXOEntry where
  value : Nat
  scriptPubkey : Bytes
  height : Nat
  isCoinbase : Bool
  deriving DecidableEq

abbrev UtxoMap := Finmap fun _ : Outpoint => UTXOEntry

/-- Undo data of one block: unordered, as in the source. -/
structure BlockUndo where
  blockHash : Bytes
  spentUtxos : UtxoMap
  createdOutpoints : Finset Outpoint
  deriving DecidableEq

structure UTXOSet where
  utxos : UtxoMap
  undoHistory : Finmap fun _ : Bytes => BlockUndo
  deriving DecidableEq

/-- `self._utxos` and the two collections `apply_block` fills. -/
structure ApplyProgress where
  utxos : UtxoMap
  spentUtxos : UtxoMap
  createdOutpoints : Finset Outpoint

/-- The exception of a failed application and the map left behind. -/
structure ApplyFailure where
  exception : PyException
  utxos : UtxoMap

namespace UTXOSet

/-- `UTXOSet()`. -/
def empty : UTXOSet := ⟨∅, ∅⟩

/-- `_rollback_partial`, and the two loops of `revert_block`: drop what was
created, then put back what was spent. -/
def rollbackPartial (utxos spent : UtxoMap) (created : Finset Outpoint) : UtxoMap :=
  MapJournal.undo utxos spent created

/-- The body of the input loop. -/
def spendInput (progress : ApplyProgress) (inp : TxIn) :
    Except ApplyFailure ApplyProgress :=
  match progress.utxos.lookup inp.outpoint with
  | none =>
      .error
        { exception := .valueError ("Missing UTXO for input " ++
            reversedHex inp.prevTxid ++ ":" ++ toString inp.prevVout.toNat)
          utxos := rollbackPartial progress.utxos progress.spentUtxos
            progress.createdOutpoints }
  | some spentEntry =>
      .ok
        { progress with
          utxos := progress.utxos.erase inp.outpoint
          spentUtxos := progress.spentUtxos.insert inp.outpoint spentEntry }

/-- The body of the output loop. -/
def addOutput (txid : Bytes) (height : Nat) (isCb : Bool)
    (progress : ApplyProgress) (out : TxOut × Nat) : ApplyProgress :=
  { progress with
    utxos := progress.utxos.insert (txid, out.2)
      ⟨out.1.value, out.1.scriptPubkey, height, isCb⟩
    createdOutpoints := insert (txid, out.2) progress.createdOutpoints }

/-- The body of the transaction loop. -/
def applyTransaction (prim : Primitives) (height : Nat) (progress : ApplyProgress)
    (tx : Transaction) : Except ApplyFailure ApplyProgress :=
  match (if tx.isCoinbase then .ok progress else tx.vin.foldlM spendInput progress) with
  | .error failure => .error failure
  | .ok progress =>
      .ok (tx.vout.zipIdx.foldl
        (addOutput (tx.txid prim) height tx.isCoinbase) progress)

/-- `apply_block`. -/
def applyBlock (prim : Primitives) (set : UTXOSet) (blockHash : Bytes)
    (height : Nat) (transactions : List Transaction) :
    Except PyException BlockUndo × UTXOSet :=
  match transactions.foldlM (applyTransaction prim height) ⟨set.utxos, ∅, ∅⟩ with
  | .error failure => (.error failure.exception, { set with utxos := failure.utxos })
  | .ok progress =>
      let undo : BlockUndo := ⟨blockHash, progress.spentUtxos, progress.createdOutpoints⟩
      (.ok undo, ⟨progress.utxos, set.undoHistory.insert blockHash undo⟩)

/-- `revert_block`. -/
def revertBlock (set : UTXOSet) (blockHash : Bytes) : Except PyException Unit × UTXOSet :=
  match set.undoHistory.lookup blockHash with
  | none =>
      (.error (.valueError
        ("No undo data available for block " ++ reversedHex blockHash)), set)
  | some undo =>
      (.ok (),
        { utxos := rollbackPartial set.utxos undo.spentUtxos undo.createdOutpoints
          undoHistory := set.undoHistory.erase blockHash })

/-- `total_circulation`. -/
def totalCirculation (set : UTXOSet) : Nat :=
  (set.utxos.entries.map fun entry => entry.2.value).sum

end UTXOSet

end QuantyCoin
