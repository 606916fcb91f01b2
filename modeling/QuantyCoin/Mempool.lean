import QuantyCoin.InputSignature
import QuantyCoin.UtxoSet

/-!
# The memory pool

`core/mempool.py`: admission of transactions and removal of mined ones.  The
clock is an argument of `add_transaction`.
-/

namespace QuantyCoin

structure MempoolEntry where
  tx : Transaction
  feeSat : Nat
  entryTime : Nat
  deriving DecidableEq

structure Mempool where
  entries : Finmap fun _ : Bytes => MempoolEntry
  spentOutpoints : Finmap fun _ : Outpoint => Bytes
  deriving DecidableEq

namespace Mempool

/-- `Mempool()`. -/
def empty : Mempool := ⟨∅, ∅⟩

/-- The input loop of `add_transaction`: the total value of the inputs, or
why the transaction is refused. -/
def checkInputs (prim : Primitives) (pool : Mempool) (utxoSet : UTXOSet)
    (tx : Transaction) : Nat → List TxIn → Nat → Except String Nat
  | _, [], totalIn => .ok totalIn
  | index, inp :: rest, totalIn =>
      match pool.spentOutpoints.lookup inp.outpoint with
      | some conflictingTxid =>
          .error ("Double spend conflict with mempool transaction " ++
            reversedHex conflictingTxid)
      | none =>
          match utxoSet.utxos.lookup inp.outpoint with
          | none =>
              .error ("Missing UTXO for input " ++ reversedHex inp.prevTxid ++ ":" ++
                toString inp.prevVout.toNat)
          | some utxo =>
              if !tx.verifyInputSignature prim index utxo.scriptPubkey utxo.value then
                .error ("Invalid signature on input " ++ toString index)
              else
                checkInputs prim pool utxoSet tx (index + 1) rest (totalIn + utxo.value)

/-- `add_transaction`. -/
def addTransaction (prim : Primitives) (pool : Mempool) (tx : Transaction)
    (utxoSet : UTXOSet) (now : Nat) : (Bool × String) × Mempool :=
  let txid := tx.txid prim
  if txid ∈ pool.entries then ((false, "Transaction already in mempool"), pool)
  else if tx.isCoinbase then
    ((false, "Coinbase transaction cannot be accepted to mempool"), pool)
  else if tx.vin = [] ∨ tx.vout = [] then
    ((false, "Transaction must have at least 1 input and 1 output"), pool)
  else
    match checkInputs prim pool utxoSet tx 0 tx.vin 0 with
    | .error message => ((false, message), pool)
    | .ok totalIn =>
        if tx.totalOut > totalIn then
          ((false, "Total outputs (" ++ toString tx.totalOut ++
            ") exceed total inputs (" ++ toString totalIn ++ ")"), pool)
        else
          ((true, "Accepted"),
            { entries := pool.entries.insert txid ⟨tx, totalIn - tx.totalOut, now⟩
              spentOutpoints := tx.vin.foldl
                (fun spent inp => spent.insert inp.outpoint txid) pool.spentOutpoints })

/-- `remove_transaction`. -/
def removeTransaction (pool : Mempool) (txid : Bytes) : Mempool :=
  match pool.entries.lookup txid with
  | none => pool
  | some entry =>
      { entries := pool.entries.erase txid
        spentOutpoints := entry.tx.vin.foldl
          (fun spent inp => spent.erase inp.outpoint) pool.spentOutpoints }

/-- `remove_mined_transactions`. -/
def removeMinedTransactions (prim : Primitives) (pool : Mempool)
    (blockTxs : List Transaction) : Mempool :=
  blockTxs.foldl (fun pool tx => pool.removeTransaction (tx.txid prim)) pool

end Mempool

end QuantyCoin
