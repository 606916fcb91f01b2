import QuantyCoin.GreedySelection
import QuantyCoin.SighashCache
import Mathlib.Data.List.Nodup

/-!
# Coins of a wallet

`CWallet::IsSpent`, `CWallet::GetTxDepthInMainChain` and
`CWallet::IsTxImmatureCoinBase` of `wallet/wallet.cpp`, on the maps of a `CWallet`.
An output can be drawn if its transaction is in the main chain and no transaction
that counts spends it.  That the output is no immature coinbase is a question of its
own.
-/

namespace QuantyCoin

open ByteDecoder GreedySelection

/-! ## Amounts -/

/-- `MAX_MONEY`. -/
def maxMoney : Int64 := 21000000 * 100000000

/-- `MoneyRange`. -/
def moneyRange (nValue : Int64) : Bool := 0 ≤ nValue && nValue ≤ maxMoney

theorem toInt_maxMoney : maxMoney.toInt = 2100000000000000 := by decide

theorem moneyRange_iff {nValue : Int64} :
    moneyRange nValue = true ↔ 0 ≤ nValue.toInt ∧ nValue.toInt ≤ 2100000000000000 := by
  rw [moneyRange, Bool.and_eq_true, decide_eq_true_iff, decide_eq_true_iff,
    Int64.le_iff_toInt_le, Int64.le_iff_toInt_le, toInt_maxMoney]
  rfl

/-- Amounts whose sum is in bounds are added exactly. -/
theorem toInt_add_of_bounds {first second : Int64} (low : -2 ^ 63 ≤ first.toInt + second.toInt)
    (high : first.toInt + second.toInt < 2 ^ 63) :
    (first + second).toInt = first.toInt + second.toInt := by
  rw [Int64.toInt_add]
  apply Int.bmod_eq_of_le
  all_goals omega

theorem toInt_sub_of_bounds {first second : Int64} (low : -2 ^ 63 ≤ first.toInt - second.toInt)
    (high : first.toInt - second.toInt < 2 ^ 63) :
    (first - second).toInt = first.toInt - second.toInt := by
  rw [Int64.toInt_sub]
  apply Int.bmod_eq_of_le
  all_goals omega

/-! ## Transactions of a wallet -/

/-- `COutPoint::IsNull`. -/
def COutPoint.isNull (prevout : COutPoint) : Bool :=
  prevout.hash.bytes = List.replicate 32 0 && prevout.n = 0xffffffff

/-- `CTransaction::IsCoinBase`. -/
def CTransaction.isCoinBase (tx : CTransaction) : Bool :=
  match tx.vin with
  | [txin] => txin.prevout.isNull
  | _ => false

/-- `TxState`, without the hashes of blocks and the positions in them. -/
inductive TxState
  | confirmed (confirmedBlockHeight : Int)
  | inMempool
  | conflicted (conflictingBlockHeight : Int)
  | inactive (abandoned : Bool)
  | unrecognized

/-- `CWalletTx`. -/
structure CWalletTx where
  tx : Option CTransaction
  state : TxState

/-- `CWalletTx::isAbandoned`. -/
def CWalletTx.isAbandoned (wtx : CWalletTx) : Bool :=
  match wtx.state with
  | .inactive abandoned => abandoned
  | _ => false

/-- `CWalletTx::IsCoinBase`. -/
def CWalletTx.isCoinBase (wtx : CWalletTx) : Bool := wtx.tx.any CTransaction.isCoinBase

/-- What `CheckTransaction` has established of the outputs of a transaction. -/
structure CheckedOutputs (tx : CTransaction) : Prop where
  length_lt : tx.vout.length < 2 ^ 32
  inRange : ∀ txout ∈ tx.vout, moneyRange txout.nValue = true

/-- The maps `mapWallet`, in the order of its iteration, and `mapTxSpends` of a
`CWallet`, and the height of the last block it has seen. -/
structure WalletTxs where
  mapWallet : List (Uint256 × CWalletTx)
  mapTxSpends : List (COutPoint × Uint256)
  lastBlockHeight : Int
  distinctTxids : (mapWallet.map Prod.fst).Nodup
  conflicted_le : ∀ entry ∈ mapWallet, ∀ height,
    entry.2.state = .conflicted height → height ≤ lastBlockHeight
  checked : ∀ entry ∈ mapWallet, ∀ height, entry.2.state = .confirmed height →
    ∀ tx, entry.2.tx = some tx → CheckedOutputs tx

namespace WalletTxs

/-- `COINBASE_MATURITY`. -/
def coinbaseMaturity : Int := 100

variable (wallet : WalletTxs)

/-- `mapWallet.find`. -/
def find (txid : Uint256) : Option CWalletTx :=
  (wallet.mapWallet.find? fun entry => entry.1 = txid).map Prod.snd

/-- `GetTxDepthInMainChain`. -/
def getTxDepthInMainChain (wtx : CWalletTx) : Int :=
  match wtx.state with
  | .confirmed height => wallet.lastBlockHeight - height + 1
  | .conflicted height => -1 * (wallet.lastBlockHeight - height + 1)
  | _ => 0

/-- `GetTxBlocksToMaturity`. -/
def getTxBlocksToMaturity (wtx : CWalletTx) : Int :=
  if wtx.isCoinBase then max 0 (coinbaseMaturity + 1 - wallet.getTxDepthInMainChain wtx) else 0

/-- `IsTxImmatureCoinBase`. -/
def isTxImmatureCoinBase (wtx : CWalletTx) : Bool := 0 < wallet.getTxBlocksToMaturity wtx

/-- `IsSpent`. -/
def isSpent (outpoint : COutPoint) : Bool :=
  wallet.mapTxSpends.any fun spend => spend.1 = outpoint &&
    (wallet.find spend.2).any fun wtx =>
      0 < wallet.getTxDepthInMainChain wtx ||
        wallet.getTxDepthInMainChain wtx = 0 && !wtx.isAbandoned

/-- The output belongs to no immature coinbase transaction. -/
def IsMature (outpoint : COutPoint) : Prop :=
  ∀ wtx, wallet.find outpoint.hash = some wtx → wallet.isTxImmatureCoinBase wtx = false

/-- The output pays the script, its transaction is confirmed and it is not spent. -/
def Pays (script : Bytes) (coin : COutPoint × Int64) : Prop :=
  ∃ wtx tx txout, wallet.find coin.1.hash = some wtx ∧ wtx.tx = some tx ∧
    0 < wallet.getTxDepthInMainChain wtx ∧ tx.vout[coin.1.n.toNat]? = some txout ∧
    txout.scriptPubKey = script ∧ txout.nValue = coin.2 ∧ wallet.isSpent coin.1 = false

theorem find_eq_some_iff {txid : Uint256} {wtx : CWalletTx} :
    wallet.find txid = some wtx ↔ (txid, wtx) ∈ wallet.mapWallet := by
  have distinct := wallet.distinctTxids
  unfold find
  generalize wallet.mapWallet = entries at distinct
  induction entries with
  | nil => simp
  | cons entry entries ih =>
      obtain ⟨other, first⟩ := entry
      obtain ⟨new, distinctRest⟩ := List.nodup_cons.mp distinct
      by_cases same : other = txid
      · subst same
        have absent : (other, wtx) ∉ entries := fun inside =>
          new (List.mem_map.mpr ⟨_, inside, rfl⟩)
        simp [absent, eq_comm]
      · have different : ¬ (txid, wtx) = (other, first) := fun equal =>
          same (congrArg Prod.fst equal).symm
        rw [List.find?_cons_of_neg (by simpa using same), List.mem_cons]
        exact (ih distinctRest).trans (or_iff_right different).symm

/-- Only a confirmed transaction has a positive depth. -/
theorem confirmed_of_depth {txid : Uint256} {wtx : CWalletTx}
    (member : (txid, wtx) ∈ wallet.mapWallet) (deep : 0 < wallet.getTxDepthInMainChain wtx) :
    ∃ height, wtx.state = .confirmed height := by
  have bounded := wallet.conflicted_le _ member
  unfold getTxDepthInMainChain at deep
  cases state : wtx.state with
  | confirmed height => exact ⟨height, rfl⟩
  | conflicted height =>
      rw [state] at deep
      have low := bounded height state
      simp only at deep
      omega
  | inMempool => simp [state] at deep
  | inactive abandoned => simp [state] at deep
  | unrecognized => simp [state] at deep

theorem checked_of_depth {txid : Uint256} {wtx : CWalletTx} {tx : CTransaction}
    (member : (txid, wtx) ∈ wallet.mapWallet) (deep : 0 < wallet.getTxDepthInMainChain wtx)
    (known : wtx.tx = some tx) : CheckedOutputs tx := by
  obtain ⟨height, state⟩ := wallet.confirmed_of_depth member deep
  exact wallet.checked _ member height state tx known

/-! ## The coins of a script -/

section Script

variable (script : Bytes)

/-- The unspent outputs for the script among the outputs from index `n` on. -/
def coinsFrom (txid : Uint256) : List CTxOut → Nat → List (COutPoint × Int64)
  | [], _ => []
  | txout :: vout, n =>
      if txout.scriptPubKey ≠ script then coinsFrom txid vout (n + 1)
      else if wallet.isSpent ⟨txid, UInt32.ofNat n⟩ then coinsFrom txid vout (n + 1)
      else (⟨txid, UInt32.ofNat n⟩, txout.nValue) :: coinsFrom txid vout (n + 1)

/-- The unspent outputs for the script of one transaction in the main chain. -/
def coinsOf (entry : Uint256 × CWalletTx) : List (COutPoint × Int64) :=
  match entry.2.tx with
  | none => []
  | some tx =>
      if wallet.getTxDepthInMainChain entry.2 ≤ 0 then []
      else wallet.coinsFrom script entry.1 tx.vout 0

/-- The unspent outputs for the script of all transactions in the main chain. -/
def coins : List (COutPoint × Int64) := wallet.mapWallet.flatMap (wallet.coinsOf script)

variable {script} {txid : Uint256} {vout : List CTxOut} {coin : COutPoint × Int64} {n : Nat}

theorem mem_coinsFrom :
    coin ∈ wallet.coinsFrom script txid vout n ↔
      ∃ k txout, vout[k]? = some txout ∧ txout.scriptPubKey = script ∧
        wallet.isSpent ⟨txid, UInt32.ofNat (n + k)⟩ = false ∧
        coin = (⟨txid, UInt32.ofNat (n + k)⟩, txout.nValue) := by
  induction vout generalizing n with
  | nil => simp [coinsFrom]
  | cons first vout ih =>
      -- The first output, or one of the others at an index one lower.
      have cases_index : (∃ k txout, (first :: vout)[k]? = some txout ∧
            txout.scriptPubKey = script ∧
            wallet.isSpent ⟨txid, UInt32.ofNat (n + k)⟩ = false ∧
            coin = (⟨txid, UInt32.ofNat (n + k)⟩, txout.nValue)) ↔
          (first.scriptPubKey = script ∧ wallet.isSpent ⟨txid, UInt32.ofNat n⟩ = false ∧
            coin = (⟨txid, UInt32.ofNat n⟩, first.nValue)) ∨
          coin ∈ wallet.coinsFrom script txid vout (n + 1) := by
        rw [ih]
        constructor
        · rintro ⟨k, txout, found, rest⟩
          cases k with
          | zero =>
              cases found
              exact Or.inl rest
          | succ k =>
              rw [show n + (k + 1) = n + 1 + k by omega] at rest
              exact Or.inr ⟨k, txout, found, rest⟩
        · rintro (rest | ⟨k, txout, found, rest⟩)
          · exact ⟨0, first, rfl, rest⟩
          · rw [show n + 1 + k = n + (k + 1) by omega] at rest
            exact ⟨k + 1, txout, found, rest⟩
      rw [cases_index, coinsFrom]
      split_ifs with other spent
      · exact (or_iff_right fun ⟨same, _⟩ => other same).symm
      · exact (or_iff_right fun ⟨_, unspent, _⟩ => by simp [spent] at unspent).symm
      · simp [not_not.mp other, spent]

theorem coinsFrom_nodup (short : n + vout.length ≤ 2 ^ 32) :
    ((wallet.coinsFrom script txid vout n).map Prod.fst).Nodup := by
  induction vout generalizing n with
  | nil => exact List.nodup_nil
  | cons first vout ih =>
      rw [List.length_cons] at short
      have rest := @ih (n + 1) (by omega)
      unfold coinsFrom
      split_ifs
      · exact rest
      · exact rest
      · refine List.nodup_cons.mpr ⟨?_, rest⟩
        intro inside
        obtain ⟨coin, member, same⟩ := List.mem_map.mp inside
        obtain ⟨k, txout, found, -, -, rfl⟩ := wallet.mem_coinsFrom.mp member
        obtain ⟨before, -⟩ := List.getElem?_eq_some_iff.mp found
        have equal := congrArg (fun outpoint => outpoint.n.toNat) same
        simp only [UInt32.toNat_ofNat'] at equal
        omega

theorem mem_coinsOf {wtx : CWalletTx} :
    coin ∈ wallet.coinsOf script (txid, wtx) ↔
      ∃ tx, wtx.tx = some tx ∧ 0 < wallet.getTxDepthInMainChain wtx ∧
        coin ∈ wallet.coinsFrom script txid tx.vout 0 := by
  unfold coinsOf
  cases known : wtx.tx with
  | none => simp
  | some tx =>
      by_cases deep : 0 < wallet.getTxDepthInMainChain wtx
      · simp [deep]
      · simp [deep, not_lt.mp deep]

theorem hash_of_mem_coinsOf {entry : Uint256 × CWalletTx}
    (member : coin ∈ wallet.coinsOf script entry) : coin.1.hash = entry.1 := by
  obtain ⟨tx, -, -, inside⟩ := wallet.mem_coinsOf.mp member
  obtain ⟨k, txout, -, -, -, rfl⟩ := wallet.mem_coinsFrom.mp inside
  rfl

/-- The coins are exactly the outputs that pay the script. -/
theorem mem_coins_iff : coin ∈ wallet.coins script ↔ wallet.Pays script coin := by
  rw [coins, List.mem_flatMap]
  constructor
  · rintro ⟨⟨txid, wtx⟩, member, inside⟩
    obtain ⟨tx, known, deep, listed⟩ := wallet.mem_coinsOf.mp inside
    obtain ⟨k, txout, found, pays, unspent, rfl⟩ := wallet.mem_coinsFrom.mp listed
    have short := (wallet.checked_of_depth member deep known).length_lt
    obtain ⟨before, -⟩ := List.getElem?_eq_some_iff.mp found
    have index : (UInt32.ofNat (0 + k)).toNat = k := by
      rw [UInt32.toNat_ofNat', Nat.zero_add]
      exact Nat.mod_eq_of_lt (before.trans short)
    refine ⟨wtx, tx, txout, wallet.find_eq_some_iff.mpr member, known, deep, ?_, pays, rfl, unspent⟩
    exact index.symm ▸ found
  · rintro ⟨wtx, tx, txout, found, known, deep, output, pays, value, unspent⟩
    refine ⟨(coin.1.hash, wtx), wallet.find_eq_some_iff.mp found, ?_⟩
    have outpoint : (⟨coin.1.hash, UInt32.ofNat (0 + coin.1.n.toNat)⟩ : COutPoint) = coin.1 := by
      rw [Nat.zero_add, UInt32.ofNat_toNat]
    refine wallet.mem_coinsOf.mpr ⟨tx, known, deep, wallet.mem_coinsFrom.mpr ?_⟩
    exact ⟨coin.1.n.toNat, txout, output, pays, outpoint.symm ▸ unspent, by rw [outpoint, value]⟩

theorem coinsOf_nodup {entry : Uint256 × CWalletTx} (member : entry ∈ wallet.mapWallet) :
    ((wallet.coinsOf script entry).map Prod.fst).Nodup := by
  unfold coinsOf
  cases known : entry.2.tx with
  | none => exact List.nodup_nil
  | some tx =>
      by_cases deep : wallet.getTxDepthInMainChain entry.2 ≤ 0
      · simp [deep]
      · have short := (wallet.checked_of_depth member (not_le.mp deep) known).length_lt
        simp only [if_neg deep]
        exact wallet.coinsFrom_nodup (by omega)

theorem coins_nodup (script : Bytes) : ((wallet.coins script).map Prod.fst).Nodup := by
  rw [coins, List.map_flatMap, List.nodup_flatMap]
  refine ⟨fun entry member => wallet.coinsOf_nodup member, ?_⟩
  refine (List.pairwise_map.mp wallet.distinctTxids).imp ?_
  intro first second different outpoint inFirst inSecond
  obtain ⟨coin, member, rfl⟩ := List.mem_map.mp inFirst
  obtain ⟨other, member', same⟩ := List.mem_map.mp inSecond
  apply different
  rw [← wallet.hash_of_mem_coinsOf member, ← wallet.hash_of_mem_coinsOf member', same]

/-- Every coin has passed the checks of consensus. -/
theorem moneyRange_of_mem_coins (member : coin ∈ wallet.coins script) :
    moneyRange coin.2 = true := by
  obtain ⟨wtx, tx, txout, found, known, deep, output, -, value, -⟩ :=
    wallet.mem_coins_iff.mp member
  have checked := wallet.checked_of_depth (wallet.find_eq_some_iff.mp found) deep known
  rw [← value]
  exact checked.inRange txout (List.mem_of_getElem? output)

end Script

end WalletTxs

end QuantyCoin
