import QuantyCoin.CoinsRuns

/-!
# Connecting a block and taking it back

`UpdateCoins`, `AddCoins` and `DisconnectBlock`, on a stack of coin caches.  The undo data
that connecting a block collects is enough to take the block back: every output that it has
made is found as it was made, and every coin that it has spent is put back.
-/

namespace QuantyCoin.CoinsViews

open StateTriples

/-! ## The loops of the code -/

/-- `CTransaction`, with the hash that it stores. -/
structure HashedTransaction extends CTransaction where
  hash : Uint256

/-- The outputs of a transaction and the coins that they make. -/
def HashedTransaction.outputs (tx : HashedTransaction) (nHeight : Nat) :
    List (COutPoint × Coin) :=
  tx.vout.zipIdx.map fun output =>
    (⟨tx.hash, .ofNat output.2⟩, ⟨output.1, tx.isCoinBase, .ofNat 31 nHeight⟩)

/-- The body of `AddCoins`. -/
def addOutputs (fCoinbase checkForOverwrite : Bool) : List (COutPoint × Coin) → CoinsM Unit
  | [] => return
  | (outpoint, coin) :: outputs => do
      let overwrite ←
        if checkForOverwrite then CCoinsViewCache.haveCoin outpoint else pure fCoinbase
      CCoinsViewCache.addCoin outpoint coin overwrite
      addOutputs fCoinbase checkForOverwrite outputs

def addCoins (tx : HashedTransaction) (nHeight : Nat) (checkForOverwrite : Bool) : CoinsM Unit :=
  addOutputs tx.isCoinBase checkForOverwrite (tx.outputs nHeight)

/-- The loop of `UpdateCoins` over the inputs. -/
def spendInputs : List CTxIn → CoinsM (List Coin)
  | [] => return []
  | txin :: vin => do
      let (isSpent, coin) ← CCoinsViewCache.spendCoin txin.prevout
      if !isSpent then throw .assertion
      return coin :: (← spendInputs vin)

/-- The part of `UpdateCoins` that marks the inputs spent. -/
def markInputsSpent (tx : HashedTransaction) : CoinsM (List Coin) :=
  if tx.isCoinBase then return [] else spendInputs tx.vin

/-- `UpdateCoins`, with the `vprevout` of the undo data. -/
def updateCoins (tx : HashedTransaction) (nHeight : Nat) : CoinsM (List Coin) := do
  let vprevout ← markInputsSpent tx
  addCoins tx nHeight false
  return vprevout

/-- The calls of `UpdateCoins` in `ConnectBlock`. -/
def updateTransactions (nHeight : Nat) : List HashedTransaction → CoinsM (List (List Coin))
  | [] => return []
  | tx :: vtx => do
      let txundo ← updateCoins tx nHeight
      return txundo :: (← updateTransactions nHeight vtx)

/-- What `ConnectBlock` does to the coins, with the undo data of all transactions but the
first one. -/
def updateBlock (vtx : List HashedTransaction) (nHeight : Nat) (blockHash : Uint256) :
    CoinsM (List (List Coin)) := do
  let vtxundo ← updateTransactions nHeight vtx
  CCoinsViewCache.setBestBlock blockHash
  return vtxundo.tail

/-- `DisconnectResult`. -/
inductive DisconnectResult
  | ok
  | unclean
  | failed

/-- `MAX_OUTPUTS_PER_BLOCK`: `MAX_BLOCK_WEIGHT` over `WITNESS_SCALE_FACTOR` times the size of
an empty output. -/
def maxOutputsPerBlock : Nat := 32 * 1024 * 1024 / (16 * 9)

/-- The loop of `AccessByTxid`, at the next output. -/
def accessByTxid (txid : Uint256) : (count : Nat) → (next : Nat) → CoinsM Coin
  | 0, _ => return .empty
  | count + 1, next => do
      let alternate ← CCoinsViewCache.accessCoin ⟨txid, .ofNat next⟩
      if alternate.isSpent then accessByTxid txid count (next + 1) else return alternate

/-- The end of `ApplyTxInUndo`. -/
def restoreCoin (fClean : Bool) (undo : Coin) (out : COutPoint) : CoinsM DisconnectResult := do
  CCoinsViewCache.addCoin out undo (!fClean)
  return if fClean then .ok else .unclean

def applyTxInUndo (undo : Coin) (out : COutPoint) : CoinsM DisconnectResult := do
  let fClean := !(← CCoinsViewCache.haveCoin out)
  if undo.nHeight = 0 then
    let alternate ← accessByTxid out.hash maxOutputsPerBlock 0
    if alternate.isSpent then return .failed
    else
      let undo := { undo with nHeight := alternate.nHeight, fCoinBase := alternate.fCoinBase }
      restoreCoin fClean undo out
  else restoreCoin fClean undo out

/-- The coin is the output as the block has made it. -/
def matchesOutput (nHeight : Nat) (made coin : Coin) : Bool :=
  made.out.nValue = coin.out.nValue && made.out.scriptPubKey = coin.out.scriptPubKey &&
    nHeight = coin.nHeight.toNat && made.fCoinBase = coin.fCoinBase

/-- The loop of `DisconnectBlock` over the outputs of a transaction. -/
def removeOutputs (nHeight : Nat) (exception : Bool) :
    List (COutPoint × Coin) → Bool → CoinsM Bool
  | [], fClean => return fClean
  | (outpoint, made) :: outputs, fClean => do
      if isUnspendable made.out.scriptPubKey then removeOutputs nHeight exception outputs fClean
      else
        let (isSpent, coin) ← CCoinsViewCache.spendCoin outpoint
        removeOutputs nHeight exception outputs
          (fClean && ((isSpent && matchesOutput nHeight made coin) || exception))

/-- The loop of `DisconnectBlock` over the inputs of a transaction, which is `none` if it
fails. -/
def restoreInputs : List (COutPoint × Coin) → Bool → CoinsM (Option Bool)
  | [], fClean => return some fClean
  | (out, undo) :: inputs, fClean => do
      match ← applyTxInUndo undo out with
      | .ok => restoreInputs inputs fClean
      | .unclean => restoreInputs inputs false
      | .failed => return none

/-- The body of the loop of `DisconnectBlock`, with the undo data of the transaction. -/
def disconnectTransaction (nHeight : Nat) (enforceBip30 : Bool) (tx : HashedTransaction)
    (txundo : Option (List Coin)) (fClean : Bool) : CoinsM (Option Bool) := do
  let fClean ← removeOutputs nHeight (tx.isCoinBase && !enforceBip30) (tx.outputs nHeight) fClean
  match txundo with
  | none => return some fClean
  | some vprevout =>
      if vprevout.length ≠ tx.vin.length then return none
      else restoreInputs ((tx.vin.map CTxIn.prevout).zip vprevout).reverse fClean

/-- The loop of `DisconnectBlock`. -/
def disconnectTransactions (nHeight : Nat) (enforceBip30 : Bool) :
    List (HashedTransaction × Option (List Coin)) → Bool → CoinsM (Option Bool)
  | [], fClean => return some fClean
  | (tx, txundo) :: earlier, fClean => do
      match ← disconnectTransaction nHeight enforceBip30 tx txundo fClean with
      | none => return none
      | some fClean => disconnectTransactions nHeight enforceBip30 earlier fClean

/-- `DisconnectBlock`, with the undo data that is read from the disk. -/
def disconnectBlock (blockUndo : Option (List (List Coin))) (vtx : List HashedTransaction)
    (nHeight : Nat) (enforceBip30 : Bool) (prevHash : Uint256) : CoinsM DisconnectResult := do
  match blockUndo with
  | none => return .failed
  | some vtxundo =>
      if vtxundo.length + 1 ≠ vtx.length then return .failed
      else
        match ← disconnectTransactions nHeight enforceBip30
          (vtx.zip (none :: vtxundo.map some)).reverse true with
        | none => return .failed
        | some fClean =>
            CCoinsViewCache.setBestBlock prevHash
            return if fClean then .ok else .unclean

/-! ## Coins that are removed and added -/

/-- The coins without those of the outpoints. -/
def removed (coins : COutPoint → Option Coin) (outpoints : List COutPoint) :
    COutPoint → Option Coin :=
  outpoints.foldl (fun coins outpoint => Function.update coins outpoint none) coins

/-- The coins with the entries. -/
def added (coins : COutPoint → Option Coin) (entries : List (COutPoint × Coin)) :
    COutPoint → Option Coin :=
  entries.foldl (fun coins entry => Function.update coins entry.1 (some entry.2)) coins

section Changes

variable (coins : COutPoint → Option Coin) {entries : List (COutPoint × Coin)}
  {outpoint : COutPoint}

theorem removed_apply (outpoints : List COutPoint) (outpoint : COutPoint) :
    removed coins outpoints outpoint = if outpoint ∈ outpoints then none else coins outpoint := by
  induction outpoints generalizing coins with
  | nil => rfl
  | cons first outpoints ih =>
      change removed (Function.update coins first none) outpoints outpoint = _
      rw [ih, Function.update_apply]
      by_cases same : outpoint = first
      · simp [same]
      · simp [same]

theorem added_of_notMem (absent : outpoint ∉ entries.map Prod.fst) :
    added coins entries outpoint = coins outpoint := by
  induction entries generalizing coins with
  | nil => rfl
  | cons entry entries ih =>
      rw [List.map_cons, List.mem_cons, not_or] at absent
      change added (Function.update coins entry.1 (some entry.2)) entries outpoint = _
      rw [ih _ absent.2, Function.update_of_ne absent.1]

theorem added_of_mem (distinct : (entries.map Prod.fst).Nodup) {entry : COutPoint × Coin}
    (member : entry ∈ entries) : added coins entries entry.1 = some entry.2 := by
  induction entries generalizing coins with
  | nil => cases member
  | cons first entries ih =>
      rw [List.map_cons, List.nodup_cons] at distinct
      change added (Function.update coins first.1 (some first.2)) entries entry.1 = _
      rcases List.mem_cons.mp member with rfl | later
      · rw [added_of_notMem _ distinct.1, Function.update_self]
      · exact ih _ distinct.2 later

/-- New coins are taken away again. -/
theorem removed_added (absent : ∀ entry ∈ entries, coins entry.1 = none) :
    removed (added coins entries) (entries.map Prod.fst) = coins := by
  ext1 outpoint
  rw [removed_apply]
  split_ifs with member
  · obtain ⟨entry, inside, rfl⟩ := List.mem_map.mp member
    exact (absent entry inside).symm
  · exact added_of_notMem coins member

/-- Coins that are taken away are put back, in any order. -/
theorem added_removed (distinct : (entries.map Prod.fst).Nodup)
    (present : ∀ entry ∈ entries, coins entry.1 = some entry.2) {outpoints : List COutPoint}
    (same : ∀ outpoint, outpoint ∈ outpoints ↔ outpoint ∈ entries.map Prod.fst) :
    added (removed coins outpoints) entries = coins := by
  ext1 outpoint
  by_cases member : outpoint ∈ entries.map Prod.fst
  · obtain ⟨entry, inside, rfl⟩ := List.mem_map.mp member
    rw [added_of_mem _ distinct inside, present entry inside]
  · rw [added_of_notMem _ member, removed_apply, if_neg ((same outpoint).not.mpr member)]

end Changes

/-! ## The loops on the levels -/

/-- The coin of the entry is one that a cache adds. -/
def isSpendable (entry : COutPoint × Coin) : Bool := !isUnspendable entry.2.out.scriptPubKey

section Loops

variable {top : CoinLevel} {below : List CoinLevel}

theorem leads_addOutputs {fCoinbase : Bool} {outputs : List (COutPoint × Coin)}
    (distinct : (outputs.map Prod.fst).Nodup)
    (absent : ∀ output ∈ outputs, top.coins output.1 = none)
    (unspent : ∀ output ∈ outputs, output.2.isSpent = false) :
    Leads (top :: below) (addOutputs fCoinbase false outputs) (fun _ => True)
      ({ top with coins := added top.coins (outputs.filter isSpendable) } :: below) := by
  induction outputs generalizing top with
  | nil => exact .pure trivial
  | cons output outputs ih =>
      rw [List.map_cons, List.nodup_cons] at distinct
      have first := @leads_addCoin top below output.1 output.2 fCoinbase
        (unspent output List.mem_cons_self) fun _ => absent output List.mem_cons_self
      have later (output' : COutPoint × Coin) (member : output' ∈ outputs) :=
        unspent output' (List.mem_cons_of_mem _ member)
      simp only [addOutputs, Bool.false_eq_true, if_false, pure_bind]
      refine first.bind fun _ _ => ?_
      by_cases spendable : isUnspendable output.2.out.scriptPubKey = true
      · rw [if_pos spendable, List.filter_cons_of_neg (by simp [isSpendable, spendable])]
        exact ih distinct.2 (fun other member => absent other (List.mem_cons_of_mem _ member)) later
      · rw [if_neg spendable, List.filter_cons_of_pos (by simp [isSpendable, spendable])]
        refine ih distinct.2 (fun other member => ?_) later
        have different : other.1 ≠ output.1 := fun same =>
          distinct.1 (same ▸ List.mem_map_of_mem member)
        exact (Function.update_of_ne different _ _).trans
          (absent other (List.mem_cons_of_mem _ member))

/-- The coins of the outpoints, for the undo data. -/
def undoOf (coins : COutPoint → Option Coin) (outpoints : List COutPoint) : List Coin :=
  outpoints.map fun outpoint => (coins outpoint).getD .empty

theorem leads_spendInputs {vin : List CTxIn} (distinct : (vin.map CTxIn.prevout).Nodup)
    (present : ∀ outpoint ∈ vin.map CTxIn.prevout, top.coins outpoint ≠ none) :
    Leads (top :: below) (spendInputs vin)
      (fun undo => undo = undoOf top.coins (vin.map CTxIn.prevout))
      ({ top with coins := removed top.coins (vin.map CTxIn.prevout) } :: below) := by
  induction vin generalizing top with
  | nil => exact .pure rfl
  | cons txin vin ih =>
      rw [List.map_cons, List.nodup_cons] at distinct
      have different {outpoint : COutPoint} (member : outpoint ∈ vin.map CTxIn.prevout) :
          (top.set txin.prevout none).coins outpoint = top.coins outpoint := by
        have other : outpoint ≠ txin.prevout := fun same => distinct.1 (same ▸ member)
        exact Function.update_of_ne other _ _
      unfold spendInputs
      refine (leads_spendCoin txin.prevout).bind fun spent moved => ?_
      have isSpent : spent.1 = true := by
        by_contra failed
        exact present txin.prevout List.mem_cons_self (moved.2 (by simpa using failed))
      simp only [isSpent, Bool.not_true, Bool.false_eq_true, if_false]
      have rest := @ih (top.set txin.prevout none) distinct.2 fun outpoint member => by
        rw [different member]
        exact present outpoint (List.mem_cons_of_mem _ member)
      refine rest.bind fun undo others => .pure ?_
      rw [moved.1, others, undoOf, undoOf, List.map_cons, List.map_cons]
      congr 1
      exact List.map_congr_left fun outpoint member => by rw [different member]

theorem leads_removeOutputs {nHeight : Nat} {exception fClean : Bool}
    {outputs : List (COutPoint × Coin)} (distinct : (outputs.map Prod.fst).Nodup)
    (height : ∀ output ∈ outputs, output.2.nHeight.toNat = nHeight)
    (present : ∀ output ∈ outputs.filter isSpendable, top.coins output.1 = some output.2) :
    Leads (top :: below) (removeOutputs nHeight exception outputs fClean)
      (fun clean => clean = fClean)
      ({ top with coins := removed top.coins ((outputs.filter isSpendable).map Prod.fst) } ::
        below) := by
  induction outputs generalizing top with
  | nil => exact .pure rfl
  | cons output outputs ih =>
      rw [List.map_cons, List.nodup_cons] at distinct
      have heights (other : COutPoint × Coin) (member : other ∈ outputs) :=
        height other (List.mem_cons_of_mem _ member)
      unfold removeOutputs
      by_cases spendable : isUnspendable output.2.out.scriptPubKey = true
      · rw [List.filter_cons_of_neg (by simp [isSpendable, spendable])] at present ⊢
        simp only [spendable, if_true]
        exact ih distinct.2 heights present
      · rw [List.filter_cons_of_pos (by simp [isSpendable, spendable])] at present ⊢
        simp only [spendable, Bool.false_eq_true, if_false]
        refine (leads_spendCoin output.1).bind fun spent moved => ?_
        have found := present output List.mem_cons_self
        have isSpent : spent.1 = true := by
          by_contra failed
          have missing := moved.2 (by simpa using failed)
          rw [found] at missing
          cases missing
        have coin : spent.2 = output.2 := by
          rw [moved.1, found]
          rfl
        have matches' : matchesOutput nHeight output.2 output.2 = true := by
          simp [matchesOutput, height output List.mem_cons_self]
        simp only [isSpent, coin, matches', Bool.and_self, Bool.true_or, Bool.and_true]
        refine ih distinct.2 heights fun other member => ?_
        have different : other.1 ≠ output.1 := fun same =>
          distinct.1 (same ▸ List.mem_map_of_mem (List.mem_of_mem_filter member))
        exact (Function.update_of_ne different _ _).trans
          (present other (List.mem_cons_of_mem _ member))

/-- A coin that the code has stored: not spent, not from the block at height zero and not
unspendable. -/
structure Coin.Stored (coin : Coin) : Prop where
  unspent : coin.isSpent = false
  height : coin.nHeight ≠ 0
  spendable : isUnspendable coin.out.scriptPubKey = false

theorem leads_applyTxInUndo {undo : Coin} (stored : undo.Stored) {outpoint : COutPoint}
    (absent : top.coins outpoint = none) :
    Leads (top :: below) (applyTxInUndo undo outpoint) (fun result => result = .ok)
      (top.set outpoint (some undo) :: below) := by
  unfold applyTxInUndo
  refine (leads_haveCoin outpoint).bind fun found answer => ?_
  have missing : found = false := by
    rw [answer, absent]
    rfl
  simp only [missing, Bool.not_false, stored.height, if_false, restoreCoin, Bool.not_true]
  have adds := @leads_addCoin top below outpoint undo false stored.unspent fun _ => absent
  rw [if_neg (by simp [stored.spendable])] at adds
  exact adds.bind fun _ _ => .pure rfl

theorem leads_restoreInputs {fClean : Bool} {inputs : List (COutPoint × Coin)}
    (distinct : (inputs.map Prod.fst).Nodup) (absent : ∀ input ∈ inputs, top.coins input.1 = none)
    (stored : ∀ input ∈ inputs, input.2.Stored) :
    Leads (top :: below) (restoreInputs inputs fClean) (fun clean => clean = some fClean)
      ({ top with coins := added top.coins inputs } :: below) := by
  induction inputs generalizing top with
  | nil => exact .pure rfl
  | cons input inputs ih =>
      rw [List.map_cons, List.nodup_cons] at distinct
      unfold restoreInputs
      refine (leads_applyTxInUndo (stored input List.mem_cons_self)
        (absent input List.mem_cons_self)).bind fun result same => ?_
      subst same
      refine ih distinct.2 (fun other member => ?_) fun other member =>
        stored other (List.mem_cons_of_mem _ member)
      have different : other.1 ≠ input.1 := fun same =>
        distinct.1 (same ▸ List.mem_map_of_mem member)
      exact (Function.update_of_ne different _ _).trans
        (absent other (List.mem_cons_of_mem _ member))

end Loops

/-! ## Transactions -/

namespace HashedTransaction

variable (tx : HashedTransaction) (nHeight : Nat)

/-- The outpoints that a transaction spends. -/
def spentOutpoints : List COutPoint :=
  if tx.isCoinBase then [] else tx.vin.map CTxIn.prevout

/-- The coins after the transaction. -/
def connected (coins : COutPoint → Option Coin) : COutPoint → Option Coin :=
  added (removed coins tx.spentOutpoints) ((tx.outputs nHeight).filter isSpendable)

/-- What the code has checked of a transaction before it updates the coins: no input comes
twice, the coins of the inputs are there, no amount is null, and no output overwrites a coin. -/
structure Fits (coins : COutPoint → Option Coin) : Prop where
  distinct : tx.spentOutpoints.Nodup
  available : ∀ outpoint ∈ tx.spentOutpoints, coins outpoint ≠ none
  size : tx.vout.length ≤ 2 ^ 32
  amounts : ∀ out ∈ tx.vout, out.nValue ≠ -1
  new : ∀ output ∈ tx.outputs nHeight, coins output.1 = none

variable {tx nHeight}

theorem mem_vout {output : COutPoint × Coin} (member : output ∈ tx.outputs nHeight) :
    output.2.out ∈ tx.vout ∧ output.2.nHeight = .ofNat 31 nHeight := by
  obtain ⟨indexed, inside, rfl⟩ := List.mem_map.mp member
  exact ⟨List.fst_mem_of_mem_zipIdx inside, rfl⟩

theorem nodup_outputs (size : tx.vout.length ≤ 2 ^ 32) :
    ((tx.outputs nHeight).map Prod.fst).Nodup := by
  have outpoints : (tx.outputs nHeight).map Prod.fst =
      (List.range tx.vout.length).map fun i => ⟨tx.hash, .ofNat i⟩ := by
    rw [outputs, List.map_map, List.range_eq_range', ← List.zipIdx_map_snd, List.map_map]
    rfl
  rw [outpoints]
  refine List.Nodup.map_on (fun i inside j inside' same => ?_) List.nodup_range
  rw [List.mem_range] at inside inside'
  have numbers := congrArg (fun outpoint : COutPoint => outpoint.n.toNat) same
  simp only [UInt32.toNat_ofNat'] at numbers
  rwa [Nat.mod_eq_of_lt (by omega), Nat.mod_eq_of_lt (by omega)] at numbers

theorem nodup_spendable (size : tx.vout.length ≤ 2 ^ 32) :
    (((tx.outputs nHeight).filter isSpendable).map Prod.fst).Nodup :=
  (nodup_outputs size).sublist (List.Sublist.map Prod.fst List.filter_sublist)

theorem Fits.unspent {coins : COutPoint → Option Coin} (fits : tx.Fits nHeight coins)
    {output : COutPoint × Coin} (member : output ∈ tx.outputs nHeight) :
    output.2.isSpent = false :=
  decide_eq_false (fits.amounts _ (mem_vout member).1)

theorem Fits.new_removed {coins : COutPoint → Option Coin} (fits : tx.Fits nHeight coins)
    {output : COutPoint × Coin} (member : output ∈ tx.outputs nHeight) :
    removed coins tx.spentOutpoints output.1 = none := by
  rw [removed_apply, fits.new output member, ite_self]

end HashedTransaction

/-- The coins are as the code stores them. -/
def StoredCoins (coins : COutPoint → Option Coin) : Prop :=
  ∀ outpoint coin, coins outpoint = some coin → coin.Stored

section Transactions

open HashedTransaction

variable {top : CoinLevel} {below : List CoinLevel} {tx : HashedTransaction} {nHeight : Nat}
  {coins : COutPoint → Option Coin}

theorem toNat_ofNat_height (small : nHeight < 2 ^ 31) :
    (BitVec.ofNat 31 nHeight).toNat = nHeight := by
  rw [BitVec.toNat_ofNat, Nat.mod_eq_of_lt small]

theorem StoredCoins.connected (stored : StoredCoins coins) (positive : 0 < nHeight)
    (small : nHeight < 2 ^ 31) (fits : tx.Fits nHeight coins) :
    StoredCoins (tx.connected nHeight coins) := by
  intro outpoint coin found
  by_cases member : outpoint ∈ ((tx.outputs nHeight).filter isSpendable).map Prod.fst
  · obtain ⟨output, inside, rfl⟩ := List.mem_map.mp member
    rw [HashedTransaction.connected, added_of_mem _ (nodup_spendable fits.size) inside] at found
    cases found
    obtain ⟨inside, spendable⟩ := List.mem_filter.mp inside
    refine ⟨fits.unspent inside, fun zero => ?_, by simpa [isSpendable] using spendable⟩
    have number := congrArg BitVec.toNat ((mem_vout inside).2.symm.trans zero)
    rw [toNat_ofNat_height small] at number
    exact positive.ne' number
  · rw [HashedTransaction.connected, added_of_notMem _ member, removed_apply] at found
    split_ifs at found
    exact stored outpoint coin found

theorem leads_updateCoins (fits : tx.Fits nHeight top.coins) :
    Leads (top :: below) (updateCoins tx nHeight)
      (fun undo => undo = undoOf top.coins tx.spentOutpoints)
      ({ top with coins := tx.connected nHeight top.coins } :: below) := by
  have spends : Leads (top :: below) (markInputsSpent tx)
      (fun undo => undo = undoOf top.coins tx.spentOutpoints)
      ({ top with coins := removed top.coins tx.spentOutpoints } :: below) := by
    have distinct := fits.distinct
    have available := fits.available
    rw [markInputsSpent]
    rw [HashedTransaction.spentOutpoints] at distinct available ⊢
    split_ifs at distinct available ⊢
    · exact .pure rfl
    · exact leads_spendInputs distinct available
  unfold updateCoins
  refine spends.bind fun undo same => ?_
  have adds := @leads_addOutputs { top with coins := removed top.coins tx.spentOutpoints } below
    tx.isCoinBase (tx.outputs nHeight) (nodup_outputs fits.size)
    (fun output member => fits.new_removed member) fun output member => fits.unspent member
  exact adds.bind fun _ _ => .pure same

theorem leads_disconnectOutputs {enforceBip30 fClean : Bool} (small : nHeight < 2 ^ 31)
    (fits : tx.Fits nHeight coins) :
    Leads ({ top with coins := tx.connected nHeight coins } :: below)
      (removeOutputs nHeight (tx.isCoinBase && !enforceBip30) (tx.outputs nHeight) fClean)
      (fun clean => clean = fClean)
      ({ top with coins := removed coins tx.spentOutpoints } :: below) := by
  have removes := @leads_removeOutputs { top with coins := tx.connected nHeight coins } below
    nHeight (tx.isCoinBase && !enforceBip30) fClean (tx.outputs nHeight) (nodup_outputs fits.size)
    (fun output member => by rw [(mem_vout member).2, toNat_ofNat_height small])
    fun output member => added_of_mem _ (nodup_spendable fits.size) member
  have same : removed (tx.connected nHeight coins)
      (((tx.outputs nHeight).filter isSpendable).map Prod.fst) =
        removed coins tx.spentOutpoints :=
    removed_added _ fun output member => fits.new_removed (List.mem_of_mem_filter member)
  rw [same] at removes
  exact removes

/-- A transaction is taken back. -/
theorem leads_disconnectTransaction {enforceBip30 fClean : Bool} (small : nHeight < 2 ^ 31)
    (plain : tx.isCoinBase = false) (stored : StoredCoins coins) (fits : tx.Fits nHeight coins) :
    Leads ({ top with coins := tx.connected nHeight coins } :: below)
      (disconnectTransaction nHeight enforceBip30 tx (some (undoOf coins tx.spentOutpoints)) fClean)
      (fun clean => clean = some fClean) ({ top with coins } :: below) := by
  have outpoints : tx.spentOutpoints = tx.vin.map CTxIn.prevout := if_neg (by simp [plain])
  unfold disconnectTransaction
  refine (leads_disconnectOutputs small fits).bind fun clean same => ?_
  subst same
  have sized : (undoOf coins tx.spentOutpoints).length = tx.vin.length := by
    rw [undoOf, outpoints, List.length_map, List.length_map]
  simp only [sized, ne_eq, not_true_eq_false, if_false]
  rw [← outpoints]
  -- each spent outpoint with its coin
  generalize inputsEq : (tx.spentOutpoints.zip (undoOf coins tx.spentOutpoints)).reverse = inputs
  have keys : inputs.map Prod.fst = tx.spentOutpoints.reverse := by
    rw [← inputsEq, List.map_reverse, List.map_fst_zip (by simp [undoOf])]
  have present (input : COutPoint × Coin) (member : input ∈ inputs) :
      coins input.1 = some input.2 := by
    rw [← inputsEq, List.mem_reverse, undoOf, ← List.map_prod_left_eq_zip] at member
    obtain ⟨outpoint, inside, rfl⟩ := List.mem_map.mp member
    cases found : coins outpoint with
    | none => exact absurd found (fits.available outpoint inside)
    | some coin => rfl
  have distinct : (inputs.map Prod.fst).Nodup := by
    rw [keys, List.nodup_reverse]
    exact fits.distinct
  have restores := @leads_restoreInputs
    { top with coins := removed coins tx.spentOutpoints } below clean inputs distinct
    (fun input member => by
      have inside : input.1 ∈ tx.spentOutpoints := by
        rw [← List.mem_reverse, ← keys]
        exact List.mem_map_of_mem member
      exact (removed_apply _ _ _).trans (if_pos inside))
    fun input member => stored _ _ (present input member)
  have same : added (removed coins tx.spentOutpoints) inputs = coins :=
    added_removed coins distinct present fun outpoint => by rw [keys, List.mem_reverse]
  rw [same] at restores
  exact restores

/-! ## Blocks -/

/-- What is checked of each transaction of a block, in their order. -/
def BlockFits (nHeight : Nat) : (COutPoint → Option Coin) → List HashedTransaction → Prop
  | _, [] => True
  | coins, tx :: vtx => tx.Fits nHeight coins ∧ BlockFits nHeight (tx.connected nHeight coins) vtx

/-- The coins after the transactions. -/
def connectedAll (nHeight : Nat) (coins : COutPoint → Option Coin)
    (vtx : List HashedTransaction) : COutPoint → Option Coin :=
  vtx.foldl (fun coins tx => tx.connected nHeight coins) coins

/-- The undo data of the transactions. -/
def undoAll (nHeight : Nat) : (COutPoint → Option Coin) → List HashedTransaction → List (List Coin)
  | _, [] => []
  | coins, tx :: vtx =>
      undoOf coins tx.spentOutpoints :: undoAll nHeight (tx.connected nHeight coins) vtx

theorem length_undoAll (coins : COutPoint → Option Coin) (vtx : List HashedTransaction) :
    (undoAll nHeight coins vtx).length = vtx.length := by
  induction vtx generalizing coins with
  | nil => rfl
  | cons tx vtx ih => rw [undoAll, List.length_cons, List.length_cons, ih]

theorem leads_updateTransactions {vtx : List HashedTransaction}
    (fits : BlockFits nHeight top.coins vtx) :
    Leads (top :: below) (updateTransactions nHeight vtx)
      (fun undo => undo = undoAll nHeight top.coins vtx)
      ({ top with coins := connectedAll nHeight top.coins vtx } :: below) := by
  induction vtx generalizing top with
  | nil => exact .pure rfl
  | cons tx vtx ih =>
      unfold updateTransactions
      refine (leads_updateCoins fits.1).bind fun txundo first => ?_
      have rest := @ih { top with coins := tx.connected nHeight top.coins } fits.2
      refine rest.bind fun vtxundo others => .pure ?_
      rw [first, others]
      rfl

theorem disconnectTransactions_append (enforceBip30 fClean : Bool)
    (later earlier : List (HashedTransaction × Option (List Coin))) :
    disconnectTransactions nHeight enforceBip30 (later ++ earlier) fClean = (do
      match ← disconnectTransactions nHeight enforceBip30 later fClean with
      | none => return none
      | some fClean => disconnectTransactions nHeight enforceBip30 earlier fClean) := by
  induction later generalizing fClean with
  | nil => rfl
  | cons first later ih =>
      rw [List.cons_append, disconnectTransactions, disconnectTransactions, bind_assoc]
      congr 1
      funext result
      cases result with
      | none => rfl
      | some clean => exact ih clean

/-- The transactions of a block but the first are taken back, the last one first. -/
theorem leads_disconnectTransactions {enforceBip30 fClean : Bool} (positive : 0 < nHeight)
    (small : nHeight < 2 ^ 31) {vtx : List HashedTransaction}
    (plain : ∀ tx ∈ vtx, tx.isCoinBase = false) (stored : StoredCoins coins)
    (fits : BlockFits nHeight coins vtx) :
    Leads ({ top with coins := connectedAll nHeight coins vtx } :: below)
      (disconnectTransactions nHeight enforceBip30
        (vtx.zip ((undoAll nHeight coins vtx).map some)).reverse fClean)
      (fun clean => clean = some fClean) ({ top with coins } :: below) := by
  induction vtx generalizing coins with
  | nil => exact .pure rfl
  | cons tx vtx ih =>
      rw [undoAll, List.map_cons, List.zip_cons_cons, List.reverse_cons,
        disconnectTransactions_append]
      have later := ih (fun tx member => plain tx (List.mem_cons_of_mem _ member))
        (stored.connected positive small fits.1) fits.2
      refine later.bind fun clean same => ?_
      subst same
      have first := @leads_disconnectTransaction top below tx nHeight coins enforceBip30 fClean
        small (plain tx List.mem_cons_self) stored fits.1
      refine first.bind fun clean same => ?_
      subst same
      exact .pure rfl

theorem leads_updateBlock {vtx : List HashedTransaction} (fits : BlockFits nHeight top.coins vtx)
    (blockHash : Uint256) :
    Leads (top :: below) (updateBlock vtx nHeight blockHash)
      (fun vtxundo => vtxundo = (undoAll nHeight top.coins vtx).tail)
      (⟨connectedAll nHeight top.coins vtx, known blockHash⟩ :: below) := by
  unfold updateBlock
  refine (leads_updateTransactions fits).bind fun vtxundo same => ?_
  exact (leads_setBestBlock blockHash).bind fun _ _ => .pure (congrArg List.tail same)

theorem leads_disconnectBlock {enforceBip30 : Bool} (positive : 0 < nHeight)
    (small : nHeight < 2 ^ 31) {coinbase : HashedTransaction} {vtx : List HashedTransaction}
    (isCoinBase : coinbase.isCoinBase = true) (plain : ∀ tx ∈ vtx, tx.isCoinBase = false)
    (stored : StoredCoins coins) (fits : BlockFits nHeight coins (coinbase :: vtx))
    (prevHash : Uint256) :
    Leads ({ top with coins := connectedAll nHeight coins (coinbase :: vtx) } :: below)
      (disconnectBlock (some (undoAll nHeight coins (coinbase :: vtx)).tail) (coinbase :: vtx)
        nHeight enforceBip30 prevHash)
      (fun result => result = .ok) (⟨coins, known prevHash⟩ :: below) := by
  have later := @leads_disconnectTransactions top below nHeight (coinbase.connected nHeight coins)
    enforceBip30 true positive small vtx plain (stored.connected positive small fits.1) fits.2
  have outputs := @leads_disconnectOutputs top below coinbase nHeight coins enforceBip30 true small
    fits.1
  have nothing : coinbase.spentOutpoints = [] := if_pos isCoinBase
  rw [nothing] at outputs
  have first : Leads ({ top with coins := coinbase.connected nHeight coins } :: below)
      (disconnectTransactions nHeight enforceBip30 [(coinbase, none)] true)
      (fun clean => clean = some true) ({ top with coins } :: below) := by
    unfold disconnectTransactions disconnectTransaction
    rw [bind_assoc]
    refine outputs.bind fun clean same => ?_
    subst same
    exact .pure rfl
  have sized : (undoAll nHeight (coinbase.connected nHeight coins) vtx).length + 1 =
      (coinbase :: vtx).length := by
    rw [length_undoAll, List.length_cons]
  have all : Leads ({ top with coins := connectedAll nHeight coins (coinbase :: vtx) } :: below)
      (disconnectTransactions nHeight enforceBip30 ((coinbase :: vtx).zip
        (none :: (undoAll nHeight (coinbase.connected nHeight coins) vtx).map some)).reverse true)
      (fun clean => clean = some true) ({ top with coins } :: below) := by
    rw [List.zip_cons_cons, List.reverse_cons, disconnectTransactions_append]
    refine later.bind fun clean same => ?_
    subst same
    exact first
  unfold disconnectBlock
  simp only [undoAll, List.tail_cons, sized, ne_eq, not_true_eq_false, if_false]
  refine all.bind fun clean same => ?_
  subst same
  exact (leads_setBestBlock prevHash).bind fun _ _ => .pure rfl

/-- With the undo data of a block, `DisconnectBlock` takes the block back from every stack of
caches that answers like the one after the block, and reports that it was clean. -/
theorem disconnectBlock_updateBlock {view : CCoinsViewCache} (stands : Stands (top :: below) view)
    (positive : 0 < nHeight) (small : nHeight < 2 ^ 31) {coinbase : HashedTransaction}
    {vtx : List HashedTransaction} (isCoinBase : coinbase.isCoinBase = true)
    (plain : ∀ tx ∈ vtx, tx.isCoinBase = false) (stored : StoredCoins top.coins)
    (fits : BlockFits nHeight top.coins (coinbase :: vtx)) (blockHash : Uint256) :
    ∃ vtxundo after, updateBlock (coinbase :: vtx) nHeight blockHash view = .ok vtxundo after ∧
      (∃ coins, Stands (⟨coins, known blockHash⟩ :: below) after) ∧
      ∀ (best : Option Uint256) (levels : List CoinLevel) (later : CCoinsViewCache),
        Stands (⟨after.toView.coins, best⟩ :: levels) later →
          ∀ (enforceBip30 : Bool) (prevHash : Uint256),
            ∃ last, disconnectBlock (some vtxundo) (coinbase :: vtx) nHeight enforceBip30 prevHash
                later = .ok .ok last ∧
              Stands (⟨top.coins, known prevHash⟩ :: levels) last := by
  obtain ⟨vtxundo, after, ran, rfl, standsAfter⟩ :=
    (leads_updateBlock fits blockHash).exists stands
  refine ⟨_, after, ran, ⟨_, standsAfter⟩, fun best levels later same enforceBip30 prevHash => ?_⟩
  rw [coins_of_levels standsAfter.2] at same
  obtain ⟨result, last, ran', rfl, standsLast⟩ :=
    (@leads_disconnectBlock ⟨top.coins, best⟩ levels nHeight top.coins enforceBip30 positive small
      coinbase vtx isCoinBase plain stored fits prevHash).exists same
  exact ⟨last, ran', standsLast⟩

end Transactions

/-- A database with one coin. -/
def coinDatabase : CCoinsViewDB :=
  ⟨Function.update (fun _ => none) ⟨.one, 0⟩ (some ⟨⟨5, []⟩, false, 1⟩), some .one, [],
    fun _ => true⟩

/-- A coinbase, and a transaction that spends the coin. -/
theorem disconnectBlock_updateBlock_spent :
    let view : CCoinsViewCache := .new (.database coinDatabase)
    let hash : Uint256 := ⟨List.replicate 32 2, rfl⟩
    let otherHash : Uint256 := ⟨List.replicate 32 3, rfl⟩
    let coinbase : HashedTransaction :=
      ⟨⟨2, [⟨⟨.null, 0xffffffff⟩, 0, []⟩], [⟨50, []⟩, ⟨0, [opReturn]⟩], 0⟩, hash⟩
    let tx : HashedTransaction := ⟨⟨2, [⟨⟨.one, 0⟩, 0, []⟩], [⟨2, []⟩, ⟨3, []⟩], 0⟩, otherHash⟩
    ∃ vtxundo after, updateBlock [coinbase, tx] 2 hash view = .ok vtxundo after ∧
      (∃ coins, Stands [⟨coins, known hash⟩, ⟨coinDatabase.coins, some .one⟩] after) ∧
      ∀ (best : Option Uint256) (levels : List CoinLevel) (later : CCoinsViewCache),
        Stands (⟨after.toView.coins, best⟩ :: levels) later →
          ∀ (enforceBip30 : Bool) (prevHash : Uint256),
            ∃ last, disconnectBlock (some vtxundo) [coinbase, tx] 2 enforceBip30 prevHash later =
                .ok .ok last ∧
              Stands (⟨coinDatabase.coins, known prevHash⟩ :: levels) last := by
  intro view hash otherHash coinbase tx
  have storedCoin {outpoint : COutPoint} {coin : Coin}
      (found : coinDatabase.coins outpoint = some coin) : coin = ⟨⟨5, []⟩, false, 1⟩ := by
    simp only [coinDatabase, Function.update_apply] at found
    split_ifs at found
    cases found
    rfl
  have consistent : coinDatabase.Consistent := by
    refine ⟨fun outpoint coin found => ?_, rfl⟩
    rw [storedCoin found]
    rfl
  have stands : Stands [⟨coinDatabase.coins, none⟩, ⟨coinDatabase.coins, some .one⟩] view :=
    @stands_new (.database coinDatabase) consistent
  have stored : StoredCoins coinDatabase.coins := by
    intro outpoint coin found
    rw [storedCoin found]
    exact ⟨rfl, by decide, by decide⟩
  refine disconnectBlock_updateBlock stands (by decide) (by decide) rfl ?_ stored ?_ hash
  · intro other member
    cases List.mem_singleton.mp member
    rfl
  · exact ⟨⟨by decide, by decide, by decide, by decide, by decide⟩,
      ⟨by decide, by decide, by decide, by decide, by decide⟩, trivial⟩

end QuantyCoin.CoinsViews
