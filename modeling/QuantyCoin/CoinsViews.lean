import QuantyCoin.KeyedLoops
import QuantyCoin.ScriptInterpreter
import QuantyCoin.StateTriples
import QuantyCoin.WalletCoins

/-!
# Views of the unspent outputs

`coins.h`, `coins.cpp` and `CCoinsViewDB` of `txdb.cpp`.  A cache reads through the view
below it and keeps what it has read and what was changed, until `Flush` or `Sync` write
the changes to the view below.
-/

namespace QuantyCoin.CoinsViews

open ByteDecoder StateTriples

/-! ## Coins -/

/-- `CScript::IsUnspendable`. -/
def isUnspendable (script : Bytes) : Bool :=
  script.head? = some opReturn || script.length > maxScriptSize

/-- `Coin`. -/
structure Coin where
  out : CTxOut
  fCoinBase : Bool
  nHeight : BitVec 31

namespace Coin

/-- `Coin::Coin()`, which is also what `Clear` leaves. -/
def empty : Coin := ⟨.null, false, 0⟩

/-- `IsSpent`. -/
def isSpent (coin : Coin) : Bool := coin.out.nValue = -1

/-- The coin, unless it is spent. -/
def unspent (coin : Coin) : Option Coin := if coin.isSpent then none else some coin

@[simp]
theorem isSpent_empty : empty.isSpent = true := rfl

@[simp]
theorem unspent_empty : empty.unspent = none := rfl

theorem unspent_of_isSpent {coin : Coin} (spent : coin.isSpent = true) : coin.unspent = none := by
  rw [unspent, if_pos spent]

theorem unspent_of_not_isSpent {coin : Coin} (unspent : coin.isSpent = false) :
    coin.unspent = some coin := by
  rw [Coin.unspent, if_neg (by simp [unspent])]

end Coin

/-- `CCoinsCacheEntry`, with a Boolean for each of the two flags. -/
structure CCoinsCacheEntry where
  coin : Coin
  dirty : Bool
  fresh : Bool

/-- `CCoinsCacheEntry::CCoinsCacheEntry()`. -/
def CCoinsCacheEntry.empty : CCoinsCacheEntry := ⟨.empty, false, false⟩

/-- `CCoinsMap`. -/
abbrev CCoinsMap := AList fun _ : COutPoint => CCoinsCacheEntry

/-- What the code reports as an error of its callers. -/
inductive CoinsError
  | assertion
  | overwritesUnspent
  | freshMisapplied
  | notAllErased

/-! ## The database -/

/-- A write of a `CDBBatch`: the coin of an outpoint, `DB_BEST_BLOCK` or
`DB_HEAD_BLOCKS`. -/
inductive DBWrite
  | coin (outpoint : COutPoint) (coin : Option Coin)
  | bestBlock (hash : Option Uint256)
  | headBlocks (hashes : List Uint256)

/-- `CCoinsViewDB`: what the database has under its keys, and whether the estimated size of
a batch is over `batch_write_bytes`. -/
structure CCoinsViewDB where
  coins : COutPoint → Option Coin
  bestBlock : Option Uint256
  headBlocks : List Uint256
  overSize : List DBWrite → Bool

namespace CCoinsViewDB

variable (db : CCoinsViewDB)

def write : DBWrite → CCoinsViewDB
  | .coin outpoint coin =>
      { db with coins := fun key => if key = outpoint then coin else db.coins key }
  | .bestBlock hash => { db with bestBlock := hash }
  | .headBlocks hashes => { db with headBlocks := hashes }

/-- `CDBWrapper::WriteBatch`. -/
def writeBatch (batch : List DBWrite) : CCoinsViewDB := batch.foldl write db

/-- `GetBestBlock`. -/
def getBestBlock : Uint256 := db.bestBlock.getD .null

/-- `old_tip`. -/
def oldTip (hashBlock : Uint256) : Except CoinsError Uint256 :=
  if db.getBestBlock = .null then
    match db.headBlocks with
    | [newHead, oldHead] => if newHead = hashBlock then .ok oldHead else .error .assertion
    | _ => .ok .null
  else .ok db.getBestBlock

/-- The write of an entry that is dirty. -/
def entryWrite (entry : Σ _ : COutPoint, CCoinsCacheEntry) : List DBWrite :=
  if entry.2.dirty then [.coin entry.1 entry.2.coin.unspent] else []

/-- The batches of the loop over the entries, from the batch that is being filled. -/
def fillBatches (hashBlock : Uint256) :
    List (Σ _ : COutPoint, CCoinsCacheEntry) → List DBWrite → List (List DBWrite)
  | [], batch => [batch ++ [.headBlocks [], .bestBlock (some hashBlock)]]
  | entry :: entries, batch =>
      let batch := batch ++ entryWrite entry
      if db.overSize batch then batch :: fillBatches hashBlock entries []
      else fillBatches hashBlock entries batch

/-- The batches that `BatchWrite` writes. -/
def batches (mapCoins : CCoinsMap) (hashBlock : Uint256) :
    Except CoinsError (List (List DBWrite)) := do
  if hashBlock = .null then throw .assertion
  let oldTip ← db.oldTip hashBlock
  return db.fillBatches hashBlock mapCoins.entries
    [.bestBlock none, .headBlocks [hashBlock, oldTip]]

end CCoinsViewDB

/-! ## Caches -/

/-- The members of a `CCoinsViewCache` besides its base. -/
structure CoinsCache where
  hashBlock : Uint256
  cacheCoins : CCoinsMap

/-- `CCoinsView`: the database, or a cache over another view. -/
inductive CCoinsView
  | database (db : CCoinsViewDB)
  | cache (base : CCoinsView) (own : CoinsCache)

/-- `CCoinsViewCache`. -/
structure CCoinsViewCache extends CoinsCache where
  base : CCoinsView

namespace CCoinsViewCache

/-- The cache as the base of another one. -/
def toView (view : CCoinsViewCache) : CCoinsView := .cache view.base view.toCoinsCache

/-- `CCoinsViewCache::CCoinsViewCache`. -/
def new (base : CCoinsView) : CCoinsViewCache := ⟨⟨.null, ∅⟩, base⟩

/-- `FetchCoin`, with the answer that the base gives if it is asked. -/
def fetchFrom (view : CCoinsViewCache) (outpoint : COutPoint)
    (answer : Option Coin × CCoinsView) : Option CCoinsCacheEntry × CCoinsViewCache :=
  match view.cacheCoins.lookup outpoint with
  | some it => (some it, view)
  | none =>
      match answer.1 with
      | none => (none, { view with base := answer.2 })
      | some tmp =>
          let ret : CCoinsCacheEntry := ⟨tmp, false, tmp.isSpent⟩
          (some ret,
            { view with base := answer.2, cacheCoins := view.cacheCoins.insert outpoint ret })

/-- `GetBestBlock`, with the answer that the base gives if it is asked. -/
def bestBlockFrom (view : CCoinsViewCache) (answer : Uint256 × CCoinsView) :
    Uint256 × CCoinsViewCache :=
  if view.hashBlock = .null then
    (answer.1, { view with base := answer.2, hashBlock := answer.1 })
  else (view.hashBlock, view)

end CCoinsViewCache

namespace CCoinsView

/-- `GetCoin`, with the view after it. -/
def getCoin (outpoint : COutPoint) : CCoinsView → Option Coin × CCoinsView
  | .database db => (db.coins outpoint, .database db)
  | .cache base own =>
      let fetched := CCoinsViewCache.fetchFrom ⟨own, base⟩ outpoint (getCoin outpoint base)
      (fetched.1.bind fun it => it.coin.unspent, fetched.2.toView)

/-- `GetBestBlock`, with the view after it. -/
def getBestBlock : CCoinsView → Uint256 × CCoinsView
  | .database db => (db.getBestBlock, .database db)
  | .cache base own =>
      let found := CCoinsViewCache.bestBlockFrom ⟨own, base⟩ (getBestBlock base)
      (found.1, found.2.toView)

/-- The body of the loop of `CCoinsViewCache::BatchWrite`. -/
def batchWriteEntry (cacheCoins : CCoinsMap) (it : Σ _ : COutPoint, CCoinsCacheEntry) :
    Except CoinsError CCoinsMap :=
  if !it.2.dirty then .ok cacheCoins
  else
    match cacheCoins.lookup it.1 with
    | none =>
        if it.2.fresh && it.2.coin.isSpent then .ok cacheCoins
        else .ok (cacheCoins.insert it.1 ⟨it.2.coin, true, it.2.fresh⟩)
    | some itUs =>
        if it.2.fresh && !itUs.coin.isSpent then .error .freshMisapplied
        else if itUs.fresh && it.2.coin.isSpent then .ok (cacheCoins.erase it.1)
        else .ok (cacheCoins.insert it.1 { itUs with coin := it.2.coin, dirty := true })

/-- `BatchWrite`: what is left of the map, and the view after it. -/
def batchWrite (mapCoins : CCoinsMap) (hashBlock : Uint256) (erase : Bool) :
    CCoinsView → Except CoinsError (CCoinsMap × CCoinsView)
  | .database db => do
      let batches ← db.batches mapCoins hashBlock
      return (if erase then ∅ else mapCoins, .database (batches.foldl CCoinsViewDB.writeBatch db))
  | .cache base own => do
      let cacheCoins ← mapCoins.entries.foldlM batchWriteEntry own.cacheCoins
      return (if erase then ∅ else mapCoins, .cache base ⟨hashBlock, cacheCoins⟩)

end CCoinsView

/-! ## What callers do with a cache -/

/-- Programs that use a `CCoinsViewCache`. -/
abbrev CoinsM := EStateM CoinsError CCoinsViewCache

namespace CCoinsViewCache

def fetchCoin (outpoint : COutPoint) : CoinsM (Option CCoinsCacheEntry) := fun view =>
  let fetched := view.fetchFrom outpoint (view.base.getCoin outpoint)
  .ok fetched.1 fetched.2

def getCoin (outpoint : COutPoint) : CoinsM (Option Coin) := do
  return (← fetchCoin outpoint).bind fun it => it.coin.unspent

def haveCoin (outpoint : COutPoint) : CoinsM Bool := do
  return (← fetchCoin outpoint).any fun it => !it.coin.isSpent

def accessCoin (outpoint : COutPoint) : CoinsM Coin := do
  return (← fetchCoin outpoint).elim .empty fun it => it.coin

/-- The entry is put under the outpoint. -/
def put (outpoint : COutPoint) (entry : CCoinsCacheEntry) : CoinsM Unit :=
  modify fun view => { view with cacheCoins := view.cacheCoins.insert outpoint entry }

/-- The entry under the outpoint is erased. -/
def erase (outpoint : COutPoint) : CoinsM Unit :=
  modify fun view => { view with cacheCoins := view.cacheCoins.erase outpoint }

def addCoin (outpoint : COutPoint) (coin : Coin) (possibleOverwrite : Bool) : CoinsM Unit := do
  if coin.isSpent then throw .assertion
  if isUnspendable coin.out.scriptPubKey then return
  let it := ((← get).cacheCoins.lookup outpoint).getD .empty
  if !possibleOverwrite && !it.coin.isSpent then throw .overwritesUnspent
  let fresh := !possibleOverwrite && !it.dirty
  put outpoint ⟨coin, true, it.fresh || fresh⟩

/-- `SpendCoin`, with the coin that is moved out, which is `Coin()` where none is. -/
def spendCoin (outpoint : COutPoint) : CoinsM (Bool × Coin) := do
  match ← fetchCoin outpoint with
  | none => return (false, .empty)
  | some it =>
      if it.fresh then erase outpoint
      else put outpoint ⟨.empty, true, it.fresh⟩
      return (true, it.coin)

def uncache (outpoint : COutPoint) : CoinsM Unit := do
  match (← get).cacheCoins.lookup outpoint with
  | some it => if !it.dirty && !it.fresh then erase outpoint
  | none => return

def getBestBlock : CoinsM Uint256 := fun view =>
  let found := view.bestBlockFrom view.base.getBestBlock
  .ok found.1 found.2

def setBestBlock (hashBlockIn : Uint256) : CoinsM Unit :=
  modify fun view => { view with hashBlock := hashBlockIn }

/-- `base->BatchWrite` with the own map.  An error leaves the views as they were, where the
code may have changed some of the entries already. -/
def batchWriteBase (erase : Bool) : CoinsM Unit :=
  updating fun view => do
    let (cacheCoins, base) ← view.base.batchWrite view.cacheCoins view.hashBlock erase
    return ((), { view with cacheCoins, base })

def flush : CoinsM Unit := do
  batchWriteBase true
  if (← get).cacheCoins.entries ≠ [] then throw .notAllErased

/-- The body of the loop of `Sync`. -/
def syncEntry (cacheCoins : CCoinsMap) (it : Σ _ : COutPoint, CCoinsCacheEntry) : CCoinsMap :=
  if it.2.coin.isSpent then cacheCoins.erase it.1
  else cacheCoins.insert it.1 ⟨it.2.coin, false, false⟩

def sync : CoinsM Unit := do
  batchWriteBase false
  modify fun view =>
    { view with cacheCoins := view.cacheCoins.entries.foldl syncEntry view.cacheCoins }

end CCoinsViewCache

end QuantyCoin.CoinsViews
