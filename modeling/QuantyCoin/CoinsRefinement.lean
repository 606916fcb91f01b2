import QuantyCoin.CoinsDatabase

/-!
# Coin caches as nested changes

A view stands for a set of unspent outputs, whatever it has cached.  The flags of an entry
say how it differs from what is below: a fresh entry hides nothing, and an entry that is
not dirty hides what it repeats.  As long as the flags are right, a cache is a set of
changes that `Flush` and `Sync` hand down and that are lost with the cache otherwise.
-/

namespace QuantyCoin.CoinsViews

open FailingFolds KeyedLoops StateTriples

/-! ## What a view stands for -/

/-- What a level of the views stands for: the unspent outputs, and the best block if the
level knows it itself. -/
structure CoinLevel where
  coins : COutPoint → Option Coin
  best : Option Uint256

namespace CoinLevel

def set (level : CoinLevel) (outpoint : COutPoint) (coin : Option Coin) : CoinLevel :=
  { level with coins := Function.update level.coins outpoint coin }

end CoinLevel

/-- A hash that is not null. -/
def known (hash : Uint256) : Option Uint256 := if hash = .null then none else some hash

/-- The coin behind an entry, or below where there is none. -/
def coinOver (entry : Option CCoinsCacheEntry) (below : Option Coin) : Option Coin :=
  match entry with
  | some it => it.coin.unspent
  | none => below

/-- The coins of a cache over those below it. -/
def CoinsCache.onTop (own : CoinsCache) (below : COutPoint → Option Coin) (outpoint : COutPoint) :
    Option Coin :=
  coinOver (own.cacheCoins.lookup outpoint) (below outpoint)

/-- The flags of an entry are right about the coin below it. -/
structure CCoinsCacheEntry.Fits (it : CCoinsCacheEntry) (below : Option Coin) : Prop where
  clean : it.dirty = false → it.coin.isSpent = false ∧ below = some it.coin
  fresh : it.fresh = true → it.dirty = true ∧ below = none
  spent : it.coin.isSpent = true → it.coin = .empty ∧ it.fresh = false

/-- The entry, if there is one, is right about the coin below it. -/
def EntryFits (entry : Option CCoinsCacheEntry) (below : Option Coin) : Prop :=
  ∀ it, entry = some it → it.Fits below

/-- The coins that are stored are unspent, and no write has been interrupted. -/
structure CCoinsViewDB.Consistent (db : CCoinsViewDB) : Prop where
  unspent : ∀ outpoint coin, db.coins outpoint = some coin → coin.isSpent = false
  settled : db.headBlocks = []

namespace CCoinsView

def coins : CCoinsView → COutPoint → Option Coin
  | .database db => db.coins
  | .cache base own => own.onTop base.coins

/-- The levels, the top one first and the database last. -/
def levels : CCoinsView → List CoinLevel
  | .database db => [⟨db.coins, known db.getBestBlock⟩]
  | .cache base own => ⟨own.onTop base.coins, known own.hashBlock⟩ :: base.levels

/-- The database is consistent and the flags of all entries are right. -/
def Sound : CCoinsView → Prop
  | .database db => db.Consistent
  | .cache base own =>
      base.Sound ∧ ∀ outpoint, EntryFits (own.cacheCoins.lookup outpoint) (base.coins outpoint)

theorem coins_eq_of_levels {view view' : CCoinsView} (same : view.levels = view'.levels) :
    view.coins = view'.coins := by
  have head (view : CCoinsView) : view.levels.head?.map CoinLevel.coins = some view.coins := by
    cases view <;> rfl
  have both := head view
  rw [same, head view'] at both
  exact (Option.some.inj both).symm

theorem isSpent_of_coins {view : CCoinsView} (sound : view.Sound) {outpoint : COutPoint}
    {coin : Coin} (found : view.coins outpoint = some coin) : coin.isSpent = false := by
  induction view with
  | database db => exact sound.1 outpoint coin found
  | cache base own ih =>
      rw [coins, CoinsCache.onTop] at found
      cases entry : own.cacheCoins.lookup outpoint with
      | none =>
          rw [entry] at found
          exact ih sound.1 found
      | some it =>
          rw [entry] at found
          rw [coinOver, Coin.unspent] at found
          split_ifs at found with spent
          cases found
          simpa using spent

end CCoinsView

theorem CCoinsCacheEntry.Fits.coin_eq {it : CCoinsCacheEntry} {below : Option Coin}
    (fits : it.Fits below) : it.coin = it.coin.unspent.getD .empty := by
  by_cases spent : it.coin.isSpent = true
  · rw [Coin.unspent_of_isSpent spent, (fits.spent spent).1]
    rfl
  · rw [Coin.unspent_of_not_isSpent (by simpa using spent)]
    rfl

/-! ## Reading through the caches -/

theorem fetchFrom_sound {base : CCoinsView} {own : CoinsCache} {outpoint : COutPoint}
    {answer : Option Coin × CCoinsView} (sound : (CCoinsView.cache base own).Sound)
    (answered : answer.1 = base.coins outpoint) (soundBase : answer.2.Sound)
    (same : answer.2.levels = base.levels) :
    let fetched := CCoinsViewCache.fetchFrom ⟨own, base⟩ outpoint answer
    fetched.2.toView.Sound ∧ fetched.2.toView.levels = (CCoinsView.cache base own).levels ∧
      fetched.1 = fetched.2.cacheCoins.lookup outpoint ∧
      (fetched.1.bind fun it => it.coin.unspent) = own.onTop base.coins outpoint := by
  have sameCoins := CCoinsView.coins_eq_of_levels same
  cases cached : own.cacheCoins.lookup outpoint with
  | some it =>
      simp only [CCoinsViewCache.fetchFrom, cached]
      refine ⟨sound, rfl, trivial, ?_⟩
      rw [CoinsCache.onTop, cached]
      rfl
  | none =>
      have covers : own.onTop base.coins outpoint = base.coins outpoint := by
        rw [CoinsCache.onTop, cached]
        rfl
      cases found : answer.1 with
      | none =>
          simp only [CCoinsViewCache.fetchFrom, cached, found]
          refine ⟨⟨soundBase, ?_⟩, ?_, trivial, ?_⟩
          · rw [sameCoins]
            exact sound.2
          · simp only [CCoinsViewCache.toView, CCoinsView.levels, sameCoins, same]
          · rw [covers, ← answered, found]
            rfl
      | some tmp =>
          have below : base.coins outpoint = some tmp := by rw [← answered, found]
          have unspent := CCoinsView.isSpent_of_coins sound.1 below
          simp only [CCoinsViewCache.fetchFrom, cached, found]
          refine ⟨⟨soundBase, fun other => ?_⟩, ?_, ?_, ?_⟩
          · rw [sameCoins]
            change EntryFits ((own.cacheCoins.insert outpoint _).lookup other) _
            rw [lookup_insert]
            split_ifs with here
            · subst here
              rintro it ⟨⟩
              exact ⟨fun _ => ⟨unspent, below⟩, fun fresh => by simp [unspent] at fresh,
                fun spent => by simp [unspent] at spent⟩
            · exact sound.2 other
          · simp only [CCoinsViewCache.toView, CCoinsView.levels, sameCoins, same]
            congr 2
            funext other
            simp only [CoinsCache.onTop, lookup_insert]
            split_ifs with here
            · subst here
              rw [cached, below]
              exact Coin.unspent_of_not_isSpent unspent
            · rfl
          · rw [AList.lookup_insert]
          · rw [covers, below]
            exact Coin.unspent_of_not_isSpent unspent

theorem getCoin_sound {view : CCoinsView} (sound : view.Sound) (outpoint : COutPoint) :
    (view.getCoin outpoint).1 = view.coins outpoint ∧ (view.getCoin outpoint).2.Sound ∧
      (view.getCoin outpoint).2.levels = view.levels := by
  induction view with
  | database db => exact ⟨rfl, sound, rfl⟩
  | cache base own ih =>
      obtain ⟨answered, soundBase, same⟩ := ih sound.1
      obtain ⟨soundAfter, sameAfter, -, value⟩ := fetchFrom_sound sound answered soundBase same
      exact ⟨value, soundAfter, sameAfter⟩

/-! ## Handing changes down -/

section Merged

variable {it : CCoinsCacheEntry} {entry : Option CCoinsCacheEntry} {below : Option Coin}

end Merged

end QuantyCoin.CoinsViews
