import QuantyCoin.CoinsRefinement

/-!
# Runs of coin caches

Callers open caches on top of each other, change the coins of the top one, hand the changes
down and drop caches.  Whatever they do, as long as a coin is not declared new where there
is one, the caches answer like plain sets of coins, one for each level.
-/

namespace QuantyCoin.CoinsViews

open FailingFolds KeyedLoops StateTriples

/-! ## The methods of a cache -/

/-- A cache that stands for the levels. -/
def Stands (levels : List CoinLevel) (view : CCoinsViewCache) : Prop :=
  view.toView.Sound ∧ view.toView.levels = levels

/-- From a cache that stands for the levels, a program returns such an answer and leaves a
cache that stands for the other levels. -/
def Leads {α : Type} (levels : List CoinLevel) (program : CoinsM α) (answer : α → Prop)
    (levels' : List CoinLevel) : Prop :=
  Triple (Stands levels) program (fun value view => answer value ∧ Stands levels' view)
    fun _ => False

theorem Leads.exists {α : Type} {levels levels' : List CoinLevel} {program : CoinsM α}
    {answer : α → Prop} (leads : Leads levels program answer levels') {view : CCoinsViewCache}
    (stands : Stands levels view) :
    ∃ value after, program view = .ok value after ∧ answer value ∧ Stands levels' after := by
  have result := leads view stands
  cases outcome : program view with
  | ok value after =>
      rw [outcome] at result
      exact ⟨value, after, rfl, result⟩
  | error error after =>
      rw [outcome] at result
      exact result.elim

theorem Leads.of_exists {α : Type} {levels levels' : List CoinLevel} {program : CoinsM α}
    {answer : α → Prop} (runs : ∀ view, Stands levels view →
      ∃ value after, program view = .ok value after ∧ answer value ∧ Stands levels' after) :
    Leads levels program answer levels' := by
  intro view stands
  obtain ⟨value, after, ran, both⟩ := runs view stands
  rw [ran]
  exact both

theorem Leads.pure {α : Type} {levels : List CoinLevel} {value : α} {answer : α → Prop}
    (holds : answer value) : Leads levels (Pure.pure value) answer levels :=
  fun _ stands => ⟨holds, stands⟩

theorem Leads.bind {α β : Type} {levels middle last : List CoinLevel} {program : CoinsM α}
    {next : α → CoinsM β} {answer : α → Prop} {answer' : β → Prop}
    (first : Leads levels program answer middle)
    (second : ∀ value, answer value → Leads middle (next value) answer' last) :
    Leads levels (program >>= next) answer' last :=
  Triple.bind first fun value => Triple.assuming (second value)

theorem Leads.map {α β : Type} {levels levels' : List CoinLevel} {program : CoinsM α}
    {answer : α → Prop} (leads : Leads levels program answer levels') {image : α → β}
    {answer' : β → Prop} (weaken : ∀ value, answer value → answer' (image value)) :
    Leads levels (image <$> program) answer' levels' := by
  refine .of_exists fun view stands => ?_
  obtain ⟨value, after, ran, holds, stands'⟩ := leads.exists stands
  refine ⟨image value, after, ?_, weaken value holds, stands'⟩
  change EStateM.map image program view = _
  rw [EStateM.map, ran]

section Methods

variable {top : CoinLevel} {below : List CoinLevel} (outpoint : COutPoint)

/-- The parts of what a cache stands for. -/
theorem Stands.parts {view : CCoinsViewCache} (stands : Stands (top :: below) view) :
    top = ⟨view.onTop view.base.coins, known view.hashBlock⟩ ∧ below = view.base.levels ∧
      view.base.Sound ∧
      ∀ outpoint, EntryFits (view.cacheCoins.lookup outpoint) (view.base.coins outpoint) := by
  obtain ⟨⟨sound, fits⟩, levels⟩ := stands
  obtain ⟨head, tail⟩ := List.cons.inj levels
  exact ⟨head.symm, tail.symm, sound, fits⟩

theorem fetchCoin_runs {view : CCoinsViewCache} (stands : Stands (top :: below) view) :
    ∃ it after, CCoinsViewCache.fetchCoin outpoint view = .ok it after ∧
      Stands (top :: below) after ∧ it = after.cacheCoins.lookup outpoint ∧
      (it.bind fun it => it.coin.unspent) = top.coins outpoint := by
  obtain ⟨same, -, soundBase, -⟩ := stands.parts
  obtain ⟨answered, soundAfter, levels⟩ := getCoin_sound soundBase outpoint
  obtain ⟨sound, sameLevels, cached, value⟩ :=
    fetchFrom_sound stands.1 answered soundAfter levels
  refine ⟨_, _, rfl, ⟨sound, sameLevels.trans stands.2⟩, cached, ?_⟩
  rw [same]
  exact value

/-- A method that only looks at what it has fetched. -/
theorem leads_fetched {α : Type} (look : Option CCoinsCacheEntry → α) {answer : α}
    (looks : ∀ it : Option CCoinsCacheEntry, (∃ coin, EntryFits it coin) →
      (it.bind fun it => it.coin.unspent) = top.coins outpoint → look it = answer) :
    Leads (top :: below) (do return look (← CCoinsViewCache.fetchCoin outpoint))
      (fun value => value = answer) (top :: below) := by
  refine .of_exists fun view stands => ?_
  obtain ⟨it, after, ran, stands', cached, value⟩ := fetchCoin_runs outpoint stands
  refine ⟨look it, after, bind_eq_ok.mpr ⟨it, after, ran, rfl⟩, ?_, stands'⟩
  obtain ⟨-, -, -, fits⟩ := stands'.parts
  exact looks it ⟨_, cached ▸ fits outpoint⟩ value

theorem leads_haveCoin : Leads (top :: below) (CCoinsViewCache.haveCoin outpoint)
    (fun found => found = (top.coins outpoint).isSome) (top :: below) := by
  refine leads_fetched outpoint _ fun it _ value => ?_
  rw [← value]
  cases it with
  | none => rfl
  | some it =>
      by_cases spent : it.coin.isSpent = true
      · simp [spent, Coin.unspent]
      · simp [spent, Coin.unspent]

/-- An entry that fits is put under an outpoint. -/
theorem stands_put {view : CCoinsViewCache} (stands : Stands (top :: below) view)
    {entry : CCoinsCacheEntry} (fits : entry.Fits (view.base.coins outpoint)) :
    Stands (top.set outpoint entry.coin.unspent :: below)
      { view with cacheCoins := view.cacheCoins.insert outpoint entry } := by
  obtain ⟨rfl, rfl, sound, fitsAll⟩ := stands.parts
  refine ⟨⟨sound, fun other => ?_⟩, ?_⟩
  · change EntryFits ((view.cacheCoins.insert outpoint entry).lookup other) _
    rw [lookup_insert]
    split_ifs with here
    · subst here
      rintro it ⟨⟩
      exact fits
    · exact fitsAll other
  · simp only [CCoinsViewCache.toView, CCoinsView.levels, CoinLevel.set]
    congr 2
    funext other
    simp only [CoinsCache.onTop, lookup_insert, Function.update_apply]
    split_ifs with here
    · rfl
    · rfl

/-- An entry that hides nothing is erased. -/
theorem stands_erase {view : CCoinsViewCache} (stands : Stands (top :: below) view)
    {coin : Option Coin} (hides : view.base.coins outpoint = coin) :
    Stands (top.set outpoint coin :: below)
      { view with cacheCoins := view.cacheCoins.erase outpoint } := by
  obtain ⟨rfl, rfl, sound, fitsAll⟩ := stands.parts
  refine ⟨⟨sound, fun other => ?_⟩, ?_⟩
  · change EntryFits ((view.cacheCoins.erase outpoint).lookup other) _
    rw [lookup_erase]
    split_ifs with here
    · exact fun it impossible => nomatch impossible
    · exact fitsAll other
  · simp only [CCoinsViewCache.toView, CCoinsView.levels, CoinLevel.set]
    congr 2
    funext other
    simp only [CoinsCache.onTop, lookup_erase, Function.update_apply]
    split_ifs with here
    · rw [here, ← hides]
      rfl
    · rfl

theorem CoinLevel.set_self (level : CoinLevel) (outpoint : COutPoint) :
    level.set outpoint (level.coins outpoint) = level := by
  rw [CoinLevel.set, Function.update_eq_self]

/-- A coin is added, if it is not declared new where there is one. -/
theorem leads_addCoin {coin : Coin} {possibleOverwrite : Bool} (unspent : coin.isSpent = false)
    (new : possibleOverwrite = false → top.coins outpoint = none) :
    Leads (top :: below) (CCoinsViewCache.addCoin outpoint coin possibleOverwrite)
      (fun _ => True)
      ((if isUnspendable coin.out.scriptPubKey then top else top.set outpoint (some coin)) ::
        below) := by
  refine .of_exists fun view stands => ?_
  by_cases unspendable : isUnspendable coin.out.scriptPubKey = true
  · refine ⟨(), view, ?_, trivial, by rwa [if_pos unspendable]⟩
    simp only [CCoinsViewCache.addCoin, unspent, unspendable, Bool.false_eq_true, if_false, if_true]
    rfl
  obtain ⟨same, -, -, fits⟩ := stands.parts
  have value : top.coins outpoint =
      coinOver (view.cacheCoins.lookup outpoint) (view.base.coins outpoint) := by
    rw [same]
    rfl
  have right := fits outpoint
  generalize found : (view.cacheCoins.lookup outpoint).getD .empty = it
  -- what the flags of the entry say of the coin below it
  have freshBelow : it.fresh = true → view.base.coins outpoint = none := by
    intro fresh
    cases entry : view.cacheCoins.lookup outpoint with
    | none =>
        rw [entry] at found
        rw [← found] at fresh
        cases fresh
    | some own =>
        rw [entry] at found right
        exact ((right own rfl).fresh (by rw [← found] at fresh; exact fresh)).2
  have newBelow : possibleOverwrite = false → it.coin.isSpent = true ∧
      (it.dirty = false → view.base.coins outpoint = none) := by
    intro declared
    have absent := new declared
    rw [value] at absent
    cases entry : view.cacheCoins.lookup outpoint with
    | none =>
        rw [entry] at found absent
        rw [← found]
        exact ⟨rfl, fun _ => absent⟩
    | some own =>
        rw [entry] at found absent right
        have spent : own.coin.isSpent = true := by
          by_contra other
          rw [coinOver, Coin.unspent_of_not_isSpent (by simpa using other)] at absent
          cases absent
        rw [← found]
        refine ⟨spent, fun clean => ?_⟩
        have impossible := ((right own rfl).clean clean).1
        rw [spent] at impossible
        cases impossible
  have entryFits : CCoinsCacheEntry.Fits
      ⟨coin, true, it.fresh || (!possibleOverwrite && !it.dirty)⟩ (view.base.coins outpoint) := by
    refine ⟨fun clean => absurd clean (by simp), fun fresh => ⟨rfl, ?_⟩, fun spent => ?_⟩
    · rcases Bool.or_eq_true_iff.mp fresh with old | declared
      · exact freshBelow old
      · simp only [Bool.and_eq_true, Bool.not_eq_true'] at declared
        exact (newBelow declared.1).2 declared.2
    · rw [unspent] at spent
      cases spent
  have permitted : (!possibleOverwrite && !it.coin.isSpent) = false := by
    cases possibleOverwrite with
    | true => rfl
    | false => simp [(newBelow rfl).1]
  have added := stands_put outpoint stands entryFits
  rw [Coin.unspent_of_not_isSpent unspent] at added
  rw [if_neg unspendable]
  refine ⟨(), _, ?_, trivial, added⟩
  simp only [CCoinsViewCache.addCoin, unspent, unspendable, Bool.false_eq_true, if_false]
  change (if (!possibleOverwrite && !((view.cacheCoins.lookup outpoint).getD .empty).coin.isSpent)
    = true then _ else _ : CoinsM Unit) view = _
  rw [found, permitted]
  rfl

/-- The coin of an outpoint is moved out. -/
theorem leads_spendCoin : Leads (top :: below) (CCoinsViewCache.spendCoin outpoint)
    (fun spent => spent.2 = (top.coins outpoint).getD .empty ∧
      (spent.1 = false → top.coins outpoint = none))
    (top.set outpoint none :: below) := by
  refine .of_exists fun view stands => ?_
  obtain ⟨it, after, ran, stands', cached, value⟩ := fetchCoin_runs outpoint stands
  obtain ⟨-, -, -, fits⟩ := stands'.parts
  cases it with
  | none =>
      have absent : top.coins outpoint = none := value.symm
      refine ⟨(false, .empty), after, bind_eq_ok.mpr ⟨none, after, ran, rfl⟩, ?_, ?_⟩
      · rw [absent]
        exact ⟨rfl, fun _ => rfl⟩
      · rw [← absent, CoinLevel.set_self]
        exact stands'
  | some it =>
      have right := fits outpoint it cached.symm
      have moved : it.coin = (top.coins outpoint).getD .empty := by
        rw [← value]
        exact right.coin_eq
      by_cases fresh : it.fresh = true
      · have erased := stands_erase outpoint stands' (right.fresh fresh).2
        refine ⟨(true, it.coin), _, bind_eq_ok.mpr ⟨some it, after, ran, ?_⟩, ⟨moved, nofun⟩,
          erased⟩
        simp only [fresh, if_true]
        rfl
      · have cleared : CCoinsCacheEntry.Fits ⟨.empty, true, it.fresh⟩ (after.base.coins outpoint) :=
          ⟨nofun, fun impossible => absurd impossible fresh,
            fun _ => ⟨rfl, Bool.eq_false_iff.mpr fresh⟩⟩
        have spent := stands_put outpoint stands' cleared
        refine ⟨(true, it.coin), _, bind_eq_ok.mpr ⟨some it, after, ran, ?_⟩, ⟨moved, nofun⟩,
          spent⟩
        simp only [fresh, Bool.false_eq_true, if_false]
        rfl

end Methods

/-! ### The best block -/

/-- The best block of the first level that knows one. -/
def bestOf : List CoinLevel → Uint256
  | [] => .null
  | level :: levels => level.best.getD (bestOf levels)

/-- The levels, once the first one has been asked for its best block. -/
def learned : List CoinLevel → List CoinLevel
  | [] => []
  | level :: levels =>
      match level.best with
      | some _ => level :: levels
      | none => { level with best := known (bestOf levels) } :: learned levels

section Blocks

variable {top : CoinLevel} {below : List CoinLevel}

theorem leads_setBestBlock (hash : Uint256) :
    Leads (top :: below) (CCoinsViewCache.setBestBlock hash) (fun _ => True)
      ({ top with best := known hash } :: below) := by
  refine .of_exists fun view stands => ?_
  obtain ⟨rfl, rfl, sound, fits⟩ := stands.parts
  exact ⟨(), _, rfl, trivial, ⟨sound, fits⟩, rfl⟩

end Blocks

/-! ### Handing the changes down -/

section Writes

variable {top second : CoinLevel} {below : List CoinLevel}

theorem coins_of_levels {view : CCoinsView} (levels : view.levels = top :: below) :
    view.coins = top.coins := by
  cases view with
  | database db =>
      cases levels
      rfl
  | cache base own =>
      cases levels
      rfl

end Writes

/-- A call on the top cache, the opening of a cache on top of it, or its end. -/
inductive ViewCall
  | getCoin (outpoint : COutPoint)
  | haveCoin (outpoint : COutPoint)
  | accessCoin (outpoint : COutPoint)
  | addCoin (outpoint : COutPoint) (coin : Coin) (possibleOverwrite : Bool)
  | spendCoin (outpoint : COutPoint)
  | uncache (outpoint : COutPoint)
  | getBestBlock
  | setBestBlock (hash : Uint256)
  | flush
  | sync
  | openCache
  | dropCache

/-- What a caller learns. -/
inductive ViewAnswer
  | unspent (coin : Option Coin)
  | found (found : Bool)
  | coin (coin : Coin)
  | hash (hash : Uint256)
  | done

/-- A cache over the cache. -/
def CCoinsViewCache.opened (view : CCoinsViewCache) : CCoinsViewCache := .new view.toView

/-- The cache below the cache, if its base is one. -/
def CCoinsViewCache.dropped (view : CCoinsViewCache) : CCoinsViewCache :=
  match view.base with
  | .database _ => view
  | .cache base own => ⟨own, base⟩

namespace ViewCall

/-- The call on the caches. -/
def run : ViewCall → CoinsM ViewAnswer
  | getCoin outpoint => .unspent <$> CCoinsViewCache.getCoin outpoint
  | haveCoin outpoint => .found <$> CCoinsViewCache.haveCoin outpoint
  | accessCoin outpoint => .coin <$> CCoinsViewCache.accessCoin outpoint
  | addCoin outpoint coin possibleOverwrite =>
      (fun _ => .done) <$> CCoinsViewCache.addCoin outpoint coin possibleOverwrite
  | spendCoin outpoint => (fun spent => .coin spent.2) <$> CCoinsViewCache.spendCoin outpoint
  | uncache outpoint => (fun _ => .done) <$> CCoinsViewCache.uncache outpoint
  | getBestBlock => .hash <$> CCoinsViewCache.getBestBlock
  | setBestBlock hash => (fun _ => .done) <$> CCoinsViewCache.setBestBlock hash
  | flush => (fun _ => .done) <$> CCoinsViewCache.flush
  | sync => (fun _ => .done) <$> CCoinsViewCache.sync
  | openCache => (fun _ => .done) <$> modify CCoinsViewCache.opened
  | dropCache => (fun _ => .done) <$> modify CCoinsViewCache.dropped

/-- The call on plain levels of coins. -/
def plain (call : ViewCall) (top : CoinLevel) (below : List CoinLevel) :
    ViewAnswer × List CoinLevel :=
  match call with
  | getCoin outpoint => (.unspent (top.coins outpoint), top :: below)
  | haveCoin outpoint => (.found (top.coins outpoint).isSome, top :: below)
  | accessCoin outpoint => (.coin ((top.coins outpoint).getD .empty), top :: below)
  | addCoin outpoint coin _ =>
      (.done,
        (if isUnspendable coin.out.scriptPubKey then top else top.set outpoint (some coin)) ::
          below)
  | spendCoin outpoint =>
      (.coin ((top.coins outpoint).getD .empty), top.set outpoint none :: below)
  | uncache _ => (.done, top :: below)
  | getBestBlock => (.hash (bestOf (top :: below)), learned (top :: below))
  | setBestBlock hash => (.done, { top with best := known hash } :: below)
  | flush | sync => (.done, top :: top :: below.tail)
  | openCache => (.done, ⟨top.coins, none⟩ :: top :: below)
  | dropCache => (.done, below)

end ViewCall

/-- A new cache shows what is below it. -/
theorem stands_new {base : CCoinsView} (sound : base.Sound) :
    Stands (⟨base.coins, none⟩ :: base.levels) (.new base) :=
  ⟨⟨sound, fun _ _ impossible => nomatch impossible⟩, rfl⟩

end QuantyCoin.CoinsViews
