import QuantyCoin.CoinsViews
import Mathlib.Logic.Relation

/-!
# Writes to the coin database

`CCoinsViewDB::BatchWrite` writes a large map in several batches.  Each batch is written
as a whole, but the node may stop between two of them.  The database then says between
which blocks it is, takes no other block, and a write of the same map completes it.
-/

namespace QuantyCoin.CoinsViews

open KeyedLoops

/-- The coin that an entry leaves of the one below it. -/
def CCoinsCacheEntry.coinOrBelow (it : CCoinsCacheEntry) (below : Option Coin) : Option Coin :=
  if it.dirty then it.coin.unspent else below

theorem CCoinsCacheEntry.coinOrBelow_self (it : CCoinsCacheEntry) (below : Option Coin) :
    it.coinOrBelow (it.coinOrBelow below) = it.coinOrBelow below := by
  unfold coinOrBelow
  split_ifs
  · rfl
  · rfl

namespace CCoinsViewDB

/-! ## Writes in order -/

theorem foldl_writeBatch (db : CCoinsViewDB) (batches : List (List DBWrite)) :
    batches.foldl writeBatch db = batches.flatten.foldl write db := by
  induction batches generalizing db with
  | nil => rfl
  | cons batch batches ih =>
      rw [List.foldl_cons, ih, List.flatten_cons, List.foldl_append]
      rfl

/-- The writes of entries change nothing but coins. -/
theorem foldl_entryWrite_eq (db : CCoinsViewDB)
    (entries : List (Σ _ : COutPoint, CCoinsCacheEntry)) :
    (entries.flatMap entryWrite).foldl write db =
      { db with coins := ((entries.flatMap entryWrite).foldl write db).coins } := by
  induction entries generalizing db with
  | nil => rfl
  | cons entry entries ih =>
      rw [List.flatMap_cons, List.foldl_append, ih]
      rw [entryWrite]
      split_ifs
      · rfl
      · rfl

/-- What the database has after the entries are written. -/
theorem foldl_entryWrite (db : CCoinsViewDB) {entries : List (Σ _ : COutPoint, CCoinsCacheEntry)}
    (distinct : entries.NodupKeys) :
    (entries.flatMap entryWrite).foldl write db =
      { db with coins := visited entries (fun _ => CCoinsCacheEntry.coinOrBelow) db.coins } := by
  rw [foldl_entryWrite_eq]
  congr 1
  rw [List.foldl_flatMap]
  refine foldl_eq entries distinct db fun entry _ state key => ?_
  rw [entryWrite, CCoinsCacheEntry.coinOrBelow]
  cases entry.2.dirty with
  | false =>
      simp only [Bool.false_eq_true, if_false, List.foldl_nil]
      split_ifs with same
      · rw [same]
      · rfl
  | true => rfl

/-- The database between the blocks. -/
def between (db : CCoinsViewDB) (hashBlock oldTip : Uint256) (coins : COutPoint → Option Coin) :
    CCoinsViewDB :=
  ⟨coins, none, [hashBlock, oldTip], db.overSize⟩

/-- The database that the map is written to. -/
def written (db : CCoinsViewDB) (mapCoins : CCoinsMap) (hashBlock : Uint256) : CCoinsViewDB :=
  { db with
    coins := visited mapCoins.entries (fun _ => CCoinsCacheEntry.coinOrBelow) db.coins
    bestBlock := some hashBlock
    headBlocks := [] }

section Batches

variable {db : CCoinsViewDB} {mapCoins : CCoinsMap} {hashBlock oldTip : Uint256}

theorem flatten_fillBatches (db : CCoinsViewDB) (hashBlock : Uint256)
    (entries : List (Σ _ : COutPoint, CCoinsCacheEntry)) (batch : List DBWrite) :
    (db.fillBatches hashBlock entries batch).flatten =
      batch ++ entries.flatMap entryWrite ++ [.headBlocks [], .bestBlock (some hashBlock)] := by
  induction entries generalizing batch with
  | nil => simp [fillBatches]
  | cons entry entries ih =>
      rw [fillBatches]
      split_ifs
      · rw [List.flatten_cons, ih, List.flatMap_cons]
        simp only [List.nil_append, List.append_assoc]
      · rw [ih, List.flatMap_cons]
        simp only [List.append_assoc]

theorem batches_eq_ok {batches : List (List DBWrite)} :
    db.batches mapCoins hashBlock = .ok batches ↔
      hashBlock ≠ .null ∧ ∃ oldTip, db.oldTip hashBlock = .ok oldTip ∧
        batches = db.fillBatches hashBlock mapCoins.entries
          [.bestBlock none, .headBlocks [hashBlock, oldTip]] := by
  unfold CCoinsViewDB.batches
  by_cases null : hashBlock = .null
  · rw [if_pos null]
    exact ⟨nofun, fun both => absurd null both.1⟩
  · rw [if_neg null]
    cases found : db.oldTip hashBlock with
    | error error =>
        refine ⟨nofun, fun both => ?_⟩
        obtain ⟨oldTip, impossible, -⟩ := both.2
        cases impossible
    | ok oldTip =>
        constructor
        · rintro ⟨⟩
          exact ⟨null, oldTip, rfl, rfl⟩
        · rintro ⟨-, other, ⟨⟩, rfl⟩
          rfl

/-- A write that is not interrupted. -/
theorem batchWrite_eq (notNull : hashBlock ≠ .null) (found : db.oldTip hashBlock = .ok oldTip)
    (erase : Bool) : (CCoinsView.database db).batchWrite mapCoins hashBlock erase =
      .ok (if erase then ∅ else mapCoins, .database (db.written mapCoins hashBlock)) := by
  rw [CCoinsView.batchWrite, batches_eq_ok.mpr ⟨notNull, oldTip, found, rfl⟩]
  have all : (db.fillBatches hashBlock mapCoins.entries
      [.bestBlock none, .headBlocks [hashBlock, oldTip]]).foldl writeBatch db =
        db.written mapCoins hashBlock := by
    rw [foldl_writeBatch, flatten_fillBatches, List.foldl_append, List.foldl_append,
      foldl_entryWrite _ mapCoins.nodupKeys]
    rfl
  change Except.ok (_, CCoinsView.database (List.foldl writeBatch db _)) = _
  rw [all]

/-! ## Interrupted writes -/

/-- The batches before the last one are writes of the first entries. -/
theorem flatten_of_fillBatches {entries : List (Σ _ : COutPoint, CCoinsCacheEntry)}
    {batch : List DBWrite} {before rest : List (List DBWrite)}
    (split : db.fillBatches hashBlock entries batch = before ++ rest) (begun : before ≠ [])
    (cut : rest ≠ []) :
    ∃ done later, entries = done ++ later ∧
      before.flatten = batch ++ done.flatMap entryWrite := by
  induction entries generalizing batch before with
  | nil =>
      obtain ⟨first, before, rfl⟩ := List.exists_cons_of_ne_nil begun
      rw [fillBatches, List.cons_append] at split
      have none := (List.cons.inj split).2
      exact absurd (List.append_eq_nil_iff.mp none.symm).2 cut
  | cons entry entries ih =>
      rw [fillBatches] at split
      split_ifs at split
      · obtain ⟨first, before, rfl⟩ := List.exists_cons_of_ne_nil begun
        rw [List.cons_append] at split
        obtain ⟨rfl, following⟩ := List.cons.inj split
        by_cases last : before = []
        · exact ⟨[entry], entries, rfl, by simp [last]⟩
        · obtain ⟨done, later, rfl, writes⟩ := ih following last
          refine ⟨entry :: done, later, rfl, ?_⟩
          rw [List.flatten_cons, writes, List.flatMap_cons, List.nil_append, List.append_assoc]
      · obtain ⟨done, later, rfl, writes⟩ := ih split begun
        refine ⟨entry :: done, later, rfl, ?_⟩
        rw [writes, List.flatMap_cons, List.append_assoc]

/-- Between the blocks, the database goes on with the newer one only. -/
theorem oldTip_between {after : CCoinsViewDB}
    (state : after = db.between hashBlock oldTip after.coins) (other : Uint256) :
    after.oldTip other = if hashBlock = other then .ok oldTip else .error .assertion := by
  rw [state]
  rfl

/-- A write of the map is cut off between two batches. -/
def Cut (mapCoins : CCoinsMap) (hashBlock : Uint256) (db after : CCoinsViewDB) : Prop :=
  ∃ before rest, db.batches mapCoins hashBlock = .ok (before ++ rest) ∧ before ≠ [] ∧ rest ≠ [] ∧
    after = before.foldl writeBatch db

/-- The maps hold the same entries, in whatever order an iteration comes to them. -/
def SameEntries (mapCoins again : CCoinsMap) : Prop :=
  ∀ outpoint, again.lookup outpoint = mapCoins.lookup outpoint

/-- A write of the entries of the map is cut off, in some order of them. -/
def Interrupted (mapCoins : CCoinsMap) (hashBlock : Uint256) (db after : CCoinsViewDB) : Prop :=
  ∃ again, SameEntries mapCoins again ∧ Cut again hashBlock db after

theorem written_congr {again : CCoinsMap} (same : SameEntries mapCoins again) :
    db.written again hashBlock = db.written mapCoins hashBlock := by
  have coins : visited again.entries (fun _ => CCoinsCacheEntry.coinOrBelow) db.coins =
      visited mapCoins.entries (fun _ => CCoinsCacheEntry.coinOrBelow) db.coins :=
    funext fun outpoint => visited_congr (same outpoint)
  unfold CCoinsViewDB.written
  rw [coins]

/-- The database is on its way from what it was to what the map makes of it. -/
structure Underway (mapCoins : CCoinsMap) (hashBlock : Uint256) (db after : CCoinsViewDB) :
    Prop where
  notNull : hashBlock ≠ .null
  heads : ∃ oldTip, db.oldTip hashBlock = .ok oldTip ∧
    after = db.between hashBlock oldTip after.coins
  coins : ∀ outpoint, after.coins outpoint = db.coins outpoint ∨
    ∃ it, mapCoins.lookup outpoint = some it ∧
      after.coins outpoint = it.coinOrBelow (db.coins outpoint)

theorem Cut.underway {after : CCoinsViewDB} (cut : Cut mapCoins hashBlock db after) :
    Underway mapCoins hashBlock db after := by
  obtain ⟨before, rest, planned, begun, interrupted, rfl⟩ := cut
  obtain ⟨notNull, oldTip, found, all⟩ := batches_eq_ok.mp planned
  obtain ⟨done, later, entries, writes⟩ := flatten_of_fillBatches all.symm begun interrupted
  have distinct : done.NodupKeys := by
    have all := mapCoins.nodupKeys
    rw [entries] at all
    exact all.sublist (List.sublist_append_left done later)
  have state : before.foldl writeBatch db = db.between hashBlock oldTip
      (visited done (fun _ => CCoinsCacheEntry.coinOrBelow) db.coins) := by
    rw [foldl_writeBatch, writes, List.foldl_append, foldl_entryWrite _ distinct]
    rfl
  refine ⟨notNull, ⟨oldTip, found, by rw [state]; rfl⟩, fun outpoint => ?_⟩
  rw [state]
  change visited done (fun _ => CCoinsCacheEntry.coinOrBelow) db.coins outpoint = _ ∨
    ∃ it, _ ∧ visited done (fun _ => CCoinsCacheEntry.coinOrBelow) db.coins outpoint = _
  unfold visited
  cases entry : done.dlookup outpoint with
  | none => exact .inl rfl
  | some it =>
      refine .inr ⟨it, AList.mem_lookup_iff.mpr ?_, rfl⟩
      rw [entries]
      exact List.mem_append_left _ (List.of_mem_dlookup entry)

theorem Interrupted.underway {after : CCoinsViewDB}
    (interrupted : Interrupted mapCoins hashBlock db after) :
    Underway mapCoins hashBlock db after := by
  obtain ⟨again, same, cut⟩ := interrupted
  obtain ⟨notNull, heads, coins⟩ := cut.underway
  refine ⟨notNull, heads, fun outpoint => ?_⟩
  rw [← same outpoint]
  exact coins outpoint

/-- A write that continues another one. -/
theorem Underway.trans {middle after : CCoinsViewDB}
    (first : Underway mapCoins hashBlock db middle)
    (second : Underway mapCoins hashBlock middle after) :
    Underway mapCoins hashBlock db after := by
  obtain ⟨oldTip, found, state⟩ := first.heads
  obtain ⟨oldTip', found', state'⟩ := second.heads
  have same : oldTip' = oldTip := by
    rw [oldTip_between state, if_pos rfl] at found'
    cases found'
    rfl
  refine ⟨first.notNull, ⟨oldTip, found, ?_⟩, fun outpoint => ?_⟩
  · rw [state', same, state]
    rfl
  · rcases second.coins outpoint with kept | ⟨it, entry, written⟩
    · rw [kept]
      exact first.coins outpoint
    · refine .inr ⟨it, entry, ?_⟩
      rw [written]
      rcases first.coins outpoint with kept | ⟨it', entry', written'⟩
      · rw [kept]
      · cases entry.symm.trans entry'
        rw [written', CCoinsCacheEntry.coinOrBelow_self]

theorem Underway.of_cuts {after : CCoinsViewDB}
    (cuts : Relation.TransGen (Interrupted mapCoins hashBlock) db after) :
    Underway mapCoins hashBlock db after := by
  induction cuts with
  | single cut => exact cut.underway
  | tail _ cut ih => exact ih.trans cut.underway

/-- What is underway ends where it would have ended. -/
theorem Underway.written_eq {after : CCoinsViewDB}
    (underway : Underway mapCoins hashBlock db after) :
    after.written mapCoins hashBlock = db.written mapCoins hashBlock := by
  obtain ⟨oldTip, -, state⟩ := underway.heads
  have coins : visited mapCoins.entries (fun _ => CCoinsCacheEntry.coinOrBelow) after.coins =
      visited mapCoins.entries (fun _ => CCoinsCacheEntry.coinOrBelow) db.coins := by
    funext outpoint
    cases entry : mapCoins.lookup outpoint with
    | none =>
        rw [visited_of_none entry, visited_of_none entry]
        obtain kept | ⟨it, impossible, -⟩ := underway.coins outpoint
        · exact kept
        · cases entry.symm.trans impossible
    | some it =>
        rw [visited_of_some entry, visited_of_some entry]
        obtain kept | ⟨other, entry', written⟩ := underway.coins outpoint
        · rw [kept]
        · cases entry.symm.trans entry'
          rw [written, CCoinsCacheEntry.coinOrBelow_self]
  unfold CCoinsViewDB.written
  rw [coins, state]
  rfl

end Batches

end CCoinsViewDB

/-- However often a write of the entries of a map is cut off, in whatever orders, the database
says that it is between two blocks, takes no map for another block, and becomes what it would
have become at first when any map with these entries is written. -/
theorem batchWrite_resumed {mapCoins : CCoinsMap} {hashBlock : Uint256} {db after : CCoinsViewDB}
    (cuts : Relation.TransGen (CCoinsViewDB.Interrupted mapCoins hashBlock) db after) :
    after.getBestBlock = .null ∧
      (∃ oldTip, db.oldTip hashBlock = .ok oldTip ∧ after.headBlocks = [hashBlock, oldTip]) ∧
      (∀ again, CCoinsViewDB.SameEntries mapCoins again → ∀ erase,
        (CCoinsView.database after).batchWrite again hashBlock erase =
            (CCoinsView.database db).batchWrite again hashBlock erase ∧
          ((CCoinsView.database after).batchWrite again hashBlock erase).map Prod.snd =
            ((CCoinsView.database db).batchWrite mapCoins hashBlock erase).map Prod.snd) ∧
      ∀ (others : CCoinsMap) (other : Uint256) (erase : Bool), other ≠ hashBlock →
        (CCoinsView.database after).batchWrite others other erase = .error .assertion := by
  have underway := CCoinsViewDB.Underway.of_cuts cuts
  obtain ⟨oldTip, found, state⟩ := underway.heads
  have resumed : after.oldTip hashBlock = .ok oldTip := by
    rw [CCoinsViewDB.oldTip_between state, if_pos rfl]
  refine ⟨by rw [state]; rfl, ⟨oldTip, found, by rw [state]; rfl⟩, fun again same erase => ?_,
    fun others other erase different => ?_⟩
  · rw [CCoinsViewDB.batchWrite_eq underway.notNull found,
      CCoinsViewDB.batchWrite_eq underway.notNull found,
      CCoinsViewDB.batchWrite_eq underway.notNull resumed,
      CCoinsViewDB.written_congr same, CCoinsViewDB.written_congr same, underway.written_eq]
    exact ⟨rfl, rfl⟩
  · have refused : after.oldTip other = .error .assertion := by
      rw [CCoinsViewDB.oldTip_between state, if_neg different.symm]
    have stopped : after.batches others other = .error .assertion := by
      unfold CCoinsViewDB.batches
      rw [refused]
      by_cases null : other = .null
      · rw [if_pos null]
        rfl
      · rw [if_neg null]
        rfl
    rw [CCoinsView.batchWrite, stopped]
    rfl

/-- An empty database, each of whose batches is over the size. -/
def emptyDatabase : CCoinsViewDB := ⟨fun _ => none, none, [], fun _ => true⟩

/-- A coin that is added to the database. -/
def addedCoin (nValue : Int64) : CCoinsCacheEntry := ⟨⟨⟨nValue, []⟩, false, 1⟩, true, true⟩

/-- The first of two coins is written, and the node stops.  The map is then iterated the other
way around. -/
theorem batchWrite_resumed_reversed :
    let first : COutPoint := ⟨.one, 0⟩
    let second : COutPoint := ⟨.one, 1⟩
    let mapCoins : CCoinsMap := (AList.singleton second (addedCoin 7)).insert first (addedCoin 5)
    let again : CCoinsMap := (AList.singleton first (addedCoin 5)).insert second (addedCoin 7)
    let after := emptyDatabase.writeBatch
      [.bestBlock none, .headBlocks [.one, .null], .coin first (some (addedCoin 5).coin)]
    after.getBestBlock = .null ∧
      (∃ oldTip, emptyDatabase.oldTip .one = .ok oldTip ∧ after.headBlocks = [.one, oldTip]) ∧
      (∀ erase, (CCoinsView.database after).batchWrite again .one erase =
          (CCoinsView.database emptyDatabase).batchWrite again .one erase ∧
        ((CCoinsView.database after).batchWrite again .one erase).map Prod.snd =
          ((CCoinsView.database emptyDatabase).batchWrite mapCoins .one erase).map Prod.snd) ∧
      ∀ (others : CCoinsMap) (other : Uint256) (erase : Bool), other ≠ .one →
        (CCoinsView.database after).batchWrite others other erase = .error .assertion := by
  intro first second mapCoins again after
  have different : second ≠ first := by decide
  have cut : CCoinsViewDB.Cut mapCoins .one emptyDatabase after :=
    ⟨[[.bestBlock none, .headBlocks [.one, .null], .coin first (some (addedCoin 5).coin)]],
      [[.coin second (some (addedCoin 7).coin)], [.headBlocks [], .bestBlock (some .one)]],
      rfl, List.cons_ne_nil _ _, List.cons_ne_nil _ _, rfl⟩
  have same : CCoinsViewDB.SameEntries mapCoins again := by
    intro outpoint
    have single : ∀ key (entry : CCoinsCacheEntry),
        AList.singleton key entry = (∅ : CCoinsMap).insert key entry := fun _ _ => rfl
    simp only [again, mapCoins, single, lookup_insert]
    split_ifs with isSecond isFirst
    · exact absurd (isSecond.symm.trans isFirst) different
    · rfl
    · rfl
    · rfl
  obtain ⟨noBest, heads, resumed, refused⟩ :=
    batchWrite_resumed (.single ⟨mapCoins, fun _ => rfl, cut⟩)
  exact ⟨noBest, heads, resumed again same, refused⟩

end QuantyCoin.CoinsViews
