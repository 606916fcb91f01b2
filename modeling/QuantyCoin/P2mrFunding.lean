import QuantyCoin.P2mrSpends

/-!
# Funding of P2MR spends

What a spend made by `CreateP2MRSpend` draws, pays and leaves.  Its amounts always
balance and its inputs are always unspent and confirmed.  They are mature, and their
total is an amount in range, exactly under a condition on the coins of the wallet.
-/

namespace QuantyCoin

open ByteDecoder GreedySelection

namespace CWallet

variable {context : SpendContext} {wallet : CWallet} {script : Bytes} {p2mrId : List Char}
  {toDest : CTxDestination} {sendAmount fee : Int64} {entry : P2MREntry}
  {chosen : List (COutPoint × Int64)} {spend : P2MRSpendUnsigned}

/-- The inputs are different mature coins of the script, and their total is what the
spend pays, returns as change and leaves. -/
structure Conserves (wallet : CWallet) (script : Bytes) (sendAmount fee : Int64)
    (spend : P2MRSpendUnsigned) : Prop where
  distinct : spend.inputs.Nodup
  spends : spend.tx.vin.map CTxIn.prevout = spend.inputs
  draws : ∃ coins : List (COutPoint × Int64), coins.map Prod.fst = spend.inputs ∧
    (∀ coin ∈ coins, wallet.Pays script coin ∧ wallet.IsMature coin.1) ∧
    total coinValue coins = spend.inputAmount.toInt
  conserves : spend.inputAmount.toInt =
    sendAmount.toInt + spend.changeAmount.toInt + spend.effectiveFee.toInt
  pays : spend.tx.vout.map CTxOut.nValue =
    sendAmount :: if spend.hasChange then [spend.changeAmount] else []
  fee_le : fee.toInt ≤ spend.effectiveFee.toInt
  effectiveFee_le : spend.effectiveFee.toInt ≤ fee.toInt + 546
  inRange : ∀ amount ∈ [sendAmount, spend.inputAmount, spend.changeAmount, spend.effectiveFee],
    moneyRange amount = true

/-- A spend is funded from spendable coins, and it is made if there are enough of them. -/
structure Funded (context : SpendContext) (wallet : CWallet) (p2mrId : List Char)
    (toDest : CTxDestination) (sendAmount fee : Int64) : Prop where
  conserves : ∀ spend,
    wallet.createP2MRSpend context p2mrId toDest sendAmount fee = .ok spend →
      ∃ entry, wallet.getP2MR context p2mrId = some entry ∧
        Conserves wallet entry.scriptPubKey sendAmount fee spend
  enough : ∀ entry (coins : List (COutPoint × Int64)),
    wallet.getP2MR context p2mrId = some entry → (coins.map Prod.fst).Nodup →
      (∀ coin ∈ coins, wallet.Pays entry.scriptPubKey coin ∧ wallet.IsMature coin.1) →
      sendAmount.toInt + fee.toInt ≤ total coinValue coins →
      wallet.createP2MRSpend context p2mrId toDest sendAmount fee ≠ .error .noSpendableUtxo ∧
        wallet.createP2MRSpend context p2mrId toDest sendAmount fee ≠
          .error .insufficientUtxoAmount

/-- In the order of the wallet, `coin` comes next to `before`, and `before` does not
reach the amount. -/
def Draws (wallet : CWallet) (script : Bytes) (amount : Int) (before : List (COutPoint × Int64))
    (coin : COutPoint × Int64) : Prop :=
  before ++ [coin] <+: wallet.coins script ∧ total coinValue before < amount

/-- A request that passes the checks, which the coins of the script cover, and whose
change finds a destination. -/
structure Serves (context : SpendContext) (wallet : CWallet) (p2mrId : List Char)
    (toDest : CTxDestination) (sendAmount fee : Int64) (entry : P2MREntry) : Prop where
  requests : Requests context wallet p2mrId toDest sendAmount fee entry
  covered : sendAmount.toInt + fee.toInt ≤ total coinValue (wallet.coins entry.scriptPubKey)
  change : ∀ before coin,
    Draws wallet entry.scriptPubKey (sendAmount.toInt + fee.toInt) before coin →
      sendAmount.toInt + fee.toInt + 546 < total coinValue before + coinValue coin →
      ∃ dest, wallet.getNewChangeDestination = .ok dest

/-- Every coin that is drawn is mature, and the total stays an amount. -/
def DrawsMature (wallet : CWallet) (script : Bytes) (amount : Int) : Prop :=
  ∀ before coin, Draws wallet script amount before coin →
    wallet.IsMature coin.1 ∧ total coinValue before + coinValue coin ≤ maxMoney.toInt

theorem toInt_zero : (0 : Int64).toInt = 0 := by decide

theorem toInt_dust : (546 : Int64).toInt = 546 := by decide

/-! ## Drawn coins -/

theorem total_concat (before : List (COutPoint × Int64)) (coin : COutPoint × Int64) :
    total coinValue (before ++ [coin]) = total coinValue before + coinValue coin := by
  rw [total_append, total_cons, total_nil, add_zero]

theorem coinValue_nonneg {coin : COutPoint × Int64} (member : coin ∈ wallet.coins script) :
    0 ≤ coinValue coin :=
  (moneyRange_iff.mp (wallet.moneyRange_of_mem_coins member)).1

theorem total_le_of_isPrefix {first second : List (COutPoint × Int64)}
    (available : second <+: wallet.coins script) (isPrefix : first <+: second) :
    total coinValue first ≤ total coinValue second := by
  obtain ⟨rest, rfl⟩ := isPrefix
  have rest_nonneg : 0 ≤ total coinValue rest := by
    apply total_nonneg
    intro coin inside
    exact coinValue_nonneg (available.subset (List.mem_append_right _ inside))
  rw [total_append]
  omega

/-- Different mature coins are worth no more than all coins. -/
theorem total_le_coins {coins : List (COutPoint × Int64)} (distinct : (coins.map Prod.fst).Nodup)
    (pays : ∀ coin ∈ coins, wallet.Pays script coin) :
    total coinValue coins ≤ total coinValue (wallet.coins script) := by
  have available : coins.Subperm (wallet.coins script) :=
    List.subperm_of_subset (List.Nodup.of_map _ distinct) fun coin member =>
      wallet.mem_coins_iff.mpr (pays coin member)
  obtain ⟨drawn, same, sublist⟩ := available
  rw [← total_perm same]
  refine List.Sublist.sum_le_sum (sublist.map coinValue) ?_
  intro value inside
  obtain ⟨coin, member, rfl⟩ := List.mem_map.mp inside
  exact coinValue_nonneg member

theorem draws_iff {amount : Int} {before : List (COutPoint × Int64)} {coin : COutPoint × Int64}
    (positive : 0 < amount)
    (reaching : ReachingPrefix coinValue amount (wallet.coins script) chosen) :
    Draws wallet script amount before coin ↔ before ++ [coin] <+: chosen :=
  (reaching.concat_prefix_iff (fun _ member => coinValue_nonneg member) positive).symm

/-- Drawing only mature coins, on the coins that are chosen. -/
theorem drawsMature_iff {amount : Int} (positive : 0 < amount)
    (reaching : ReachingPrefix coinValue amount (wallet.coins script) chosen) :
    DrawsMature wallet script amount ↔
      (∀ coin ∈ chosen, wallet.IsMature coin.1) ∧ total coinValue chosen ≤ maxMoney.toInt := by
  constructor
  · intro mature
    constructor
    · intro coin member
      obtain ⟨before, after, rfl⟩ := List.append_of_mem member
      have drawn : before ++ [coin] <+: before ++ coin :: after := ⟨after, by simp⟩
      exact (mature before coin ((draws_iff positive reaching).mpr drawn)).1
    · rcases List.eq_nil_or_concat chosen with rfl | ⟨before, coin, rfl⟩
      · rw [total_nil, toInt_maxMoney]
        omega
      · rw [List.concat_eq_append] at reaching ⊢
        rw [total_concat]
        exact (mature before coin ((draws_iff positive reaching).mpr List.prefix_rfl)).2
  · rintro ⟨mature, bounded⟩ before coin draws
    have drawn := (draws_iff positive reaching).mp draws
    refine ⟨mature coin (drawn.subset (by simp)), ?_⟩
    rw [← total_concat]
    exact (total_le_of_isPrefix reaching.isPrefix drawn).trans bounded

/-- Where no more than `MAX_MONEY` has been issued, only the maturity counts. -/
theorem drawsMature_iff_of_supply {amount : Int}
    (supply : total coinValue (wallet.coins script) ≤ maxMoney.toInt) :
    DrawsMature wallet script amount ↔
      ∀ before coin, Draws wallet script amount before coin → wallet.IsMature coin.1 := by
  constructor
  · intro mature before coin draws
    exact (mature before coin draws).1
  · intro mature before coin draws
    refine ⟨mature before coin draws, ?_⟩
    rw [← total_concat]
    exact (total_le_of_isPrefix List.prefix_rfl draws.1).trans supply

/-! ## Exactly when spends are funded -/

/-- The selection of a request. -/
structure Selects (wallet : CWallet) (script : Bytes) (sendAmount fee : Int64)
    (chosen : List (COutPoint × Int64)) : Prop where
  target_eq : (sendAmount + fee).toInt = sendAmount.toInt + fee.toInt
  selected_eq : (wallet.selectCoins script (sendAmount + fee)).selected = chosen
  inputAmount_eq :
    (wallet.selectCoins script (sendAmount + fee)).inputAmount.toInt = total coinValue chosen
  reaching : ReachingPrefix coinValue (sendAmount.toInt + fee.toInt) (wallet.coins script) chosen

theorem Requests.target_pos
    (requests : Requests context wallet p2mrId toDest sendAmount fee entry) :
    0 < sendAmount.toInt + fee.toInt :=
  add_pos_of_pos_of_nonneg requests.positive requests.fee_nonneg

theorem exists_selects
    (requests : Requests context wallet p2mrId toDest sendAmount fee entry) :
    ∃ chosen, Selects wallet entry.scriptPubKey sendAmount fee chosen := by
  have positive := requests.positive
  have fee_nonneg := requests.fee_nonneg
  have bounded := requests.bounded
  have bounded' := bounded
  rw [toInt_maxMoney] at bounded'
  have target_eq := @toInt_add_of_bounds sendAmount fee (by omega) (by omega)
  obtain ⟨chosen, selected, amount, reaching⟩ :=
    @WalletTxs.exists_selected wallet.toWalletTxs entry.scriptPubKey (sendAmount + fee)
      (by omega) (by omega)
  rw [target_eq] at reaching
  exact ⟨chosen, target_eq, selected, amount, reaching⟩

theorem Selects.nonneg (selects : Selects wallet script sendAmount fee chosen) :
    0 ≤ total coinValue chosen :=
  total_nonneg fun _ member => coinValue_nonneg (selects.reaching.isPrefix.subset member)

/-- The change is computed without overflow. -/
theorem Selects.change_eq (selects : Selects wallet script sendAmount fee chosen)
    (requests : Requests context wallet p2mrId toDest sendAmount fee entry) :
    ((wallet.selectCoins script (sendAmount + fee)).inputAmount - (sendAmount + fee)).toInt =
      total coinValue chosen - (sendAmount.toInt + fee.toInt) := by
  have positive := requests.positive
  have fee_nonneg := requests.fee_nonneg
  have bounded := requests.bounded
  have nonneg := selects.nonneg
  have amount := selects.inputAmount_eq
  have target := selects.target_eq
  have small := (wallet.selectCoins script (sendAmount + fee)).inputAmount.toInt_lt
  rw [toInt_maxMoney] at bounded
  rw [toInt_sub_of_bounds, amount, target]
  all_goals omega

/-- The amounts of a spend that balances. -/
theorem Selects.amounts (selects : Selects wallet script sendAmount fee chosen)
    (requests : Requests context wallet p2mrId toDest sendAmount fee entry)
    (covered : sendAmount.toInt + fee.toInt ≤ total coinValue chosen)
    (balances : Balances wallet (wallet.selectCoins script (sendAmount + fee)) sendAmount
      (sendAmount + fee) spend) :
    total coinValue chosen =
        sendAmount.toInt + spend.changeAmount.toInt + spend.effectiveFee.toInt ∧
      0 ≤ spend.changeAmount.toInt ∧ fee.toInt ≤ spend.effectiveFee.toInt ∧
      spend.effectiveFee.toInt ≤ fee.toInt + 546 := by
  have positive := requests.positive
  have fee_nonneg := requests.fee_nonneg
  have amount := selects.inputAmount_eq
  have change := selects.change_eq requests
  have small := (wallet.selectCoins script (sendAmount + fee)).inputAmount.toInt_lt
  have rest := @toInt_sub_of_bounds (wallet.selectCoins script (sendAmount + fee)).inputAmount
    sendAmount (by omega) (by omega)
  have left_over : spend.changeAmount.toInt = 0 ∧ total coinValue chosen ≤
        sendAmount.toInt + fee.toInt + 546 ∨
      spend.changeAmount.toInt = total coinValue chosen - (sendAmount.toInt + fee.toInt) := by
    rcases balances.change_cases with ⟨dust, none, -⟩ | ⟨-, whole, -⟩
    · rw [Int64.le_iff_toInt_le, change, toInt_dust] at dust
      exact Or.inl ⟨by rw [none, toInt_zero], by omega⟩
    · exact Or.inr (by rw [whole, change])
  have effective := @toInt_sub_of_bounds
    ((wallet.selectCoins script (sendAmount + fee)).inputAmount - sendAmount) spend.changeAmount
    (by omega) (by omega)
  rw [← balances.effectiveFee_eq, rest, amount] at effective
  omega

theorem Selects.conserves (selects : Selects wallet entry.scriptPubKey sendAmount fee chosen)
    (requests : Requests context wallet p2mrId toDest sendAmount fee entry)
    (covered : sendAmount.toInt + fee.toInt ≤ total coinValue chosen)
    (balances : Balances wallet (wallet.selectCoins entry.scriptPubKey (sendAmount + fee))
      sendAmount (sendAmount + fee) spend)
    (mature : ∀ coin ∈ chosen, wallet.IsMature coin.1)
    (bounded : total coinValue chosen ≤ maxMoney.toInt) :
    Conserves wallet entry.scriptPubKey sendAmount fee spend := by
  have positive := requests.positive
  have fee_nonneg := requests.fee_nonneg
  obtain ⟨conserved, change_nonneg, fee_le, effectiveFee_le⟩ :=
    selects.amounts requests covered balances
  have inputs : spend.inputs = chosen.map Prod.fst := by
    rw [balances.inputs_eq, selects.selected_eq]
  have amount : spend.inputAmount.toInt = total coinValue chosen := by
    rw [balances.inputAmount_eq, selects.inputAmount_eq]
  have available := selects.reaching.isPrefix
  rw [toInt_maxMoney] at bounded
  refine ⟨?_, balances.spends, ⟨chosen, inputs.symm, ?_, amount.symm⟩, ?_, balances.pays, fee_le,
    effectiveFee_le, ?_⟩
  · rw [inputs]
    exact (wallet.coins_nodup entry.scriptPubKey).sublist (available.sublist.map Prod.fst)
  · intro coin member
    exact ⟨wallet.mem_coins_iff.mp (available.subset member), mature coin member⟩
  · rw [amount, conserved]
  · intro value listed
    rw [moneyRange_iff]
    simp only [List.mem_cons, List.not_mem_nil, or_false] at listed
    rcases listed with rfl | rfl | rfl | rfl
    all_goals omega

/-- A spend is made only for a request whose coins are enough. -/
theorem exists_requests (made : wallet.createP2MRSpend context p2mrId toDest sendAmount fee =
    .ok spend) : ∃ entry, Requests context wallet p2mrId toDest sendAmount fee entry := by
  rcases @requests_or_refused context wallet p2mrId toDest sendAmount fee with
    requests | ⟨error, refused, -⟩
  · exact requests
  · cases made.symm.trans refused

/-- Too few coins mean no spend. -/
theorem Selects.short (selects : Selects wallet entry.scriptPubKey sendAmount fee chosen)
    (requests : Requests context wallet p2mrId toDest sendAmount fee entry)
    (short : total coinValue chosen < sendAmount.toInt + fee.toInt) :
    ∃ error, wallet.createP2MRSpend context p2mrId toDest sendAmount fee = .error error := by
  rw [wallet.createP2MRSpend_of_requests requests]
  apply spendSelected_of_short
  rw [Int64.lt_iff_toInt_lt, selects.change_eq requests, toInt_zero]
  omega

/-- With enough coins, the spend balances or its change finds no destination. -/
theorem Selects.covered (selects : Selects wallet entry.scriptPubKey sendAmount fee chosen)
    (requests : Requests context wallet p2mrId toDest sendAmount fee entry)
    (covered : sendAmount.toInt + fee.toInt ≤ total coinValue chosen) :
    (∃ spend, wallet.createP2MRSpend context p2mrId toDest sendAmount fee = .ok spend ∧
      Balances wallet (wallet.selectCoins entry.scriptPubKey (sendAmount + fee)) sendAmount
        (sendAmount + fee) spend) ∨
    (sendAmount.toInt + fee.toInt + 546 < total coinValue chosen ∧
      ∃ error, wallet.getNewChangeDestination = .error error ∧
        wallet.createP2MRSpend context p2mrId toDest sendAmount fee =
          .error (.noChangeDestination error)) := by
  have positive := requests.positive
  have fee_nonneg := requests.fee_nonneg
  rw [wallet.createP2MRSpend_of_requests requests]
  have drawn : (wallet.selectCoins entry.scriptPubKey (sendAmount + fee)).selected ≠ [] := by
    rw [selects.selected_eq]
    rintro rfl
    rw [total_nil] at covered
    omega
  have change := selects.change_eq requests
  have enough :
      0 ≤ (wallet.selectCoins entry.scriptPubKey (sendAmount + fee)).inputAmount -
        (sendAmount + fee) := by
    rw [Int64.le_iff_toInt_le, change, toInt_zero]
    omega
  rcases @spendSelected_of_covered wallet p2mrId toDest sendAmount _ _ drawn enough with
    made | ⟨worth, missing⟩
  · exact Or.inl made
  · rw [Int64.lt_iff_toInt_lt, change, toInt_dust] at worth
    exact Or.inr ⟨by omega, missing⟩

/-- A funded spend shows that the chosen coins are mature. -/
theorem Funded.drawsMature (funded : Funded context wallet p2mrId toDest sendAmount fee)
    (serves : Serves context wallet p2mrId toDest sendAmount fee entry) :
    DrawsMature wallet entry.scriptPubKey (sendAmount.toInt + fee.toInt) := by
  obtain ⟨requests, covered, change⟩ := serves
  have positive := requests.target_pos
  obtain ⟨chosen, selects⟩ := exists_selects requests
  rw [drawsMature_iff positive selects.reaching]
  have enough := selects.reaching.total_reached covered
  rcases selects.covered requests enough with ⟨spend, made, balances⟩ | ⟨worth, error, missing, -⟩
  · obtain ⟨entry', known, conserved⟩ := funded.conserves spend made
    obtain ⟨coins, inputs, spendable, amount⟩ := conserved.draws
    have sameInputs : coins.map Prod.fst = chosen.map Prod.fst := by
      rw [inputs, balances.inputs_eq, selects.selected_eq]
    constructor
    · intro coin member
      have listed : coin.1 ∈ coins.map Prod.fst := by
        rw [sameInputs]
        exact List.mem_map.mpr ⟨coin, member, rfl⟩
      obtain ⟨other, member', same⟩ := List.mem_map.mp listed
      rw [← same]
      exact (spendable other member').2
    · have inRange := conserved.inRange spend.inputAmount (by simp)
      rw [← selects.inputAmount_eq, ← balances.inputAmount_eq, toInt_maxMoney]
      exact (moneyRange_iff.mp inRange).2
  · -- The change is due after the last coin, so that it has a destination.
    exfalso
    rcases List.eq_nil_or_concat chosen with rfl | ⟨before, coin, rfl⟩
    · rw [total_nil] at worth
      omega
    · rw [List.concat_eq_append] at worth selects
      rw [total_concat] at worth
      have draws := (draws_iff positive selects.reaching).mpr List.prefix_rfl
      obtain ⟨dest, found⟩ := change before coin draws worth
      cases found.symm.trans missing

/-- A request that is served has a destination for any change that is due. -/
theorem Selects.serves (selects : Selects wallet entry.scriptPubKey sendAmount fee chosen)
    (requests : Requests context wallet p2mrId toDest sendAmount fee entry)
    (enough : sendAmount.toInt + fee.toInt ≤ total coinValue chosen)
    (balances : Balances wallet (wallet.selectCoins entry.scriptPubKey (sendAmount + fee))
      sendAmount (sendAmount + fee) spend) :
    Serves context wallet p2mrId toDest sendAmount fee entry := by
  refine ⟨requests, ?_, ?_⟩
  · exact enough.trans (total_le_of_isPrefix List.prefix_rfl selects.reaching.isPrefix)
  · intro before coin draws worth
    have drawn := (draws_iff requests.target_pos selects.reaching).mp draws
    have within := total_le_of_isPrefix selects.reaching.isPrefix drawn
    rw [total_concat] at within
    rcases balances.change_cases with ⟨dust, -⟩ | ⟨-, -, -, found⟩
    · rw [Int64.le_iff_toInt_le, selects.change_eq requests, toInt_dust] at dust
      omega
    · exact found

theorem conserves_of_drawsMature
    (mature : ∀ entry, Serves context wallet p2mrId toDest sendAmount fee entry →
      DrawsMature wallet entry.scriptPubKey (sendAmount.toInt + fee.toInt))
    (made : wallet.createP2MRSpend context p2mrId toDest sendAmount fee = .ok spend) :
    ∃ entry, wallet.getP2MR context p2mrId = some entry ∧
      Conserves wallet entry.scriptPubKey sendAmount fee spend := by
  obtain ⟨entry, requests⟩ := exists_requests made
  refine ⟨entry, requests.known, ?_⟩
  obtain ⟨chosen, selects⟩ := exists_selects requests
  by_cases enough : sendAmount.toInt + fee.toInt ≤ total coinValue chosen
  · rcases selects.covered requests enough with ⟨spend', made', balances⟩ | ⟨-, error, -, failed⟩
    · cases made.symm.trans made'
      have drawsMature := mature entry (selects.serves requests enough balances)
      obtain ⟨allMature, bounded⟩ :=
        (drawsMature_iff requests.target_pos selects.reaching).mp drawsMature
      exact selects.conserves requests enough balances allMature bounded
    · cases made.symm.trans failed
  · obtain ⟨error, failed⟩ := selects.short requests (not_le.mp enough)
    cases made.symm.trans failed

/-- Where mature coins cover the amount and the fee, funds are not lacking. -/
theorem not_lacking {coins : List (COutPoint × Int64)}
    (known : wallet.getP2MR context p2mrId = some entry) (distinct : (coins.map Prod.fst).Nodup)
    (spendable : ∀ coin ∈ coins, wallet.Pays entry.scriptPubKey coin ∧ wallet.IsMature coin.1)
    (enough : sendAmount.toInt + fee.toInt ≤ total coinValue coins) :
    wallet.createP2MRSpend context p2mrId toDest sendAmount fee ≠ .error .noSpendableUtxo ∧
      wallet.createP2MRSpend context p2mrId toDest sendAmount fee ≠
        .error .insufficientUtxoAmount := by
  rcases @requests_or_refused context wallet p2mrId toDest sendAmount fee with
    ⟨entry', requests⟩ | ⟨error, refused, notNone, notShort⟩
  · cases known.symm.trans requests.known
    obtain ⟨chosen, selects⟩ := exists_selects requests
    have available := total_le_coins distinct fun coin member => (spendable coin member).1
    have covered := selects.reaching.total_reached (enough.trans available)
    rcases selects.covered requests covered with ⟨spend, made, -⟩ | ⟨-, error, -, failed⟩
    · rw [made]
      exact ⟨by simp, by simp⟩
    · rw [failed]
      exact ⟨by simp, by simp⟩
  · rw [refused]
    exact ⟨by simpa using notNone, by simpa using notShort⟩

/-- A spend is funded from mature coins, conserves value and stays in range exactly if,
where the request passes the checks, is covered and finds a destination for its change,
no immature coinbase output is among the coins that are drawn until they reach the
amount and the fee, and their total is an amount in range. -/
theorem funded_iff (context : SpendContext) (wallet : CWallet) (p2mrId : List Char)
    (toDest : CTxDestination) (sendAmount fee : Int64) :
    Funded context wallet p2mrId toDest sendAmount fee ↔
      ∀ entry, Serves context wallet p2mrId toDest sendAmount fee entry →
        DrawsMature wallet entry.scriptPubKey (sendAmount.toInt + fee.toInt) := by
  constructor
  · intro funded entry serves
    exact funded.drawsMature serves
  · intro mature
    refine ⟨fun spend made => conserves_of_drawsMature mature made, ?_⟩
    intro entry coins known distinct spendable enough
    exact not_lacking known distinct spendable enough

/-! ## An immature coinbase output is drawn -/

def minedTxid : Uint256 := ⟨List.replicate 32 1, rfl⟩

def minedRoot : Uint256 := ⟨List.replicate 32 2, rfl⟩

/-- A coinbase transaction that pays a P2MR output. -/
def minedTx : CTransaction where
  nVersion := 2
  vin := [⟨⟨.null, 0xffffffff⟩, 0xffffffff, []⟩]
  vout := [⟨5000000000, getScriptForDestination (.witnessV2P2MR minedRoot)⟩]
  nLockTime := 0

/-- The transaction has been mined in the last block. -/
def minedWallet : CWallet where
  mapWallet := [(minedTxid, ⟨some minedTx, .confirmed 100⟩)]
  mapTxSpends := []
  lastBlockHeight := 100
  distinctTxids := by simp
  conflicted_le := by simp
  checked := by
    intro entry member height _ tx known
    cases List.mem_singleton.mp member
    cases known
    exact ⟨by decide, by decide⟩
  addressBook :=
    [(.witnessV2P2MR minedRoot, [(p2mrReceiveRequestPrefix ++ ['0', '1'], ['{', '}'])])]
  getNewChangeDestination := .ok (.witnessV2P2MR minedRoot)

def mainContext : SpendContext where
  nDilithiumP2MRHeight := 1
  readsAsObject raw := raw = ['{', '}']

/-- The coinbase output, one block deep, is spent. -/
theorem immature_drawn :
    ¬ Funded mainContext minedWallet ['0', '1'] (.pkHash (List.replicate 20 3)) 1000000 1000 := by
  intro funded
  have made : ∃ spend, minedWallet.createP2MRSpend mainContext ['0', '1']
      (.pkHash (List.replicate 20 3)) 1000000 1000 = .ok spend ∧
      spend.inputs = [⟨minedTxid, 0⟩] := ⟨_, rfl, rfl⟩
  obtain ⟨spend, made, inputs⟩ := made
  obtain ⟨entry, -, conserved⟩ := funded.conserves spend made
  obtain ⟨coins, same, spendable, -⟩ := conserved.draws
  have listed : (⟨minedTxid, 0⟩ : COutPoint) ∈ coins.map Prod.fst := by
    rw [same, inputs]
    exact List.mem_singleton.mpr rfl
  obtain ⟨coin, member, outpoint⟩ := List.mem_map.mp listed
  have mature := (spendable coin member).2 ⟨some minedTx, .confirmed 100⟩ (by rw [outpoint]; rfl)
  exact absurd mature (by decide)

end CWallet

end QuantyCoin
