import QuantyCoin.WalletCoins

/-!
# Spends of P2MR outputs

`CreateP2MRSpend` of `wallet/p2mr.cpp`.  It draws the coins of the script in the order
of the wallet until they reach the amount and the fee.  It does not ask whether a coin
is mature, so that a spend is funded from spendable coins exactly if no immature
coinbase output is drawn before the others are enough.
-/

namespace QuantyCoin

open ByteDecoder GreedySelection Signing

/-! ## Destinations -/

/-- `CTxDestination`. -/
inductive CTxDestination
  | noDestination (script : Bytes)
  | pubKeyDestination (pubkey : Bytes)
  | pkHash (hash : Bytes)
  | scriptHash (hash : Bytes)
  | witnessV0ScriptHash (hash : Uint256)
  | witnessV0KeyHash (hash : Bytes)
  | witnessV1Taproot (key : Uint256)
  | witnessV2P2MR (root : Uint256)
  | witnessUnknown (version : Fin 17) (program : Bytes)
  | dilithiumPubKeyDestination (pubkey : Bytes)
  | dilithiumPKHash (hash : Bytes)
  | dilithiumScriptHash (hash : Bytes)
  | dilithiumWitnessV0KeyHash (hash : Bytes)
  | dilithiumWitnessV0ScriptHash (hash : Uint256)

/-- `CScript::EncodeOP_N`. -/
def encodeOpN (n : Fin 17) : UInt8 := if n = 0 then 0 else UInt8.ofNat (0x50 + n.val)

/-- The script of a key hash, up to the operation that checks the signature. -/
def keyHashChecked (hash : Bytes) (checker : UInt8) : Bytes :=
  [opDup, opHash160] ++ pushData hash ++ [opEqualverify, checker]

/-- `GetScriptForDestination`. -/
def getScriptForDestination : CTxDestination → Bytes
  | .noDestination script => script
  | .pubKeyDestination pubkey => pushData pubkey ++ [opChecksig]
  | .pkHash hash => keyHashChecked hash opChecksig
  | .scriptHash hash => [opHash160] ++ pushData hash ++ [opEqual]
  | .witnessV0ScriptHash hash => 0 :: pushData hash.bytes
  | .witnessV0KeyHash hash => 0 :: pushData hash
  | .witnessV1Taproot key => op1 :: pushData key.bytes
  | .witnessV2P2MR root => op2 :: pushData root.bytes
  | .witnessUnknown version program => encodeOpN version :: pushData program
  | .dilithiumPubKeyDestination pubkey => pushData pubkey ++ [opChecksigdilithium]
  | .dilithiumPKHash hash => keyHashChecked hash opChecksigdilithium
  | .dilithiumScriptHash hash => [opHash160] ++ pushData hash ++ [opEqual]
  | .dilithiumWitnessV0KeyHash hash => 0 :: pushData hash
  | .dilithiumWitnessV0ScriptHash hash => 0 :: pushData hash.bytes

/-- The script of a P2MR destination is the one the solver recognizes. -/
theorem getScriptForDestination_witnessV2P2MR (root : Uint256) :
    getScriptForDestination (.witnessV2P2MR root) = p2mrScript root := by
  have short : root.bytes.length < opPushdata1.toNat := by
    rw [root.bytes_length]
    decide
  rw [getScriptForDestination, pushData, if_pos short, root.bytes_length]
  rfl

/-- What the wallet takes from the chain and from its reader of JSON: the height at
which only P2MR is left, and whether a text is an object. -/
structure SpendContext where
  nDilithiumP2MRHeight : Int
  readsAsObject : List Char → Bool

variable (context : SpendContext)

/-- `LegacyDilithiumBase58PaymentsAllowed`. -/
def legacyDilithiumBase58PaymentsAllowed : Bool := context.nDilithiumP2MRHeight = 2 ^ 31 - 1

/-- `IsValidDestination`. -/
def isValidDestination : CTxDestination → Bool
  | .noDestination _ => false
  | .pubKeyDestination _ => false
  | .dilithiumPubKeyDestination _ => false
  | .dilithiumPKHash _ => legacyDilithiumBase58PaymentsAllowed context
  | .dilithiumScriptHash _ => legacyDilithiumBase58PaymentsAllowed context
  | .dilithiumWitnessV0KeyHash _ => false
  | .dilithiumWitnessV0ScriptHash _ => false
  | _ => true

/-! ## The wallet -/

/-- The parts of a `CWallet` a spend reads: its transactions, its address book with the
receive requests, and what `GetNewChangeDestination` answers. -/
structure CWallet extends WalletTxs where
  addressBook : List (CTxDestination × List (List Char × List Char))
  getNewChangeDestination : Except String CTxDestination

/-- `P2MREntry`, as far as a spend reads it. -/
structure P2MREntry where
  dest : CTxDestination
  scriptPubKey : Bytes

def p2mrReceiveRequestPrefix : List Char := ['r', 'r', 'p', '2', 'm', 'r', ':']

namespace CWallet

variable (wallet : CWallet)

/-- `ListP2MRMetadata`. -/
def listP2MRMetadata : List (CTxDestination × List Char × List Char) :=
  wallet.addressBook.flatMap fun entry =>
    entry.2.filterMap fun request =>
      if p2mrReceiveRequestPrefix.isPrefixOf request.1 then
        some (entry.1, request.1.drop p2mrReceiveRequestPrefix.length, request.2)
      else none

/-- `MetadataToEntry`. -/
def metadataToEntry (dest : CTxDestination) : P2MREntry := ⟨dest, getScriptForDestination dest⟩

/-- `GetP2MR`. -/
def getP2MR (id : List Char) : Option P2MREntry :=
  (wallet.listP2MRMetadata.find? fun metadata =>
    metadata.2.1 = id && context.readsAsObject metadata.2.2).map fun metadata =>
      metadataToEntry metadata.1

end CWallet

/-! ## The selection -/

/-- `selected` and `input_amount`. -/
structure CoinSelection where
  selected : List (COutPoint × Int64)
  inputAmount : Int64

namespace WalletTxs

variable (wallet : WalletTxs) (script : Bytes) (targetAmount : Int64)

/-- The loop over the outputs of a transaction. -/
def selectFrom (txid : Uint256) : List CTxOut → Nat → CoinSelection → CoinSelection
  | [], _, selection => selection
  | txout :: vout, n, selection =>
      if txout.scriptPubKey ≠ script then selectFrom txid vout (n + 1) selection
      else if wallet.isSpent ⟨txid, UInt32.ofNat n⟩ then selectFrom txid vout (n + 1) selection
      else
        let selection : CoinSelection :=
          ⟨selection.selected ++ [(⟨txid, UInt32.ofNat n⟩, txout.nValue)],
            selection.inputAmount + txout.nValue⟩
        if targetAmount ≤ selection.inputAmount then selection
        else selectFrom txid vout (n + 1) selection

/-- The loop over `mapWallet`. -/
def selectAll : List (Uint256 × CWalletTx) → CoinSelection → CoinSelection
  | [], selection => selection
  | (txid, wtx) :: entries, selection =>
      match wtx.tx with
      | none => selectAll entries selection
      | some tx =>
          if wallet.getTxDepthInMainChain wtx ≤ 0 then selectAll entries selection
          else
            let selection := wallet.selectFrom script targetAmount txid tx.vout 0 selection
            if targetAmount ≤ selection.inputAmount then selection
            else selectAll entries selection

def selectCoins : CoinSelection := wallet.selectAll script targetAmount wallet.mapWallet ⟨[], 0⟩

end WalletTxs

/-! ## The spend -/

def defaultP2mrDustThreshold : Int64 := 546

/-- The errors of `CreateP2MRSpend`; the last is the one of `GetNewChangeDestination`. -/
inductive SpendError
  | invalidDestination
  | sendAmountNotPositive
  | feeNegative
  | unknownId
  | amountOutOfRange
  | noSpendableUtxo
  | insufficientUtxoAmount
  | noChangeDestination (error : String)

def SpendError.text : SpendError → String
  | .invalidDestination => "invalid destination address"
  | .sendAmountNotPositive => "send amount must be positive"
  | .feeNegative => "fee must be non-negative"
  | .unknownId => "unknown p2mr_id"
  | .amountOutOfRange => "amount out of range"
  | .noSpendableUtxo => "no spendable P2MR UTXO found"
  | .insufficientUtxoAmount => "insufficient P2MR UTXO amount"
  | .noChangeDestination error => error

/-- `P2MRSpendUnsigned`. -/
structure P2MRSpendUnsigned where
  tx : CTransaction
  p2mrId : List Char
  input : COutPoint
  inputs : List COutPoint
  inputAmount : Int64
  effectiveFee : Int64
  changeAmount : Int64
  hasChange : Bool

/-- `CTxIn(prevout)`. -/
def CTxIn.ofPrevout (prevout : COutPoint) : CTxIn := ⟨prevout, 0xffffffff, []⟩

namespace CWallet

variable (wallet : CWallet) (p2mrId : List Char) (toDest : CTxDestination)
  (sendAmount targetAmount fee : Int64)

/-- What `CreateP2MRSpend` does with the selected coins. -/
def spendSelected (selection : CoinSelection) : Except SpendError P2MRSpendUnsigned :=
  match selection.selected.map Prod.fst with
  | [] => .error .noSpendableUtxo
  | input :: inputs =>
      let change := selection.inputAmount - targetAmount
      let vin := (input :: inputs).map CTxIn.ofPrevout
      let sent : CTxOut := ⟨sendAmount, getScriptForDestination toDest⟩
      if change < 0 then .error .insufficientUtxoAmount
      else if defaultP2mrDustThreshold < change then
        match wallet.getNewChangeDestination with
        | .error error => .error (.noChangeDestination error)
        | .ok changeDest =>
            .ok ⟨⟨2, vin, [sent, ⟨change, getScriptForDestination changeDest⟩], 0⟩, p2mrId, input,
              input :: inputs, selection.inputAmount,
              selection.inputAmount - sendAmount - change, change, true⟩
      else
        .ok ⟨⟨2, vin, [sent], 0⟩, p2mrId, input, input :: inputs, selection.inputAmount,
          selection.inputAmount - sendAmount - 0, 0, false⟩

/-- `CreateP2MRSpend`. -/
def createP2MRSpend : Except SpendError P2MRSpendUnsigned :=
  if !isValidDestination context toDest then .error .invalidDestination
  else if sendAmount ≤ 0 then .error .sendAmountNotPositive
  else if fee < 0 then .error .feeNegative
  else
    match wallet.getP2MR context p2mrId with
    | none => .error .unknownId
    | some entry =>
        if !moneyRange sendAmount || !moneyRange fee || maxMoney - fee < sendAmount then
          .error .amountOutOfRange
        else
          wallet.spendSelected p2mrId toDest sendAmount (sendAmount + fee)
            (wallet.selectCoins entry.scriptPubKey (sendAmount + fee))

end CWallet

/-! ## The selection is a prefix of the coins -/

def coinValue (coin : COutPoint × Int64) : Int := coin.2.toInt

namespace WalletTxs

/-- Both loops in one: the coins are added until they reach the target. -/
def drawUntil (targetAmount : Int64) : List (COutPoint × Int64) → CoinSelection → CoinSelection
  | [], selection => selection
  | coin :: coins, selection =>
      if targetAmount ≤ selection.inputAmount + coin.2 then
        ⟨selection.selected ++ [coin], selection.inputAmount + coin.2⟩
      else
        drawUntil targetAmount coins
          ⟨selection.selected ++ [coin], selection.inputAmount + coin.2⟩

variable {wallet : WalletTxs} {script : Bytes} {targetAmount : Int64} {selection : CoinSelection}

theorem selectFrom_eq (txid : Uint256) (vout : List CTxOut) (n : Nat) :
    wallet.selectFrom script targetAmount txid vout n selection =
      drawUntil targetAmount (wallet.coinsFrom script txid vout n) selection := by
  induction vout generalizing n selection with
  | nil => rfl
  | cons txout vout ih =>
      unfold selectFrom coinsFrom
      split_ifs with other spent
      · exact ih (n + 1)
      · exact ih (n + 1)
      · rw [drawUntil, ← ih (n + 1)]

/-- Where the first coins are not enough, the others are drawn next. -/
theorem drawUntil_append (coins other : List (COutPoint × Int64))
    (short : ¬ targetAmount ≤ selection.inputAmount) :
    drawUntil targetAmount (coins ++ other) selection =
      if targetAmount ≤ (drawUntil targetAmount coins selection).inputAmount then
        drawUntil targetAmount coins selection
      else drawUntil targetAmount other (drawUntil targetAmount coins selection) := by
  induction coins generalizing selection with
  | nil => exact (if_neg short).symm
  | cons coin coins ih =>
      rw [List.cons_append, drawUntil, drawUntil]
      by_cases reached : targetAmount ≤ selection.inputAmount + coin.2
      · rw [if_pos reached, if_pos reached, if_pos reached]
      · rw [if_neg reached, if_neg reached]
        exact ih reached

theorem selectAll_eq (entries : List (Uint256 × CWalletTx))
    (short : ¬ targetAmount ≤ selection.inputAmount) :
    wallet.selectAll script targetAmount entries selection =
      drawUntil targetAmount (entries.flatMap (wallet.coinsOf script)) selection := by
  induction entries generalizing selection with
  | nil => rfl
  | cons entry entries ih =>
      obtain ⟨txid, wtx⟩ := entry
      rw [List.flatMap_cons, coinsOf, selectAll]
      cases wtx.tx with
      | none => exact ih short
      | some tx =>
          by_cases shallow : wallet.getTxDepthInMainChain wtx ≤ 0
          · simp only [if_pos shallow]
            exact ih short
          · simp only [if_neg shallow]
            rw [drawUntil_append _ _ short, ← selectFrom_eq]
            by_cases reached : targetAmount ≤
                (wallet.selectFrom script targetAmount txid tx.vout 0 selection).inputAmount
            · rw [if_pos reached, if_pos reached]
            · rw [if_neg reached, if_neg reached]
              exact ih reached

/-- Without overflow, the coins are drawn as long as their exact total is short. -/
theorem exists_drawn {coins : List (COutPoint × Int64)}
    (inRange : ∀ coin ∈ coins, moneyRange coin.2 = true)
    (nonneg : 0 ≤ selection.inputAmount.toInt)
    (short : selection.inputAmount.toInt < targetAmount.toInt)
    (bounded : targetAmount.toInt ≤ maxMoney.toInt) :
    ∃ chosen, (drawUntil targetAmount coins selection).selected = selection.selected ++ chosen ∧
      (drawUntil targetAmount coins selection).inputAmount.toInt =
        selection.inputAmount.toInt + total coinValue chosen ∧
      ReachingPrefix coinValue (targetAmount.toInt - selection.inputAmount.toInt) coins chosen := by
  induction coins generalizing selection with
  | nil => exact ⟨[], by simp [drawUntil], by simp [drawUntil], .nil⟩
  | cons coin coins ih =>
      have range := moneyRange_iff.mp (inRange coin List.mem_cons_self)
      rw [toInt_maxMoney] at bounded
      have exact_sum := @toInt_add_of_bounds selection.inputAmount coin.2 (by omega) (by omega)
      rw [drawUntil]
      by_cases reached : targetAmount ≤ selection.inputAmount + coin.2
      · rw [if_pos reached]
        rw [Int64.le_iff_toInt_le, exact_sum] at reached
        refine ⟨[coin], rfl, by simp [exact_sum, coinValue], .single ?_⟩
        rw [coinValue]
        omega
      · rw [if_neg reached]
        rw [Int64.le_iff_toInt_le, exact_sum] at reached
        obtain ⟨chosen, drawn, amount, reaching⟩ :=
          @ih ⟨selection.selected ++ [coin], selection.inputAmount + coin.2⟩
            (fun other member => inRange other (List.mem_cons_of_mem _ member))
            (by rw [exact_sum]; omega) (by rw [exact_sum]; omega)
        refine ⟨coin :: chosen, by simp [drawn], ?_, ?_⟩
        · rw [amount, exact_sum, total_cons, coinValue]
          omega
        · refine ReachingPrefix.cons ?_ ?_ reaching
          · rw [coinValue, exact_sum]
            omega
          · rw [coinValue]
            omega

theorem exists_selected (positive : 0 < targetAmount.toInt)
    (bounded : targetAmount.toInt ≤ maxMoney.toInt) :
    ∃ chosen, (wallet.selectCoins script targetAmount).selected = chosen ∧
      (wallet.selectCoins script targetAmount).inputAmount.toInt = total coinValue chosen ∧
      ReachingPrefix coinValue targetAmount.toInt (wallet.coins script) chosen := by
  have short : ¬ targetAmount ≤ (⟨[], 0⟩ : CoinSelection).inputAmount := by
    rw [Int64.le_iff_toInt_le]
    exact positive.not_ge
  rw [selectCoins, selectAll_eq _ short]
  obtain ⟨chosen, drawn, amount, reaching⟩ := @exists_drawn targetAmount ⟨[], 0⟩
    (wallet.coins script) (fun _ member => wallet.moneyRange_of_mem_coins member) le_rfl
    positive bounded
  refine ⟨chosen, drawn, ?_, ?_⟩
  · exact amount.trans (zero_add _)
  · rw [show (0 : Int64).toInt = 0 from rfl, sub_zero] at reaching
    exact reaching

end WalletTxs

/-! ## What a spend draws and pays -/

namespace CWallet

variable {context} (wallet : CWallet) (script : Bytes) {p2mrId : List Char}
  {toDest : CTxDestination} {sendAmount targetAmount fee : Int64} {selection : CoinSelection}
  {chosen : List (COutPoint × Int64)}

/-- A spend of some coins pays the amount and a change above the dust threshold, and
leaves the rest. -/
structure Balances (wallet : CWallet) (selection : CoinSelection) (sendAmount targetAmount : Int64)
    (spend : P2MRSpendUnsigned) : Prop where
  inputs_eq : spend.inputs = selection.selected.map Prod.fst
  spends : spend.tx.vin.map CTxIn.prevout = spend.inputs
  pays : spend.tx.vout.map CTxOut.nValue =
    sendAmount :: if spend.hasChange then [spend.changeAmount] else []
  inputAmount_eq : spend.inputAmount = selection.inputAmount
  effectiveFee_eq : spend.effectiveFee = selection.inputAmount - sendAmount - spend.changeAmount
  change_cases : let change := selection.inputAmount - targetAmount
    (change ≤ 546 ∧ spend.changeAmount = 0 ∧ spend.hasChange = false) ∨
      (546 < change ∧ spend.changeAmount = change ∧ spend.hasChange = true ∧
        ∃ dest, wallet.getNewChangeDestination = .ok dest)

theorem map_prevout_ofPrevout (inputs : List COutPoint) :
    (inputs.map CTxIn.ofPrevout).map CTxIn.prevout = inputs := by
  rw [List.map_map]
  exact List.map_id inputs

/-- With enough coins, only a change destination may be missing. -/
theorem spendSelected_of_covered (drawn : selection.selected ≠ [])
    (covered : 0 ≤ (selection.inputAmount - targetAmount)) :
    (∃ spend, wallet.spendSelected p2mrId toDest sendAmount targetAmount selection = .ok spend ∧
      Balances wallet selection sendAmount targetAmount spend) ∨
    (546 < selection.inputAmount - targetAmount ∧
      ∃ error, wallet.getNewChangeDestination = .error error ∧
        wallet.spendSelected p2mrId toDest sendAmount targetAmount selection =
          .error (.noChangeDestination error)) := by
  unfold spendSelected
  cases inputs : selection.selected.map Prod.fst with
  | nil => exact absurd (List.map_eq_nil_iff.mp inputs) drawn
  | cons input rest =>
      simp only [if_neg (Int64.not_lt.mpr covered)]
      by_cases worth : defaultP2mrDustThreshold < selection.inputAmount - targetAmount
      · rw [if_pos worth]
        cases dest : wallet.getNewChangeDestination with
        | error error => exact Or.inr ⟨worth, error, rfl, rfl⟩
        | ok changeDest =>
            refine Or.inl ⟨_, rfl, inputs.symm, map_prevout_ofPrevout _, rfl, rfl, rfl, ?_⟩
            exact Or.inr ⟨worth, rfl, rfl, changeDest, dest⟩
      · rw [if_neg worth]
        refine Or.inl ⟨_, rfl, inputs.symm, map_prevout_ofPrevout _, rfl, rfl, rfl, ?_⟩
        exact Or.inl ⟨Int64.not_lt.mp worth, rfl, rfl⟩

/-- Without enough coins there is no spend. -/
theorem spendSelected_of_short (short : selection.inputAmount - targetAmount < 0) :
    ∃ error, wallet.spendSelected p2mrId toDest sendAmount targetAmount selection =
      .error error := by
  unfold spendSelected
  cases selection.selected.map Prod.fst with
  | nil => exact ⟨_, rfl⟩
  | cons input rest => exact ⟨_, if_pos short⟩

/-- The checks before the selection pass. -/
structure Requests (context : SpendContext) (wallet : CWallet) (p2mrId : List Char)
    (toDest : CTxDestination) (sendAmount fee : Int64) (entry : P2MREntry) : Prop where
  valid : isValidDestination context toDest = true
  positive : 0 < sendAmount.toInt
  fee_nonneg : 0 ≤ fee.toInt
  known : wallet.getP2MR context p2mrId = some entry
  bounded : sendAmount.toInt + fee.toInt ≤ maxMoney.toInt

theorem createP2MRSpend_of_requests {entry : P2MREntry}
    (requests : Requests context wallet p2mrId toDest sendAmount fee entry) :
    wallet.createP2MRSpend context p2mrId toDest sendAmount fee =
      wallet.spendSelected p2mrId toDest sendAmount (sendAmount + fee)
        (wallet.selectCoins entry.scriptPubKey (sendAmount + fee)) := by
  obtain ⟨valid, positive, fee_nonneg, known, bounded⟩ := requests
  have bounded' := bounded
  rw [toInt_maxMoney] at bounded'
  have sendRange : moneyRange sendAmount = true := moneyRange_iff.mpr (by omega)
  have feeRange : moneyRange fee = true := moneyRange_iff.mpr (by omega)
  have difference := @toInt_sub_of_bounds maxMoney fee (by rw [toInt_maxMoney]; omega)
    (by rw [toInt_maxMoney]; omega)
  rw [createP2MRSpend, if_neg (by simp [valid]), if_neg, if_neg, known]
  · simp only [sendRange, feeRange]
    apply if_neg
    rw [Bool.not_true, Bool.false_or, Bool.false_or, decide_eq_true_iff, Int64.lt_iff_toInt_lt,
      difference]
    omega
  · rw [Int64.lt_iff_toInt_lt]
    exact fee_nonneg.not_gt
  · rw [Int64.le_iff_toInt_le]
    exact positive.not_ge

/-- A request that fails a check is refused, and not for lack of funds. -/
theorem requests_or_refused :
    (∃ entry, Requests context wallet p2mrId toDest sendAmount fee entry) ∨
      ∃ error, wallet.createP2MRSpend context p2mrId toDest sendAmount fee = .error error ∧
        error ≠ .noSpendableUtxo ∧ error ≠ .insufficientUtxoAmount := by
  unfold createP2MRSpend
  split_ifs with invalid nonpositive negative outside
  · exact Or.inr ⟨_, rfl, by simp, by simp⟩
  · exact Or.inr ⟨_, rfl, by simp, by simp⟩
  · exact Or.inr ⟨_, rfl, by simp, by simp⟩
  · cases wallet.getP2MR context p2mrId with
    | none => exact Or.inr ⟨_, rfl, by simp, by simp⟩
    | some entry => exact Or.inr ⟨_, rfl, by simp, by simp⟩
  · cases known : wallet.getP2MR context p2mrId with
    | none => exact Or.inr ⟨_, rfl, by simp, by simp⟩
    | some entry =>
        simp only [Bool.not_eq_true, Bool.or_eq_false_iff, Bool.not_eq_false',
          decide_eq_false_iff_not] at outside
        obtain ⟨⟨sendRange, feeRange⟩, bounded⟩ := outside
        have sendBounds := moneyRange_iff.mp sendRange
        have feeBounds := moneyRange_iff.mp feeRange
        have difference := @toInt_sub_of_bounds maxMoney fee (by rw [toInt_maxMoney]; omega)
          (by rw [toInt_maxMoney]; omega)
        rw [Int64.lt_iff_toInt_lt, difference] at bounded
        rw [Int64.le_iff_toInt_le] at nonpositive
        exact Or.inl ⟨entry, by simpa using invalid, not_le.mp nonpositive, feeBounds.1, known,
          by omega⟩

end CWallet

end QuantyCoin
