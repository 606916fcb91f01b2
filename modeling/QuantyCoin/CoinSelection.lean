import QuantyCoin.GreedySelection
import QuantyCoin.WalletPayments

/-!
# Coin selection

`build_transaction` selects the largest outputs first.  What it builds spends as few
outputs as possible, and the value of its inputs is the amount, the change and a fee
that exceeds the one asked for by at most the dust threshold.
-/

namespace QuantyCoin

open ByteDecoder GreedySelection StateTriples

namespace Transaction

/-- A witness leaves the outpoints as they are. -/
theorem outpoints_setWitness (tx : Transaction) (inputIndex : Nat) (witness : List Bytes) :
    (tx.setWitness inputIndex witness).vin.map TxIn.outpoint = tx.vin.map TxIn.outpoint := by
  apply List.ext_getElem?
  intro index
  rw [setWitness, List.getElem?_map, List.getElem?_map, List.getElem?_modify]
  cases tx.vin[index]? with
  | none => rfl
  | some inp => split_ifs <;> rfl

end Transaction

namespace HDWallet

/-! ## Selection -/

/-- The value of an output, as the weight it has in a selection. -/
def Utxo.weight (utxo : Utxo) : Int := utxo.valueSat

theorem Utxo.weight_nonneg (utxo : Utxo) : 0 ≤ utxo.weight := Int.natCast_nonneg _

theorem totalValue_eq_total (utxos : List Utxo) : totalValue utxos = total Utxo.weight utxos := rfl

theorem accumulate_reachingPrefix (requiredTotal : Int) (utxos : List Utxo) (accumulated : Int) :
    ReachingPrefix Utxo.weight (requiredTotal - accumulated) utxos
      (accumulate requiredTotal utxos accumulated) := by
  induction utxos generalizing accumulated with
  | nil => exact .nil
  | cons utxo utxos ih =>
      rw [accumulate]
      split_ifs with reached
      · apply ReachingPrefix.single
        rw [Utxo.weight]
        omega
      · apply ReachingPrefix.cons _ _ (ih (accumulated + utxo.valueSat))
        · rw [Utxo.weight]
          omega
        · rw [Utxo.weight]
          omega

namespace Payment

variable (payment : Payment)

theorem sortedUtxos_perm : payment.sortedUtxos.Perm payment.availableUtxos :=
  List.perm_insertionSort _ _

theorem sortedUtxos_pairwise :
    payment.sortedUtxos.Pairwise fun first second => second.weight ≤ first.weight := by
  have total : Std.Total fun first second : Utxo => first.valueSat ≥ second.valueSat :=
    ⟨fun first second => Nat.le_total second.valueSat first.valueSat⟩
  have trans : IsTrans Utxo fun first second => first.valueSat ≥ second.valueSat :=
    ⟨fun _ _ _ first second => Nat.le_trans second first⟩
  apply (List.pairwise_insertionSort _ payment.availableUtxos).imp
  intro first second above
  exact Int.ofNat_le.mpr above

theorem selectedUtxos_reachingPrefix :
    ReachingPrefix Utxo.weight payment.requiredTotal payment.sortedUtxos payment.selectedUtxos := by
  have selected := accumulate_reachingPrefix payment.requiredTotal payment.sortedUtxos 0
  rwa [Int.sub_zero] at selected

theorem totalValue_sortedUtxos :
    totalValue payment.sortedUtxos = totalValue payment.availableUtxos :=
  total_perm payment.sortedUtxos_perm

theorem selectedUtxos_subperm : payment.selectedUtxos.Subperm payment.availableUtxos :=
  payment.selectedUtxos_reachingPrefix.isPrefix.sublist.subperm.trans
    payment.sortedUtxos_perm.subperm

theorem accumulatedSat_le : payment.accumulatedSat ≤ totalValue payment.availableUtxos := by
  rw [← payment.totalValue_sortedUtxos]
  exact payment.selectedUtxos_reachingPrefix.total_le fun utxo _ => utxo.weight_nonneg

/-- The funds are insufficient exactly if all outputs together are. -/
theorem requiredTotal_le_accumulatedSat_iff :
    payment.requiredTotal ≤ payment.accumulatedSat ↔
      payment.requiredTotal ≤ totalValue payment.availableUtxos := by
  constructor
  · exact fun enough => enough.trans payment.accumulatedSat_le
  · intro enough
    apply payment.selectedUtxos_reachingPrefix.total_reached
    rwa [← totalValue_eq_total, payment.totalValue_sortedUtxos]

/-- No smaller number of outputs is enough. -/
theorem selectedUtxos_fewest (positive : 0 < payment.requiredTotal) {other : List Utxo}
    (available : other.Subperm payment.availableUtxos)
    (enough : payment.requiredTotal ≤ totalValue other) :
    payment.selectedUtxos.length ≤ other.length := by
  apply payment.selectedUtxos_reachingPrefix.length_le payment.sortedUtxos_pairwise positive _
    enough
  exact available.trans payment.sortedUtxos_perm.symm.subperm

end Payment

/-! ## Transactions -/

section

variable {env : WalletEnvironment} {payment : Payment} {wallet wallet' : HDWallet}

/-- The transactions have the same outputs and spend the same outpoints. -/
def SameSpend (tx signed : Transaction) : Prop :=
  signed.vout = tx.vout ∧ signed.vin.map TxIn.outpoint = tx.vin.map TxIn.outpoint

theorem SameSpend.trans {tx signed last : Transaction} (first : SameSpend tx signed)
    (second : SameSpend signed last) : SameSpend tx last :=
  ⟨second.1.trans first.1, second.2.trans first.2⟩

theorem signInputs_sameSpend (utxos : List Utxo) (inputIndex : Nat) (tx : Transaction) :
    Triple (fun _ => True) (signInputs env utxos inputIndex tx)
      (fun signed _ => SameSpend tx signed) (fun _ => True) := by
  induction utxos generalizing inputIndex tx with
  | nil => exact .pure fun _ _ => ⟨rfl, rfl⟩
  | cons utxo utxos ih =>
      apply Triple.bind .trivial
      intro prevScript
      apply Triple.bind .trivial
      intro keys
      have signs : Triple (fun _ => True)
          (reading fun _ => InputSigning.sign env.signers env.prim
            ⟨keys, prevScript, utxo.valueSat⟩ tx inputIndex)
          (fun signed _ => SameSpend tx signed) (fun _ : HDWallet => True) := by
        apply Triple.reading fun _ _ => True.intro
        intro _ signed _ signs
        obtain ⟨witness, rfl⟩ := InputSigning.sign_eq_ok signs
        exact ⟨rfl, tx.outpoints_setWitness inputIndex witness⟩
      apply signs.bind
      intro signed
      apply Triple.of_fact
      intro same
      exact (ih (inputIndex + 1) signed).weaken (fun _ _ => True.intro) fun _ _ last =>
        same.trans last

/-- An output for an amount that is positive and not too much. -/
theorem new_toNat {amount : Int} (positive : 0 < amount) (within : amount ≤ maxMoneySatoshis)
    (script : Bytes) : ∃ out : TxOut, TxOut.new amount.toNat script = .ok out ∧
      (out.value : Int) = amount ∧ out.scriptPubkey = script := by
  have inRange : amount.toNat ≤ maxMoneySatoshis := by omega
  exact ⟨⟨amount.toNat, script, inRange⟩, dif_pos inRange, Int.toNat_of_nonneg positive.le, rfl⟩

/-- The change has an output of its own, or it is left to the fee. -/
theorem changeOutput_eq_ok {change : List TxOut} (within : payment.changeSat ≤ maxMoneySatoshis)
    (made : changeOutput env payment.changeSat payment.changeAddress wallet = .ok change wallet') :
    (payment.changeSat ≤ 1000 ∧ change = []) ∨
      ∃ out address, 1000 < payment.changeSat ∧ change = [out] ∧
        (out.value : Int) = payment.changeSat ∧
        changeAddressOr env payment.changeAddress wallet = .ok address wallet' ∧
        out.scriptPubkey = addressToScriptpubkey env.prim address := by
  unfold changeOutput at made
  split_ifs at made with worth
  · right
    obtain ⟨address, middle, given, rest⟩ := bind_eq_ok.mp made
    obtain ⟨out, last, written, returned⟩ := bind_eq_ok.mp rest
    obtain ⟨new, rfl⟩ := reading_eq_ok.mp written
    obtain ⟨out', new', value, script⟩ :=
      new_toNat (by omega) within (addressToScriptpubkey env.prim address)
    cases new.symm.trans new'
    cases returned
    exact ⟨out, address, worth, rfl, value, given, script⟩
  · left
    cases made
    exact ⟨by omega, rfl⟩

theorem changeOutput_eq_error {error : PyException}
    (within : payment.changeSat ≤ maxMoneySatoshis)
    (raised : changeOutput env payment.changeSat payment.changeAddress wallet =
      .error error wallet') :
    1000 < payment.changeSat ∧
      changeAddressOr env payment.changeAddress wallet = .error error wallet' := by
  unfold changeOutput at raised
  split_ifs at raised with worth
  · rcases bind_eq_error.mp raised with early | ⟨address, middle, given, rest⟩
    · exact ⟨worth, early⟩
    · exfalso
      obtain ⟨out, new, -⟩ :=
        new_toNat (by omega) within (addressToScriptpubkey env.prim address)
      rcases bind_eq_error.mp rest with early | ⟨out', last, written, returned⟩
      · rw [(reading_eq_error.mp early).1] at new
        cases new
      · cases returned
  · cases raised

/-- With enough funds, only the change address and the signatures are left. -/
theorem buildTransaction_of_enough (positive : 0 < payment.amountSat)
    (within : payment.amountSat ≤ maxMoneySatoshis)
    (enough : payment.requiredTotal ≤ totalValue payment.availableUtxos) :
    ∃ out : TxOut, buildTransaction env payment wallet =
      (changeOutput env payment.changeSat payment.changeAddress >>= fun change =>
        signInputs env payment.selectedUtxos 0
          ⟨1, payment.selectedUtxos.map Utxo.input, out :: change, 0⟩) wallet := by
  obtain ⟨out, new, -⟩ :=
    new_toNat positive within (addressToScriptpubkey env.prim payment.destinationAddress)
  refine ⟨out, ?_⟩
  have reached := payment.requiredTotal_le_accumulatedSat_iff.mpr enough
  rw [buildTransaction, if_neg (by omega), if_neg (by omega), new]
  rfl

/-- What `build_transaction` has done when it returns. -/
structure Built (env : WalletEnvironment) (payment : Payment) (wallet : HDWallet)
    (tx : Transaction) (change : List TxOut) (middle : HDWallet) : Prop where
  enough : payment.requiredTotal ≤ payment.accumulatedSat
  spends : tx.vin.map TxIn.outpoint = payment.selectedUtxos.map Utxo.outpoint
  pays : ∃ out, tx.vout = out :: change ∧ (out.value : Int) = payment.amountSat ∧
    out.scriptPubkey = addressToScriptpubkey env.prim payment.destinationAddress
  made : changeOutput env payment.changeSat payment.changeAddress wallet = .ok change middle

theorem built_of_buildTransaction {tx : Transaction}
    (returned : buildTransaction env payment wallet = .ok tx wallet') :
    ∃ change middle, Built env payment wallet tx change middle := by
  unfold buildTransaction at returned
  split_ifs at returned with nonpositive short
  · cases returned
  · cases returned
  · obtain ⟨out, start, written, rest⟩ := bind_eq_ok.mp returned
    obtain ⟨new, rfl⟩ := reading_eq_ok.mp written
    obtain ⟨change, middle, made, signed⟩ := bind_eq_ok.mp rest
    obtain ⟨outputs, outpoints⟩ := (signInputs_sameSpend _ _ _).of_ok True.intro signed
    unfold TxOut.new at new
    split_ifs at new
    cases new
    refine ⟨change, middle, by omega, ?_, ⟨_, outputs, Int.toNat_of_nonneg (by omega), rfl⟩, made⟩
    rw [outpoints, List.map_map]
    rfl

/-! ## What a payment spends and pays -/

/-- A transaction spends some of the available outputs for a payment, no more of them
than any that are enough.  It pays the amount and a change above the dust threshold, and
leaves the fee and at most the threshold. -/
structure Settles (env : WalletEnvironment) (payment : Payment) (wallet : HDWallet)
    (tx : Transaction) (spent : List Utxo) (change : List TxOut) : Prop where
  spends : tx.vin.map TxIn.outpoint = spent.map Utxo.outpoint
  available : spent.Subperm payment.availableUtxos
  distinct : (tx.vin.map TxIn.outpoint).Nodup
  pays : ∃ out, tx.vout = out :: change ∧ (out.value : Int) = payment.amountSat ∧
    out.scriptPubkey = addressToScriptpubkey env.prim payment.destinationAddress
  change_eq : change = [] ∨ ∃ out address wallet', change = [out] ∧ 1000 < out.value ∧
    changeAddressOr env payment.changeAddress wallet = .ok address wallet' ∧
    out.scriptPubkey = addressToScriptpubkey env.prim address
  fee : ∃ actualFee, payment.feeSat ≤ actualFee ∧ actualFee ≤ payment.feeSat + 1000 ∧
    totalValue spent =
      payment.amountSat + ((change.map TxOut.value).sum : Nat) + actualFee
  fewest : ∀ other : List Utxo, other.Subperm payment.availableUtxos →
    payment.amountSat + payment.feeSat ≤ totalValue other → spent.length ≤ other.length

/-- The change address could not be derived, or an input could not be signed. -/
inductive FailsToSign (env : WalletEnvironment) (payment : Payment) (wallet : HDWallet)
    (error : PyException) (wallet' : HDWallet) : Prop
  | changeAddress (worth : 1000 < payment.changeSat)
      (raised : changeAddressOr env payment.changeAddress wallet = .error error wallet')
  | signing {out : TxOut} {change : List TxOut} {middle : HDWallet}
      (made : changeOutput env payment.changeSat payment.changeAddress wallet = .ok change middle)
      (raised : signInputs env payment.selectedUtxos 0
        ⟨1, payment.selectedUtxos.map Utxo.input, out :: change, 0⟩ middle = .error error wallet')

theorem settles_of_built {tx : Transaction} {change : List TxOut} {middle : HDWallet}
    (distinct : (payment.availableUtxos.map Utxo.outpoint).Nodup)
    (positive : 0 < payment.amountSat) (feeNonneg : 0 ≤ payment.feeSat)
    (within : totalValue payment.availableUtxos ≤ maxMoneySatoshis)
    (built : Built env payment wallet tx change middle) :
    Settles env payment wallet tx payment.selectedUtxos change := by
  obtain ⟨enough, spends, pays, made⟩ := built
  have reached : payment.amountSat + payment.feeSat ≤ payment.accumulatedSat := enough
  have bounded := payment.accumulatedSat_le
  have split : payment.changeSat =
      payment.accumulatedSat - (payment.amountSat + payment.feeSat) := rfl
  have changeWithin : payment.changeSat ≤ maxMoneySatoshis := by omega
  have changeCases := changeOutput_eq_ok changeWithin made
  have available := payment.selectedUtxos_subperm
  refine ⟨spends, available, ?_, pays, ?_, ?_, ?_⟩
  · rw [spends]
    obtain ⟨chosen, same, sublist⟩ := available
    exact (same.map Utxo.outpoint).nodup_iff.mp (distinct.sublist (sublist.map Utxo.outpoint))
  · rcases changeCases with ⟨-, rfl⟩ | ⟨out, address, worth, rfl, value, given, script⟩
    · exact Or.inl rfl
    · exact Or.inr ⟨out, address, middle, rfl, by omega, given, script⟩
  · change ∃ actualFee, _ ∧ _ ∧ payment.accumulatedSat = _
    rcases changeCases with ⟨small, rfl⟩ | ⟨out, address, worth, rfl, value, -⟩
    · exact ⟨payment.feeSat + payment.changeSat, by omega, by omega, by simp; omega⟩
    · exact ⟨payment.feeSat, le_rfl, by omega, by simp; omega⟩
  · intro other fromAvailable otherEnough
    apply payment.selectedUtxos_fewest _ fromAvailable otherEnough
    rw [Payment.requiredTotal]
    omega

theorem failsToSign_of_raised {error : PyException} (positive : 0 < payment.amountSat)
    (feeNonneg : 0 ≤ payment.feeSat)
    (within : totalValue payment.availableUtxos ≤ maxMoneySatoshis)
    (enough : payment.amountSat + payment.feeSat ≤ totalValue payment.availableUtxos)
    (raised : buildTransaction env payment wallet = .error error wallet') :
    FailsToSign env payment wallet error wallet' := by
  have bounded := payment.accumulatedSat_le
  have split : payment.changeSat =
      payment.accumulatedSat - (payment.amountSat + payment.feeSat) := rfl
  obtain ⟨out, equation⟩ :=
    @buildTransaction_of_enough env payment wallet positive (by omega) enough
  rw [equation] at raised
  rcases bind_eq_error.mp raised with noChange | ⟨change, middle, made, notSigned⟩
  · obtain ⟨worth, noAddress⟩ := changeOutput_eq_error (by omega) noChange
    exact .changeAddress worth noAddress
  · exact .signing made notSigned

/-- `build_transaction` raises for insufficient funds exactly if all outputs together do
not cover the amount and the fee.  Otherwise it fails only where the change address or a
signature does, and else settles the payment. -/
theorem buildTransaction_settles (env : WalletEnvironment) (payment : Payment)
    (wallet : HDWallet) (distinct : (payment.availableUtxos.map Utxo.outpoint).Nodup)
    (positive : 0 < payment.amountSat) (feeNonneg : 0 ≤ payment.feeSat)
    (within : totalValue payment.availableUtxos ≤ maxMoneySatoshis) :
    (totalValue payment.availableUtxos < payment.amountSat + payment.feeSat →
      buildTransaction env payment wallet = .error payment.insufficientFunds wallet) ∧
    (payment.amountSat + payment.feeSat ≤ totalValue payment.availableUtxos →
      match buildTransaction env payment wallet with
      | .ok tx _ => ∃ spent change, Settles env payment wallet tx spent change
      | .error error wallet' => FailsToSign env payment wallet error wallet') := by
  constructor
  · intro short
    have missed : ¬ payment.requiredTotal ≤ payment.accumulatedSat :=
      mt payment.requiredTotal_le_accumulatedSat_iff.mp (Int.not_le.mpr short)
    rw [buildTransaction, if_neg (by omega), if_pos (by omega)]
    rfl
  · intro enough
    split
    · rename_i tx wallet' returned
      obtain ⟨change, middle, built⟩ := built_of_buildTransaction returned
      exact ⟨_, change, settles_of_built distinct positive feeNonneg within built⟩
    · rename_i error wallet' raised
      exact failsToSign_of_raised positive feeNonneg within enough raised

end

/-- The key that every seed gives. -/
def sampleMldsaKey : MLDSAKey := ⟨List.replicate publicKeyBytes 0, []⟩

def sampleEnvironment : WalletEnvironment where
  prim := signerPrimitives
  signers := sampleSigners
  hmacSha512 _ _ := List.replicate 64 1
  pbkdf2Hmac _ _ _ length := List.replicate length 0
  mldsaFromSeed _ := .ok sampleMldsaKey

/-- A wallet that has derived a single ML-DSA key. -/
def mldsaWallet : HDWallet where
  root := ⟨[], 0, ⟨[], [], 0, 0, [], true⟩⟩
  receivingKeys := []
  changeKeys := []
  pqKeys := [(0, sampleMldsaKey)]
  pqAddresses := []
  hybridAddresses := []

/-- An output to the key of the wallet. -/
def mldsaUtxo (vout : UInt32) (valueSat : Nat) : Utxo where
  txid := List.replicate 32 0x07
  vout := vout
  valueSat := valueSat
  scriptPubKey := some ([0x51, 0x20] ++ leBytes 32 1)
  address := none

/-- The two largest of three outputs are enough. -/
def threeOutputs : Payment where
  destinationAddress := keyHashAddress
  amountSat := 10000
  availableUtxos := [mldsaUtxo 0 5000, mldsaUtxo 1 3000, mldsaUtxo 2 9000]
  feeSat := 1000
  changeAddress := some keyHashAddress

theorem threeOutputs_settled : ∃ tx wallet' spent change,
    buildTransaction sampleEnvironment threeOutputs mldsaWallet = .ok tx wallet' ∧
      Settles sampleEnvironment threeOutputs mldsaWallet tx spent change := by
  have returned :
      hasReturned (buildTransaction sampleEnvironment threeOutputs mldsaWallet) = true := by
    decide
  obtain ⟨tx, wallet', built⟩ := exists_of_hasReturned returned
  have settled := (buildTransaction_settles sampleEnvironment threeOutputs mldsaWallet (by decide)
    (by decide) (by decide) (by decide)).2 (by decide)
  rw [built] at settled
  obtain ⟨spent, change, settles⟩ := settled
  exact ⟨tx, wallet', spent, change, built, settles⟩

end HDWallet

end QuantyCoin
