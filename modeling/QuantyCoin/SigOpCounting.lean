import Mathlib.Algebra.Order.BigOperators.Group.List
import Mathlib.Data.UInt
import QuantyCoin.PolicyScripts

/-!
# Counting signature operations

`CScript::GetSigOpCount` of `script/script.cpp`, `CountWitnessSigOps` of
`script/interpreter.cpp` and the counts of `consensus/tx_verify.cpp`, which are taken in 32
bits: exact for transactions of ordinary size, but not for all that fit in a block.
-/

namespace QuantyCoin

open ByteDecoder

/-! ## The exact count of a script -/

/-- What the operations of a script cost, each with the operation before it. -/
def opsCost (cost : (lastOpcode opcode : UInt8) → Nat) (lastOpcode : UInt8) (script : Bytes) :
    Nat :=
  match _found : getScriptOp script with
  | none => 0
  | some (opcode, _, rest) => cost lastOpcode opcode + opsCost cost opcode rest
termination_by script.length
decreasing_by exact getScriptOp_shorter ‹_›

section OpsCost

variable {cost cost' : (lastOpcode opcode : UInt8) → Nat}

theorem opsCost_of_none {script : Bytes} (ended : getScriptOp script = none) (lastOpcode : UInt8) :
    opsCost cost lastOpcode script = 0 := by
  rw [opsCost]
  split
  · rfl
  · rename_i found
    rw [ended] at found
    cases found

theorem opsCost_of_some {script data rest : Bytes} {opcode : UInt8}
    (found : getScriptOp script = some (opcode, data, rest)) (lastOpcode : UInt8) :
    opsCost cost lastOpcode script = cost lastOpcode opcode + opsCost cost opcode rest := by
  rw [opsCost]
  split
  · rename_i ended
    rw [ended] at found
    cases found
  · rename_i found'
    rw [found'] at found
    cases found
    rfl

theorem opsCost_mono (le : ∀ lastOpcode opcode, cost lastOpcode opcode ≤ cost' lastOpcode opcode)
    (lastOpcode : UInt8) (script : Bytes) :
    opsCost cost lastOpcode script ≤ opsCost cost' lastOpcode script := by
  induction script using script_induction generalizing lastOpcode with
  | ends script ended => rw [opsCost_of_none ended, opsCost_of_none ended]
  | operation script opcode data rest found ih =>
      rw [opsCost_of_some found, opsCost_of_some found]
      exact Nat.add_le_add (le lastOpcode opcode) (ih opcode)

/-- A bound for one operation bounds a script by its length. -/
theorem opsCost_le {bound : Nat} (le : ∀ lastOpcode opcode, cost lastOpcode opcode ≤ bound)
    (lastOpcode : UInt8) (script : Bytes) :
    opsCost cost lastOpcode script ≤ bound * script.length := by
  induction script using script_induction generalizing lastOpcode with
  | ends script ended =>
      rw [opsCost_of_none ended]
      exact Nat.zero_le _
  | operation script opcode data rest found ih =>
      rw [opsCost_of_some found]
      calc
        cost lastOpcode opcode + opsCost cost opcode rest ≤ bound + bound * rest.length :=
          Nat.add_le_add (le lastOpcode opcode) (ih opcode)
        _ = bound * (rest.length + 1) := by ring
        _ ≤ bound * script.length := Nat.mul_le_mul_left bound (getScriptOp_shorter found)

end OpsCost

/-- What an operation adds to the count. -/
def countedSigOps (accurate : Bool) (lastOpcode opcode : UInt8) : Nat :=
  (sigOps accurate lastOpcode opcode).toNat

/-- The signature operations of a script, as `CScript::GetSigOpCount` counts them without its
limit of 32 bits. -/
def sigOpTotal (accurate : Bool) (script : Bytes) : Nat :=
  opsCost (countedSigOps accurate) opInvalidopcode script

theorem countedKeys_false (lastOpcode : UInt8) : countedKeys false lastOpcode = 20 := by
  simp [countedKeys, maxPubkeysPerMultisig]

theorem countedKeys_le (accurate : Bool) (lastOpcode : UInt8) :
    countedKeys accurate lastOpcode ≤ countedKeys false lastOpcode := by
  have all : ∀ n : Fin 256, countedKeys accurate (UInt8.ofNat n.1) ≤
      countedKeys false (UInt8.ofNat n.1) := by
    cases accurate <;> decide +kernel
  simpa using all ⟨lastOpcode.toNat, lastOpcode.toNat_lt⟩

/-- An operation is counted accurately with no more than it is counted otherwise, and never
with more than 20 keys of Dilithium. -/
theorem sigOps_le (lastOpcode opcode : UInt8) :
    (sigOps true lastOpcode opcode).toNat ≤ (sigOps false lastOpcode opcode).toNat ∧
      (sigOps false lastOpcode opcode).toNat ≤ 1000 := by
  have keys : (countedKeys true lastOpcode).toNat ≤ 20 := countedKeys_le true lastOpcode
  simp only [sigOps, countedKeys_false]
  split_ifs
  · decide
  · decide
  · exact ⟨keys, by decide⟩
  · constructor
    · rw [UInt32.toNat_mul]
      refine (Nat.mod_le _ _).trans ?_
      exact Nat.mul_le_mul_right 50 keys
    · decide
  · decide

theorem sigOpTotal_le (script : Bytes) :
    sigOpTotal true script ≤ sigOpTotal false script ∧
      sigOpTotal false script ≤ 1000 * script.length :=
  ⟨opsCost_mono (fun _ _ => (sigOps_le _ _).1) _ script,
    opsCost_le (fun _ _ => (sigOps_le _ _).2) _ script⟩

theorem sigOpCountFrom_eq (accurate : Bool) (lastOpcode : UInt8) (n : UInt32) (script : Bytes) :
    sigOpCountFrom accurate lastOpcode n script =
      n + UInt32.ofNat (opsCost (countedSigOps accurate) lastOpcode script) := by
  induction script using script_induction generalizing lastOpcode n with
  | ends script ended =>
      rw [sigOpCountFrom, opsCost_of_none ended]
      split
      · exact (UInt32.add_zero n).symm
      · rename_i found
        rw [ended] at found
        cases found
  | operation script opcode data rest found ih =>
      rw [sigOpCountFrom_of_getScriptOp found, ih, opsCost_of_some found, UInt32.ofNat_add,
        countedSigOps, UInt32.ofNat_toNat, UInt32.add_assoc]

/-- The count is the exact one in 32 bits. -/
theorem getSigOpCount_eq (accurate : Bool) (script : Bytes) :
    getSigOpCount accurate script = UInt32.ofNat (sigOpTotal accurate script) := by
  rw [getSigOpCount, sigOpCountFrom_eq, UInt32.zero_add, sigOpTotal]

/-- A script that is too short for the count to overflow. -/
theorem getSigOpCount_toNat (accurate : Bool) {script : Bytes} (short : script.length ≤ 4294967) :
    (getSigOpCount accurate script).toNat = sigOpTotal accurate script := by
  obtain ⟨accurately, bounded⟩ := sigOpTotal_le script
  rw [getSigOpCount_eq]
  refine UInt32.toNat_ofNat_of_lt' ?_
  have small : 2 ^ 32 = 4294967296 := by norm_num
  cases accurate <;> simp only [UInt32.size] <;> omega

/-! ## The data that a script pushes last -/

/-- The loops over `scriptSig`: the data of its last operation, if all of them parse and push. -/
def lastPush (data script : Bytes) : Option Bytes :=
  match script with
  | [] => some data
  | opcode :: rest =>
      match _found : getScriptOp (opcode :: rest) with
      | none => none
      | some (opcode, data, rest) => if op16 < opcode then none else lastPush data rest
termination_by script.length
decreasing_by exact getScriptOp_shorter ‹_›

theorem lastPush_of_some {script data vData rest : Bytes} {opcode : UInt8}
    (found : getScriptOp script = some (opcode, vData, rest)) :
    lastPush data script = if op16 < opcode then none else lastPush vData rest := by
  cases script with
  | nil => cases found
  | cons first tail =>
      rw [lastPush]
      split
      · rename_i ended
        rw [ended] at found
        cases found
      · rename_i found'
        rw [found'] at found
        cases found
        rfl

theorem lastPush_of_none {script data : Bytes} (ended : getScriptOp script = none) :
    lastPush data script = if script = [] then some data else none := by
  cases script with
  | nil => rw [lastPush, if_pos rfl]
  | cons first tail =>
      rw [lastPush, if_neg (List.cons_ne_nil first tail)]
      split
      · rfl
      · rename_i found
        rw [ended] at found
        cases found

/-- `CScript::GetSigOpCount(scriptSig)`. -/
def getScriptSigOpCount (scriptPubKey scriptSig : Bytes) : UInt32 :=
  if !isPayToScriptHash scriptPubKey then getSigOpCount true scriptPubKey
  else
    match lastPush [] scriptSig with
    | none => 0
    | some data => getSigOpCount true data

/-- `WitnessSigOps` for a script that is a witness program. -/
def programSigOps (script : Bytes) (witness : List Bytes) (flags : UInt32) : UInt32 :=
  match isWitnessProgram script with
  | none => 0
  | some (version, program) => witnessSigOps version program witness flags

/-- `CountWitnessSigOps`, which asserts `SCRIPT_VERIFY_P2SH`. -/
def countWitnessSigOps (scriptSig scriptPubKey : Bytes) (witness : List Bytes)
    (flags : UInt32) : Option UInt32 :=
  if !hasFlag flags scriptVerifyWitness then some 0
  else if !hasFlag flags scriptVerifyP2sh then none
  else if (isWitnessProgram scriptPubKey).isSome then
    some (programSigOps scriptPubKey witness flags)
  else if isPayToScriptHash scriptPubKey ∧ isPushOnly scriptSig then
    some ((lastPush [] scriptSig).elim 0 fun data => programSigOps data witness flags)
  else some 0

/-! ## The count of a transaction -/

def witnessScaleFactor : UInt32 := 16

/-- What is counted of an input. -/
structure SpentInput where
  scriptSig : Bytes
  scriptPubKey : Bytes
  scriptWitness : List Bytes

namespace Spending

variable (spending : Spending)

theorem vin_length_scriptSigs : spending.txTo.vin.length = spending.scriptSigs.length :=
  spending.scriptSigs_length.symm

theorem vin_length_spentOutputs : spending.txTo.vin.length = spending.spentOutputs.length :=
  spending.spentOutputs_length.symm

def input (i : Fin spending.txTo.vin.length) : SpentInput where
  scriptSig := spending.scriptSigs.get (i.cast spending.vin_length_scriptSigs)
  scriptPubKey := (spending.spentOutputs.get (i.cast spending.vin_length_spentOutputs)).scriptPubKey
  scriptWitness := (spending.txTo.vin.get i).scriptWitness

def inputs : List SpentInput := (List.finRange spending.txTo.vin.length).map spending.input

/-- `GetLegacySigOpCount`. -/
def getLegacySigOpCount : UInt32 :=
  (spending.inputs.map fun input => getSigOpCount false input.scriptSig).sum +
    (spending.txTo.vout.map fun txout => getSigOpCount false txout.scriptPubKey).sum

/-- `GetP2SHSigOpCount`. -/
def getP2SHSigOpCount : UInt32 :=
  if spending.isCoinBase then 0
  else (spending.inputs.map fun input =>
    if isPayToScriptHash input.scriptPubKey then
      getScriptSigOpCount input.scriptPubKey input.scriptSig
    else 0).sum

/-- What `GetTransactionSigOpCost` adds for the inputs, with a product of 32 bits. -/
def inputSigOpCost (flags : UInt32) : Option Nat :=
  if spending.isCoinBase then some 0
  else do
    let counts ← spending.inputs.mapM fun input =>
      countWitnessSigOps input.scriptSig input.scriptPubKey input.scriptWitness flags
    let p2sh := if hasFlag flags scriptVerifyP2sh then
        spending.getP2SHSigOpCount * witnessScaleFactor else 0
    some (p2sh.toNat + (counts.map UInt32.toNat).sum)

/-- `GetTransactionSigOpCost`, whose first product is of 32 bits as well. -/
def getTransactionSigOpCost (flags : UInt32) : Option Nat :=
  (spending.inputSigOpCost flags).map
    ((spending.getLegacySigOpCount * witnessScaleFactor).toNat + ·)

/-- One more output. -/
def addOutput (txout : CTxOut) : Spending :=
  { spending with txTo := { spending.txTo with vout := spending.txTo.vout ++ [txout] } }

theorem getLegacySigOpCount_addOutput (txout : CTxOut) :
    (spending.addOutput txout).getLegacySigOpCount =
      spending.getLegacySigOpCount + getSigOpCount false txout.scriptPubKey := by
  change _ + ((spending.txTo.vout ++ [txout]).map _).sum = _
  simp only [getLegacySigOpCount, List.map_append, List.map_cons, List.map_nil,
    List.sum_append, List.sum_cons, List.sum_nil, UInt32.add_zero, UInt32.add_assoc]
  rfl

/-! ## Transactions whose counts do not overflow -/

/-- The scripts that are counted without their witnesses. -/
def scriptBytes : Nat :=
  (spending.inputs.map fun input => input.scriptSig.length).sum +
    (spending.txTo.vout.map fun txout => txout.scriptPubKey.length).sum

/-- The sizes of scripts that 32 bits are enough for. -/
structure FitsCount : Prop where
  scripts : spending.scriptBytes ≤ 268435
  witnesses : ∀ input ∈ spending.inputs, ∀ item ∈ input.scriptWitness, item.length ≤ 4294967

end Spending

/-- The exact count of a script behind its hash. -/
def redeemTotal (input : SpentInput) : Nat :=
  if isPayToScriptHash input.scriptPubKey then
    (lastPush [] input.scriptSig).elim 0 (sigOpTotal true)
  else 0

theorem getScriptOp_data {script data rest : Bytes} {opcode : UInt8}
    (found : getScriptOp script = some (opcode, data, rest)) :
    data.length ≤ script.length := by
  cases script with
  | nil => cases found
  | cons first tail =>
      rw [getScriptOp] at found
      split_ifs at found
      · cases found
        simp only [List.length_take, List.length_drop, List.length_cons]
        omega
      · cases found
        exact Nat.zero_le _

theorem lastPush_length {script data vData : Bytes} (pushes : lastPush data script = some vData)
    {bound : Nat} (short : script.length ≤ bound) (start : data.length ≤ bound) :
    vData.length ≤ bound := by
  induction script using script_induction generalizing data with
  | ends script ended =>
      rw [lastPush_of_none ended] at pushes
      split_ifs at pushes
      cases pushes
      exact start
  | operation script opcode data' rest found ih =>
      rw [lastPush_of_some found] at pushes
      split_ifs at pushes
      exact ih pushes ((getScriptOp_shorter found).le.trans short)
        ((getScriptOp_data found).trans short)

theorem redeemTotal_le (input : SpentInput) : redeemTotal input ≤ 1000 * input.scriptSig.length := by
  rw [redeemTotal]
  split_ifs
  · cases pushes : lastPush [] input.scriptSig with
    | none => exact Nat.zero_le _
    | some data =>
        obtain ⟨accurately, bounded⟩ := sigOpTotal_le data
        have short := lastPush_length pushes le_rfl (Nat.zero_le _)
        exact (accurately.trans bounded).trans (Nat.mul_le_mul_left 1000 short)
  · exact Nat.zero_le _

section Sums

variable {α : Type}

theorem sum_ofNat (f : α → Nat) (items : List α) :
    (items.map fun item => UInt32.ofNat (f item)).sum = UInt32.ofNat (items.map f).sum := by
  induction items with
  | nil => rfl
  | cons item items ih => rw [List.map_cons, List.sum_cons, ih, List.map_cons, List.sum_cons,
      UInt32.ofNat_add]

theorem sum_le_mul {f g : α → Nat} {factor : Nat} (le : ∀ item, f item ≤ factor * g item)
    (items : List α) : (items.map f).sum ≤ factor * (items.map g).sum := by
  rw [← List.sum_map_mul_left]
  exact List.sum_le_sum fun item _ => le item

end Sums

namespace Spending

variable (spending : Spending)

theorem getLegacySigOpCount_eq : spending.getLegacySigOpCount =
    UInt32.ofNat ((spending.inputs.map fun input => sigOpTotal false input.scriptSig).sum +
      (spending.txTo.vout.map fun txout => sigOpTotal false txout.scriptPubKey).sum) := by
  simp only [getLegacySigOpCount, getSigOpCount_eq, UInt32.ofNat_add]
  rw [sum_ofNat, sum_ofNat]

theorem getP2SHSigOpCount_eq (plain : spending.isCoinBase = false) :
    spending.getP2SHSigOpCount = UInt32.ofNat (spending.inputs.map redeemTotal).sum := by
  have each : ∀ input : SpentInput, (if isPayToScriptHash input.scriptPubKey then
      getScriptSigOpCount input.scriptPubKey input.scriptSig else 0) =
        UInt32.ofNat (redeemTotal input) := by
    intro input
    rw [redeemTotal, getScriptSigOpCount]
    by_cases hashed : isPayToScriptHash input.scriptPubKey = true
    · simp only [hashed, if_true, Bool.not_true, Bool.false_eq_true, if_false]
      cases lastPush [] input.scriptSig with
      | none => rfl
      | some data => exact getSigOpCount_eq true data
    · simp only [hashed, Bool.false_eq_true, if_false]
      rfl
  rw [getP2SHSigOpCount, plain, if_neg Bool.false_ne_true, ← sum_ofNat]
  simp only [each]

variable {spending}

theorem FitsCount.legacy (fits : spending.FitsCount) :
    (spending.getLegacySigOpCount * witnessScaleFactor).toNat =
      16 * ((spending.inputs.map fun input => sigOpTotal false input.scriptSig).sum +
        (spending.txTo.vout.map fun txout => sigOpTotal false txout.scriptPubKey).sum) := by
  have bound := fits.scripts
  rw [scriptBytes] at bound
  have sigs := sum_le_mul (fun input : SpentInput => (sigOpTotal_le input.scriptSig).2)
    spending.inputs
  have outs := sum_le_mul (fun txout : CTxOut => (sigOpTotal_le txout.scriptPubKey).2)
    spending.txTo.vout
  have sixteen : witnessScaleFactor.toNat = 16 := rfl
  rw [getLegacySigOpCount_eq, UInt32.toNat_mul, UInt32.toNat_ofNat', sixteen]
  omega

theorem FitsCount.p2sh (fits : spending.FitsCount) (plain : spending.isCoinBase = false) :
    (spending.getP2SHSigOpCount * witnessScaleFactor).toNat =
      16 * (spending.inputs.map redeemTotal).sum := by
  have bound := fits.scripts
  rw [scriptBytes] at bound
  have redeemed := sum_le_mul redeemTotal_le spending.inputs
  have sixteen : witnessScaleFactor.toNat = 16 := rfl
  rw [getP2SHSigOpCount_eq spending plain, UInt32.toNat_mul, UInt32.toNat_ofNat', sixteen]
  omega

end Spending

/-! ## Overflow -/

section Padding

variable {cost : (lastOpcode opcode : UInt8) → Nat} {opcode : UInt8} {each later : Nat}
  {rest : Bytes}

/-- Copies of an operation that costs the same wherever it stands. -/
theorem opsCost_replicate (plain : ¬ opcode ≤ opPushdata4)
    (costs : ∀ lastOpcode, cost lastOpcode opcode = each)
    (follows : ∀ lastOpcode, opsCost cost lastOpcode rest = later) (k : Nat)
    (lastOpcode : UInt8) :
    opsCost cost lastOpcode (List.replicate k opcode ++ rest) = k * each + later := by
  induction k generalizing lastOpcode with
  | zero => rw [List.replicate_zero, List.nil_append, follows, Nat.zero_mul, Nat.zero_add]
  | succ k ih =>
      rw [List.replicate_succ, List.cons_append, opsCost_of_some (getScriptOp_cons plain _), costs,
        ih, Nat.succ_mul]
      omega

end Padding

/-- A script that is counted with `n` signature operations. -/
def sigOpPadding (n : Nat) : Bytes :=
  List.replicate (n / 1000) opCheckmultisigdilithium ++
    (List.replicate (n % 1000 / 50) opChecksigdilithium ++
      (List.replicate (n % 1000 % 50) opChecksig ++ []))

theorem sigOpTotal_padding (n : Nat) : sigOpTotal false (sigOpPadding n) = n := by
  have multisig : ∀ lastOpcode : UInt8,
      countedSigOps false lastOpcode opCheckmultisigdilithium = 1000 := fun lastOpcode => by
    rw [countedSigOps, sigOps, countedKeys_false]
    decide
  have dilithium : ∀ lastOpcode : UInt8, countedSigOps false lastOpcode opChecksigdilithium = 50 :=
    fun _ => rfl
  have sig : ∀ lastOpcode : UInt8, countedSigOps false lastOpcode opChecksig = 1 := fun _ => rfl
  have ends : ∀ lastOpcode : UInt8, opsCost (countedSigOps false) lastOpcode [] = 0 :=
    opsCost_of_none rfl
  have total : n / 1000 * 1000 + (n % 1000 / 50 * 50 + (n % 1000 % 50 * 1 + 0)) = n := by omega
  exact (opsCost_replicate (by decide) multisig
    (opsCost_replicate (by decide) dilithium (opsCost_replicate (by decide) sig ends _) _) _
    _).trans total

theorem sigOpPadding_length (n : Nat) : (sigOpPadding n).length ≤ n / 1000 + 68 := by
  simp only [sigOpPadding, List.length_append, List.length_replicate, List.length_nil]
  omega

/-- The product of 32 bits overflows: for every transaction there is an output that leaves nothing
of the cost of its scripts. -/
theorem exists_output_sigOpCost (spending : Spending) :
    ∃ script : Bytes, script.length ≤ 268503 ∧ ∀ (nValue : Int64) (flags : UInt32),
      (spending.addOutput ⟨nValue, script⟩).getLegacySigOpCount * witnessScaleFactor = 0 ∧
        (spending.addOutput ⟨nValue, script⟩).getTransactionSigOpCost flags =
          (spending.getTransactionSigOpCost flags).map
            (· - (spending.getLegacySigOpCount * witnessScaleFactor).toNat) := by
  let legacy := spending.getLegacySigOpCount
  let missing := 2 ^ 28 - legacy.toNat % 2 ^ 28
  have padded : (legacy + UInt32.ofNat missing) * witnessScaleFactor = 0 := by
    apply UInt32.toNat_inj.mp
    have sixteen : witnessScaleFactor.toNat = 16 := rfl
    rw [UInt32.toNat_mul, UInt32.toNat_add, UInt32.toNat_ofNat', sixteen]
    change _ = 0
    have complement : missing = 2 ^ 28 - legacy.toNat % 2 ^ 28 := rfl
    omega
  refine ⟨sigOpPadding missing, ?_, fun nValue flags => ?_⟩
  · have short := sigOpPadding_length missing
    have below : missing ≤ 2 ^ 28 := Nat.sub_le _ _
    omega
  · have none : (spending.addOutput ⟨nValue, sigOpPadding missing⟩).getLegacySigOpCount *
        witnessScaleFactor = 0 := by
      rw [spending.getLegacySigOpCount_addOutput, getSigOpCount_eq, sigOpTotal_padding]
      exact padded
    refine ⟨none, ?_⟩
    rw [Spending.getTransactionSigOpCost, Spending.getTransactionSigOpCost, none, Option.map_map]
    change (spending.inputSigOpCost flags).map _ = _
    refine Option.map_congr fun cost _ => ?_
    simp

end QuantyCoin
