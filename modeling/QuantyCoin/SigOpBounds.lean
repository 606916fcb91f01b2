import QuantyCoin.ProgramCosts
import QuantyCoin.SigOpCounting
import QuantyCoin.ValidationWeight

/-!
# Executed and counted signature operations

No run of a script checks more signatures than `CScript::GetSigOpCount` counts in it.  The
count of a multisignature looks at the operation before it, and the number that this
operation has pushed is the number of keys that are read.
-/

namespace QuantyCoin

open ByteDecoder StateTriples

/-! ## The checks of an operation -/

/-- The checks that the count pays for, those of Dilithium with their cost. -/
def CheckCounts.sigOps (counts : CheckCounts) : Nat :=
  counts.ecdsa + 50 * (counts.dilithium + counts.p2mrDilithium)

/-- The signature operations of a counting run. -/
def spentSigOps {σ : Type} (both : σ × CheckCounts) : Nat := both.2.sigOps

/-- The checks of an operation: a number of its own, and a number for each key. -/
def Opcode.checks : Opcode → Nat × Nat
  | .checksig _ => (1, 0)
  | .checksigdilithium _ => (50, 0)
  | .checkmultisig _ => (0, 1)
  | .checkmultisigdilithium _ => (0, 50)
  | _ => (0, 0)

/-- The checks with a number of keys. -/
def Opcode.checkBound (opcode : Opcode) (keys : Nat) : Nat :=
  opcode.checks.1 + opcode.checks.2 * keys

/-- Other opcodes check no signatures that are counted. -/
theorem checks_ofByte {opcode : UInt8}
    (sig : ¬ (opcode = opChecksig ∨ opcode = opChecksigverify))
    (dilithium : ¬ (opcode = opChecksigdilithium ∨ opcode = opChecksigdilithiumverify))
    (multisig : ¬ (opcode = opCheckmultisig ∨ opcode = opCheckmultisigverify))
    (multisigDilithium :
      ¬ (opcode = opCheckmultisigdilithium ∨ opcode = opCheckmultisigdilithiumverify)) :
    (Opcode.ofByte opcode).checks = (0, 0) := by
  have all : ∀ n : Fin 256, UInt8.ofNat n.1 ∈ [opChecksig, opChecksigverify, opChecksigdilithium,
      opChecksigdilithiumverify, opCheckmultisig, opCheckmultisigverify, opCheckmultisigdilithium,
      opCheckmultisigdilithiumverify] ∨ (Opcode.ofByte (UInt8.ofNat n.1)).checks = (0, 0) := by
    decide +kernel
  have one := all ⟨opcode.toNat, opcode.toNat_lt⟩
  simp only [UInt8.ofNat_toNat, List.mem_cons, List.not_mem_nil, or_false] at one
  refine one.resolve_left ?_
  simp only [not_or] at sig dilithium multisig multisigDilithium ⊢
  exact ⟨sig.1, sig.2, dilithium.1, dilithium.2, multisig.1, multisig.2, multisigDilithium⟩

theorem countedKeys_toNat (accurate : Bool) (lastOpcode : UInt8) :
    (countedKeys accurate lastOpcode).toNat ≤ 20 := by
  have le := countedKeys_le accurate lastOpcode
  rw [countedKeys_false] at le
  exact le

/-- The count of an operation covers its checks. -/
theorem checkBound_ofByte (lastOpcode opcode : UInt8) {keys : Nat}
    (counted : keys ≤ (countedKeys true lastOpcode).toNat) :
    (Opcode.ofByte opcode).checkBound keys ≤ countedSigOps true lastOpcode opcode := by
  have few := countedKeys_toNat true lastOpcode
  rw [countedSigOps, sigOps]
  split_ifs with sig dilithium multisig multisigDilithium
  · have one : (Opcode.ofByte opcode).checks = (1, 0) := by
      obtain rfl | rfl := sig <;> rfl
    rw [Opcode.checkBound, one, Nat.zero_mul]
    exact le_rfl
  · have fifty : (Opcode.ofByte opcode).checks = (50, 0) := by
      obtain rfl | rfl := dilithium <;> rfl
    rw [Opcode.checkBound, fifty, Nat.zero_mul]
    exact le_rfl
  · have one : (Opcode.ofByte opcode).checks = (0, 1) := by
      obtain rfl | rfl := multisig <;> rfl
    rw [Opcode.checkBound, one]
    omega
  · have fifty : (Opcode.ofByte opcode).checks = (0, 50) := by
      obtain rfl | rfl := multisigDilithium <;> rfl
    have product : (countedKeys true lastOpcode * dilithiumSigopCost).toNat =
        (countedKeys true lastOpcode).toNat * 50 := by
      rw [UInt32.toNat_mul]
      refine Nat.mod_eq_of_lt ?_
      change _ * 50 < _
      omega
    rw [Opcode.checkBound, fifty, product]
    omega
  · rw [Opcode.checkBound, checks_ofByte sig dilithium multisig multisigDilithium]
    omega

section Checks

variable {σ C : Type} {crypto : ScriptCrypto} {checker : SignatureChecker σ} {flags : UInt32}
  {sigversion : SigVersion} {cost : Nat}

theorem costs_counting {α : Type} {update : CheckCounts → CheckCounts}
    {program : EStateM EvalError σ α}
    (adds : ∀ counts, (update counts).sigOps ≤ counts.sigOps + cost) :
    Costs spentSigOps cost (counting update program) := by
  rintro ⟨state, counts⟩
  simp only [counting]
  cases program state <;> exact adds counts

theorem costs_dropSignature (scriptCode vchSig : Bytes) :
    Costs spentSigOps 0
      (dropSignature flags sigversion scriptCode vchSig :
        EStateM EvalError (σ × CheckCounts) Bytes) := by
  rw [dropSignature]
  split_ifs
  · exact .require_then fun _ => .pure _
  · exact .pure _

theorem costs_dropSignatures (scriptCode : Bytes) (sigs : List Bytes) :
    Costs spentSigOps 0
      (dropSignatures flags sigversion scriptCode sigs :
        EStateM EvalError (σ × CheckCounts) Bytes) := by
  induction sigs generalizing scriptCode with
  | nil => exact .pure _
  | cons vchSig sigs ih => exact (costs_dropSignature scriptCode vchSig).then_free ih

/-- One check of ECDSA. -/
theorem costs_checkEncodedSignature (vchSig vchPubKey scriptCode : Bytes) :
    Costs spentSigOps 1
      (checkEncodedSignature crypto checker.counted flags sigversion vchSig vchPubKey
        scriptCode) :=
  .ofExcept_then fun _ _ => .ofExcept_then fun _ _ => costs_counting fun counts => by
    simp only [CheckCounts.sigOps, CheckCounts.addEcdsa]
    omega

theorem costs_spendWeight (weight : Int) (execdata : ScriptExecutionData) :
    Costs spentSigOps 0
      (spendWeight weight execdata : EStateM EvalError (σ × CheckCounts) ScriptExecutionData) := by
  rw [spendWeight]
  cases execdata.validationWeightLeft with
  | none => exact .throw _
  | some left => exact .require_then fun _ => .pure _

/-- Schnorr signatures are paid with weight instead. -/
theorem costs_evalChecksigTapscript (sig pubkey : Bytes) (execdata : ScriptExecutionData) :
    Costs spentSigOps 0
      (evalChecksigTapscript checker.counted flags sigversion sig pubkey execdata) := by
  have paid : Costs spentSigOps 0
      (if sig ≠ [] then spendWeight validationWeightPerSigopPassed execdata
        else (pure execdata : EStateM EvalError (σ × CheckCounts) ScriptExecutionData)) := by
    split_ifs
    · exact costs_spendWeight _ _
    · exact .pure _
  refine paid.then_free fun execdata => ?_
  split_ifs
  · exact .throw _
  · have checked : Costs spentSigOps 0
        (checker.counted.checkSchnorrSignature sig pubkey sigversion execdata) :=
      costs_counting fun _ => le_rfl
    exact checked.then_free fun _ => .pure _
  · exact .pure _
  · exact .require_then fun _ => .pure _

theorem costs_evalChecksig (sig pubkey scriptCode : Bytes) (execdata : ScriptExecutionData) :
    Costs spentSigOps (if sigversion = .tapscript then 0 else 1)
      (evalChecksig crypto checker.counted flags sigversion sig pubkey scriptCode execdata) := by
  rw [evalChecksig]
  by_cases tapscript : sigversion.isTapscript = true
  · rw [if_pos tapscript]
    exact (costs_evalChecksigTapscript sig pubkey execdata).mono (Nat.zero_le _)
  · have legacy : sigversion ≠ .tapscript := by
      rintro rfl
      exact tapscript rfl
    rw [if_neg tapscript, if_neg legacy]
    have checked : Costs spentSigOps 1
        (evalChecksigPreTapscript crypto checker.counted flags sigversion sig pubkey
          scriptCode) := by
      rw [evalChecksigPreTapscript]
      refine ((costs_dropSignature scriptCode sig).bind fun _ scriptCode _ _ => ?_).mono
        (Nat.zero_add 1).le
      exact (costs_checkEncodedSignature sig pubkey scriptCode).then_free fun _ =>
        .require_then fun _ => .pure _
    exact checked.then_free fun _ => .pure _

theorem costs_evalChecksigDilithium (sig pubkey scriptCode : Bytes)
    (execdata : ScriptExecutionData) :
    Costs spentSigOps 50
      (evalChecksigDilithium checker.counted sigversion sig pubkey scriptCode execdata) := by
  refine .require_then fun _ => .require_then fun _ => ?_
  have paid : Costs spentSigOps 0
      (if sigversion = .p2mrTapscript ∧ sig ≠ [] then
          spendWeight validationWeightPerDilithiumSigopPassed execdata
        else (pure execdata : EStateM EvalError (σ × CheckCounts) ScriptExecutionData)) := by
    split_ifs
    · exact costs_spendWeight _ _
    · exact .pure _
  refine (paid.bind fun _ execdata _ _ => ?_).mono (Nat.zero_add 50).le
  refine costs_counting fun counts => ?_
  rw [CheckCounts.addDilithium]
  split_ifs
  · omega
  · simp only [CheckCounts.sigOps]
    omega
  · simp only [CheckCounts.sigOps]
    omega

/-- Every key is tried at most once. -/
theorem costs_matchSignatures {α : Type}
    {check : α → Bytes → Bytes → EStateM EvalError (σ × CheckCounts) (Bool × α)}
    (checks : ∀ execdata vchSig vchPubKey,
      Costs spentSigOps cost (check execdata vchSig vchPubKey))
    (execdata : α) (sigs keys : List Bytes) :
    Costs spentSigOps (cost * keys.length) (matchSignatures check execdata sigs keys) := by
  induction keys generalizing execdata sigs with
  | nil => cases sigs <;> exact .pure _
  | cons vchPubKey keys ih =>
      cases sigs with
      | nil => exact .pure _
      | cons vchSig sigs =>
          have sum : cost + cost * keys.length = cost * (vchPubKey :: keys).length := by
            rw [List.length_cons, Nat.mul_succ, Nat.add_comm]
          rw [← sum]
          refine (checks execdata vchSig vchPubKey).bind fun _ (fOk, execdata) _ _ => ?_
          dsimp only
          generalize (if fOk = true then sigs else vchSig :: sigs) = sigs
          split_ifs
          · exact .pure _
          · exact ih execdata sigs

/-- Operations of Dilithium are not allowed in the tapscripts of Taproot. -/
theorem costs_requireDilithium_then {β : Type}
    {next : Unit → EStateM EvalError (σ × CheckCounts) β}
    (follows : sigversion ≠ .tapscript → Costs spentSigOps cost (next ())) :
    Costs spentSigOps cost (requireDilithium flags sigversion >>= next) := by
  rw [requireDilithium, bind_assoc]
  refine .require_then fun allowed => .require_then fun _ => follows ?_
  rintro rfl
  split_ifs at allowed
  exact allowed rfl

/-! ## Operations -/

variable {m : Machine C} {keys : Nat}

/-- The number of keys that a multisignature reads is at most `keys`. -/
def ReadsKeys (flags : UInt32) (m : Machine C) (keys : Nat) : Prop :=
  ∀ arguments, readMultisig (hasFlag flags scriptVerifyMinimaldata) m.nOpCount m.stack =
    .ok arguments → arguments.keys.length ≤ keys

theorem costs_evalCheckmultisig (reads : ReadsKeys flags m keys) (verifies : Bool) :
    Costs spentSigOps (if sigversion = .tapscript then 0 else keys)
      (evalCheckmultisig crypto checker.counted flags sigversion verifies m) := by
  refine .require_then fun legacy => ?_
  have legacy : sigversion ≠ .tapscript := by
    rintro rfl
    cases legacy
  rw [if_neg legacy]
  refine .ofExcept_then fun arguments read => ?_
  have matched : ∀ scriptCode, Costs spentSigOps (1 * arguments.keys.length)
      (matchSignatures
        (fun (execdata : Unit) vchSig vchPubKey =>
          checkEncodedSignature crypto checker.counted flags sigversion vchSig vchPubKey
            scriptCode >>= fun fOk => pure (fOk, execdata)) () arguments.sigs arguments.keys) :=
    fun scriptCode => costs_matchSignatures (fun _ _ _ =>
      (costs_checkEncodedSignature _ _ scriptCode).then_free fun _ => .pure _) _ _ _
  refine ((costs_dropSignatures m.pbegincodehash arguments.sigs).bind fun _ scriptCode _ _ =>
    (matched scriptCode).then_free fun _ => .ofExcept_then fun _ _ => .pure _).mono ?_
  have few := reads arguments read
  omega

theorem costs_evalCheckmultisigDilithium (reads : ReadsKeys flags m keys) (verifies : Bool) :
    Costs spentSigOps (if sigversion = .tapscript then 0 else 50 * keys)
      (evalCheckmultisigDilithium checker.counted flags sigversion verifies m) := by
  refine costs_requireDilithium_then fun allowed => ?_
  rw [if_neg allowed]
  refine .ofExcept_then fun arguments read => ?_
  refine ((costs_matchSignatures (fun execdata vchSig vchPubKey =>
    costs_evalChecksigDilithium vchSig vchPubKey m.pbegincodehash execdata) m.execdata
    arguments.sigs arguments.keys).then_free fun _ => .ofExcept_then fun _ _ => .pure _).mono ?_
  exact Nat.mul_le_mul_left 50 (reads arguments read)

theorem costs_evalChecklocktimeverify :
    Costs spentSigOps 0 (evalChecklocktimeverify checker.counted flags m) := by
  rw [evalChecklocktimeverify]
  split_ifs
  · exact .pure _
  · exact .ofExcept_then fun _ _ => .ofExcept_then fun _ _ => .require_then fun _ =>
      .require_then fun _ => .pure _

theorem costs_evalChecksequenceverify :
    Costs spentSigOps 0 (evalChecksequenceverify checker.counted flags m) := by
  rw [evalChecksequenceverify]
  split_ifs
  · exact .pure _
  · refine .ofExcept_then fun _ _ => .ofExcept_then fun nSequence _ => .require_then fun _ => ?_
    split_ifs
    · exact .pure _
    · exact .require_then fun _ => .pure _

theorem costs_evalChecksigOp (verifies : Bool) :
    Costs spentSigOps (if sigversion = .tapscript then 0 else 1)
      (evalChecksigOp crypto checker.counted flags sigversion verifies m) :=
  .ofExcept_then fun _ _ => .ofExcept_then fun _ _ => (costs_evalChecksig _ _ _ _).then_free
    fun _ => .ofExcept_then fun _ _ => .pure _

/-- Only Schnorr signatures are added up. -/
theorem costs_evalChecksigadd :
    Costs spentSigOps 0 (evalChecksigadd crypto checker.counted flags sigversion m) := by
  refine .require_then fun tapscript => .ofExcept_then fun _ _ => .ofExcept_then fun _ _ =>
    .ofExcept_then fun _ _ => .ofExcept_then fun _ _ => ?_
  rw [evalChecksig, if_pos tapscript]
  exact (costs_evalChecksigTapscript _ _ _).then_free fun _ => .pure _

theorem costs_evalChecksigDilithiumOp (verifies : Bool) :
    Costs spentSigOps (if sigversion = .tapscript then 0 else 50)
      (evalChecksigDilithiumOp checker.counted flags sigversion verifies m) := by
  refine costs_requireDilithium_then fun allowed => ?_
  rw [if_neg allowed]
  exact .ofExcept_then fun _ _ => .ofExcept_then fun _ _ =>
    (costs_evalChecksigDilithium _ _ _ _).then_free fun _ => .require_then fun _ =>
      .ofExcept_then fun _ _ => .pure _

variable [Conditions C]

theorem costs_evalIf (notif : Bool) :
    Costs spentSigOps 0
      (evalIf flags sigversion notif m : EStateM EvalError (σ × CheckCounts) (Machine C)) := by
  rw [evalIf]
  by_cases active : Conditions.allTrue m.vfExec = true
  · rw [if_pos active]
    cases m.stack with
    | nil => exact .throw _
    | cons vch below => exact .require_then fun _ => .require_then fun _ => .pure _
  · rw [if_neg active]
    exact .pure _

/-- One operation, case by case. -/
theorem costs_evalOpcode (reads : ReadsKeys flags m keys) (opcode : Opcode) (pc : Bytes) :
    Costs spentSigOps (if sigversion = .tapscript then 0 else opcode.checkBound keys)
      (evalOpcode crypto checker.counted flags sigversion opcode pc m) := by
  have free {cost : Nat} {program : EStateM EvalError (σ × CheckCounts) (Machine C)}
      (costs : Costs spentSigOps 0 program) : Costs spentSigOps cost program :=
    costs.mono (Nat.zero_le _)
  cases opcode with
  | pushNumber n => exact .pure _
  | nop => exact .pure _
  | checklocktimeverify => exact free costs_evalChecklocktimeverify
  | checksequenceverify => exact free costs_evalChecksequenceverify
  | upgradableNop => exact .require_then fun _ => .pure _
  | opIf notif => exact free (costs_evalIf notif)
  | opElse => exact .require_then fun _ => .pure _
  | endif => exact .require_then fun _ => .pure _
  | stack op => exact .ofExcept_then fun _ _ => .pure _
  | numeric op => exact .ofExcept_then fun _ _ => .pure _
  | hash op => exact .ofExcept_then fun _ _ => .pure _
  | codeseparator => exact .pure _
  | checksig verifies =>
      have one : (Opcode.checksig verifies).checkBound keys = 1 := by
        simp [Opcode.checkBound, Opcode.checks]
      rw [one]
      exact costs_evalChecksigOp verifies
  | checksigadd => exact free costs_evalChecksigadd
  | checkmultisig verifies =>
      have tried : (Opcode.checkmultisig verifies).checkBound keys = keys := by
        simp [Opcode.checkBound, Opcode.checks]
      rw [tried]
      exact costs_evalCheckmultisig reads verifies
  | checksigdilithium verifies =>
      have one : (Opcode.checksigdilithium verifies).checkBound keys = 50 := by
        simp [Opcode.checkBound, Opcode.checks]
      rw [one]
      exact costs_evalChecksigDilithiumOp verifies
  | checkmultisigdilithium verifies =>
      have tried : (Opcode.checkmultisigdilithium verifies).checkBound keys = 50 * keys := by
        simp [Opcode.checkBound, Opcode.checks]
      rw [tried]
      exact costs_evalCheckmultisigDilithium reads verifies
  | dilithiumPubkey =>
      exact free (costs_requireDilithium_then fun _ => .ofExcept_then fun _ _ => .pure _)
  | bad => exact .throw _

/-! ## The operation before a multisignature -/

/-- If the last opcode pushed a number and the branch is executed, the number is on top. -/
def RunFollows (lastOpcode : UInt8) (m : Machine C) : Prop :=
  op1 ≤ lastOpcode → lastOpcode ≤ op16 → Conditions.allTrue m.vfExec = true →
    m.stack.head? = some (CScriptNum.serialize (decodeOpN lastOpcode))

/-- A small number. -/
theorem ofByte_number {opcode : UInt8} (low : op1 ≤ opcode) (high : opcode ≤ op16) :
    Opcode.ofByte opcode = .pushNumber (decodeOpN opcode) := by
  have bound : 0x51 ≤ opcode.toNat := low
  have nonzero : opcode ≠ 0 := by
    rintro rfl
    exact absurd bound (by decide)
  refine (if_pos (.inr ⟨low, high⟩)).trans (congrArg Opcode.pushNumber ?_)
  rw [decodeOpN, if_neg nonzero]
  omega

theorem follows_evalInstruction {opcode : UInt8} {vchPushValue pc : Bytes} {m' : Machine C}
    {state after : σ}
    (ran : evalInstruction crypto checker flags sigversion opcode vchPushValue pc m state =
      .ok m' after) : RunFollows opcode m' := by
  obtain ⟨-, -, -, -, final, operated, -, rfl⟩ := evalInstruction_eq_ok.mp ran
  intro low high active
  have plain : ¬ opcode ≤ opPushdata4 := fun le =>
    absurd (UInt8.le_trans low le) (by decide)
  have unconditional : ¬ (opIf ≤ opcode ∧ opcode ≤ opEndif) := fun within =>
    absurd (UInt8.le_trans within.1 high) (by decide)
  rw [evalOperation] at operated
  simp only [plain, unconditional, and_false, or_false, if_false] at operated
  split_ifs at operated with executed
  · rw [ofByte_number low high] at operated
    obtain ⟨rfl, -⟩ := pure_eq_ok.mp operated
    rfl
  · obtain ⟨rfl, -⟩ := pure_eq_ok.mp operated
    exact absurd active executed

theorem readNumber_eq_ok {fRequireMinimal : Bool} {nMaxNumSize : Nat} {vch : Bytes} {value : Int}
    (read : readNumber fRequireMinimal nMaxNumSize vch = .ok value) :
    CScriptNum.setVch vch = value := by
  rw [readNumber, CScriptNum.ofBytes] at read
  split_ifs at read
  cases read
  rfl

/-- The keys of a multisignature. -/
theorem readMultisig_keys {fRequireMinimal : Bool} {nOpCount : Nat} {stack : List Bytes}
    {arguments : MultisigArguments}
    (read : readMultisig fRequireMinimal nOpCount stack = .ok arguments) :
    arguments.keys.length ≤ 20 ∧ ∀ n : Nat, n ≤ 16 →
      stack.head? = some (CScriptNum.serialize n) → arguments.keys.length ≤ n := by
  cases stack with
  | nil => cases read
  | cons top below =>
      obtain ⟨_, popped, read⟩ := except_bind_eq_ok.mp read
      cases popped
      obtain ⟨value, number, read⟩ := except_bind_eq_ok.mp read
      obtain ⟨_, bounded, read⟩ := except_bind_eq_ok.mp read
      rw [demand_eq_ok] at bounded
      obtain ⟨_, -, read⟩ := except_bind_eq_ok.mp read
      obtain ⟨_, popped, read⟩ := except_bind_eq_ok.mp read
      obtain ⟨_, -, read⟩ := except_bind_eq_ok.mp read
      obtain ⟨_, -, read⟩ := except_bind_eq_ok.mp read
      obtain ⟨_, -, read⟩ := except_bind_eq_ok.mp read
      cases read
      have few : (below.take (getint value).toNat).length ≤ (getint value).toNat :=
        List.length_take_le _ _
      have twenty : (maxPubkeysPerMultisig : Int) = 20 := rfl
      refine ⟨?_, fun n small pushed => ?_⟩
      · change (below.take (getint value).toNat).length ≤ 20
        omega
      · have same : value = n := by
          cases pushed
          rw [← readNumber_eq_ok number, CScriptNum.setVch_serialize]
        change (below.take (getint value).toNat).length ≤ n
        rw [getint] at few ⊢
        omega

/-- The accurate count of keys covers the keys that are read. -/
theorem readsKeys_of_follows {lastOpcode : UInt8} (follows : RunFollows lastOpcode m)
    (active : Conditions.allTrue m.vfExec = true) :
    ReadsKeys flags m (countedKeys true lastOpcode).toNat := by
  intro arguments read
  obtain ⟨few, numbered⟩ := readMultisig_keys read
  rw [countedKeys]
  split_ifs with number
  · obtain ⟨-, low, high⟩ := number
    have small : decodeOpN lastOpcode ≤ 16 := by
      have bound : lastOpcode.toNat ≤ 0x60 := high
      rw [decodeOpN]
      split_ifs
      · omega
      · omega
    rw [UInt32.toNat_ofNat_of_lt' (lt_of_le_of_lt small (by decide))]
    exact numbered _ small (follows low high active)
  · exact few

omit [Conditions C] in
theorem costs_countOperation (opcode : UInt8) :
    Costs spentSigOps 0
      (countOperation sigversion opcode m : EStateM EvalError (σ × CheckCounts) (Machine C)) := by
  rw [countOperation]
  split_ifs
  · exact .require_then fun _ => .pure _
  · exact .pure _

/-- What an operation is counted with, where checks of Schnorr signatures are not counted. -/
def countedIn (sigversion : SigVersion) (lastOpcode opcode : UInt8) : Nat :=
  if sigversion = .tapscript then 0 else countedSigOps true lastOpcode opcode

theorem costs_evalOperation {lastOpcode opcode : UInt8} (follows : RunFollows lastOpcode m)
    (vchPushValue pc : Bytes) :
    Costs spentSigOps (countedIn sigversion lastOpcode opcode)
      (evalOperation crypto checker.counted flags sigversion opcode vchPushValue pc m) := by
  rw [evalOperation]
  split_ifs with pushes runs
  · exact .require_then fun _ => .pure _
  · by_cases active : Conditions.allTrue m.vfExec = true
    · refine (costs_evalOpcode (readsKeys_of_follows follows active) _ pc).mono ?_
      rw [countedIn]
      split_ifs
      · exact le_rfl
      · exact checkBound_ofByte lastOpcode opcode le_rfl
    · have conditional := runs.resolve_left active
      have unchecked : (Opcode.ofByte opcode).checks = (0, 0) := by
        refine checks_ofByte ?_ ?_ ?_ ?_
        all_goals
          rintro (rfl | rfl)
          all_goals exact absurd conditional.2 (by decide)
      refine (costs_evalOpcode (fun _ read => (readMultisig_keys read).1) _ pc).mono ?_
      rw [Opcode.checkBound, unchecked]
      split_ifs
      · exact Nat.zero_le _
      · exact Nat.zero_le _
  · exact .pure _

/-- The count of an instruction covers its checks. -/
theorem costs_evalInstruction {lastOpcode opcode : UInt8} (follows : RunFollows lastOpcode m)
    (vchPushValue pc : Bytes) :
    Costs spentSigOps (countedIn sigversion lastOpcode opcode)
      (evalInstruction crypto checker.counted flags sigversion opcode vchPushValue pc m) := by
  refine .require_then fun _ => ?_
  refine ((costs_countOperation opcode).bind fun state m' after counted => ?_).mono
    (Nat.zero_add _).le
  have follows : RunFollows lastOpcode m' := by
    obtain ⟨-, rfl, -⟩ := countOperation_eq_ok.mp counted
    rw [Machine.counted]
    split_ifs
    · exact follows
    · exact follows
  exact .require_then fun _ => .require_then fun _ =>
    (costs_evalOperation follows vchPushValue pc).then_free fun _ => .require_then fun _ => .pure _

/-- The run lemma, by induction on the script. -/
theorem costs_evalLoop (pc : Bytes) {lastOpcode : UInt8} (m : Machine C)
    (follows : RunFollows lastOpcode m) :
    Costs spentSigOps (opsCost (countedIn sigversion) lastOpcode pc)
      (evalLoop crypto checker.counted flags sigversion pc m) := by
  induction pc using script_induction generalizing lastOpcode m with
  | ends pc ended =>
      rw [evalLoop_of_none _ _ _ _ ended]
      exact .require_then fun _ => .pure _
  | operation pc opcode vchPushValue rest found ih =>
      rw [evalLoop_of_some _ _ _ _ found, opsCost_of_some found]
      exact (costs_evalInstruction follows vchPushValue rest).bind fun _ m' _ ran =>
        ih m' (follows_evalInstruction ran)

/-- What a script is counted with. -/
def countedScript (sigversion : SigVersion) (script : Bytes) : Nat :=
  opsCost (countedIn sigversion) opInvalidopcode script

theorem costs_evalScript (stack : List Bytes) (script : Bytes) (execdata : ScriptExecutionData) :
    Costs spentSigOps (countedScript sigversion script)
      (evalScriptWith crypto checker.counted flags sigversion C stack script execdata) := by
  refine .require_then fun _ => .require_then fun _ => ?_
  have starts : RunFollows opInvalidopcode (Machine.start stack script execdata : Machine C) :=
    fun _ high _ => absurd high (by decide)
  exact (costs_evalLoop script _ starts).then_free fun _ => .require_then fun _ => .pure _

end Checks

/-! ## Witness programs -/

theorem countedScript_le (sigversion : SigVersion) (script : Bytes) :
    countedScript sigversion script ≤ sigOpTotal true script := by
  refine opsCost_mono (fun lastOpcode opcode => ?_) _ script
  rw [countedIn]
  split_ifs
  · exact Nat.zero_le _
  · exact le_rfl

/-- Taproot counts nothing. -/
theorem countedScript_tapscript (script : Bytes) : countedScript .tapscript script = 0 := by
  have none : countedScript .tapscript script ≤ 0 * script.length :=
    opsCost_le (fun _ _ => le_rfl) _ script
  omega

section Programs

variable {hashes : ScriptHashes} {taproot : TaprootChecker} {witness : List Bytes}
  {witversion : Int} {program : Bytes} {flags : UInt32} {isP2sh : Bool}
  {execution : WitnessExecution}

theorem popAnnex_subset (hashes : ScriptHashes) (witness : List Bytes) :
    (popAnnex hashes witness).2 ⊆ witness := by
  rw [popAnnex]
  split
  · split_ifs
    · exact List.dropLast_subset _
    · exact fun _ member => member
  · exact fun _ member => member

/-- A leaf script is an item of its witness. -/
theorem verifyP2MRProgram_mem {verifyFlags : VerifyFlags} {leaf : LeafExecution}
    (executes : verifyP2MRProgram hashes verifyFlags witness program = .execute leaf) :
    leaf.script ∈ witness := by
  rw [verifyP2MRProgram] at executes
  have subset := popAnnex_subset hashes witness
  generalize popAnnex hashes witness = popped at executes subset
  obtain ⟨annexHash, stack⟩ := popped
  dsimp only at executes subset
  rcases items : stack.reverse with _ | ⟨control, _ | ⟨script, rest⟩⟩
  · rw [items] at executes
    split_ifs at executes
  · rw [items] at executes
    split_ifs at executes
  · rw [items] at executes
    dsimp only at executes
    split_ifs at executes
    cases executes
    apply subset
    rw [← List.mem_reverse, items]
    simp

/-- The script behind a key hash has 25 bytes. -/
theorem verifyKeyhashProgram_length (sized : program.length = witnessV0KeyhashSize)
    (executes : verifyKeyhashProgram witness program flags = .execute execution) :
    execution.execScript.length = 25 := by
  have implied (checker : UInt8) : (impliedScript checker program).length = 25 := by
    simp [impliedScript, Signing.pushData, sized, witnessV0KeyhashSize, opPushdata1]
  rcases witness with _ | ⟨sig, _ | ⟨vchPubKey, _ | ⟨third, rest⟩⟩⟩
  · cases executes
  · cases executes
  · rw [verifyKeyhashProgram] at executes
    split_ifs at executes
    · cases executes
      exact implied _
    · cases executes
      exact implied _
  · cases executes

theorem verifyTaprootProgram_tapscript
    (executes : verifyTaprootProgram hashes taproot witness program flags = .execute execution) :
    execution.arguments.2.1 = .tapscript := by
  rw [verifyTaprootProgram] at executes
  generalize popAnnex hashes witness = popped at executes
  obtain ⟨annexHash, stack⟩ := popped
  dsimp only at executes
  generalize stack.reverse = reversed at executes
  rcases reversed with _ | ⟨control, _ | ⟨script, rest⟩⟩
  · split_ifs at executes
  · dsimp only at executes
    split_ifs at executes
    all_goals
      split at executes
      · cases executes
      · cases executes
  · dsimp only at executes
    split_ifs at executes
    cases executes
    rfl

/-- The accounting of a witness covers what its script is counted with. -/
theorem verifyWitnessProgram_counted (short : ∀ item ∈ witness, item.length ≤ 4294967)
    (executes : verifyWitnessProgram hashes taproot witness witversion program flags isP2sh =
      .execute execution) :
    countedScript execution.arguments.2.1 execution.execScript ≤
      (witnessSigOps witversion program witness flags).toNat := by
  rw [verifyWitnessProgram] at executes
  split_ifs at executes with zero scripthash keyhash one two
  · have last := verifyScripthashProgram_execute executes
    have member : execution.execScript ∈ witness := List.mem_of_getLast? last
    have other : ¬ program.length = witnessV0KeyhashSize := by
      rw [scripthash]
      decide
    have item : witness.getLastD [] = execution.execScript := by
      rw [List.getLastD_eq_getLast?, last, Option.getD_some]
    rw [witnessSigOps, if_neg fun both => other both.2,
      if_pos ⟨zero, scripthash, List.length_pos_of_mem member⟩, item,
      getSigOpCount_toNat true (short _ member)]
    exact countedScript_le _ _
  · have covered := verifyKeyhashProgram_execute keyhash executes
    have implied : execution.execScript.length ≤ 4294967 := by
      rw [verifyKeyhashProgram_length keyhash executes]
      decide
    rw [witnessSigOps, if_pos ⟨zero, keyhash⟩]
    calc
      countedScript execution.arguments.2.1 execution.execScript ≤
          sigOpTotal true execution.execScript := countedScript_le _ _
      _ = (getSigOpCount true execution.execScript).toNat :=
          (getSigOpCount_toNat true implied).symm
      _ ≤ (keyhashSigOps witness flags).toNat := covered
  · rw [verifyTaprootProgram_tapscript executes, countedScript_tapscript]
    exact Nat.zero_le _
  · cases check : verifyP2MRProgram hashes (.ofFlags flags) witness program with
    | failed error =>
        rw [check] at executes
        cases executes
    | succeeded =>
        rw [check] at executes
        cases executes
    | execute leaf =>
        rw [check] at executes
        cases executes
        obtain ⟨long, counted⟩ := verifyP2MRProgram_execute check
        rw [witnessSigOps, if_neg fun both => zero both.1, if_neg fun both => zero both.1,
          if_pos ⟨two.1, two.2.1, long⟩, counted,
          getSigOpCount_toNat true (short _ (verifyP2MRProgram_mem check))]
        exact countedScript_le _ _

end Programs

/-! ## Scripts that only push -/

section Pushes

theorem isPushOnly_of_some {script data rest : Bytes} {opcode : UInt8}
    (found : getScriptOp script = some (opcode, data, rest)) :
    isPushOnly script = (decide (opcode ≤ op16) && isPushOnly rest) := by
  cases script with
  | nil => cases found
  | cons first tail =>
      rw [isPushOnly]
      split
      · rename_i ended
        rw [ended] at found
        cases found
      · rename_i found'
        rw [found'] at found
        cases found
        rfl

/-- The loop ends where `IsPushOnly` holds. -/
theorem exists_lastPush {script : Bytes} (pushes : isPushOnly script = true) (data : Bytes) :
    ∃ vData, lastPush data script = some vData := by
  induction script using script_induction generalizing data with
  | ends script ended =>
      rw [lastPush_of_none ended]
      cases script with
      | nil => exact ⟨data, rfl⟩
      | cons first tail =>
          rw [isPushOnly] at pushes
          split at pushes
          · cases pushes
          · rename_i found
            rw [ended] at found
            cases found
  | operation script opcode vData rest found ih =>
      rw [isPushOnly_of_some found, Bool.and_eq_true, decide_eq_true_eq] at pushes
      rw [lastPush_of_some found, if_neg (UInt8.not_lt.mpr pushes.1)]
      exact ih pushes.2 vData

/-- A script that neither checks signatures nor is a witness program. -/
def Inert (script : Bytes) : Prop := sigOpTotal true script = 0 ∧ isWitnessProgram script = none

/-- The byte of a small number. -/
def numberByte (opcode : UInt8) : UInt8 := if opcode = op1Negate then 0x81 else opcode - 0x50

theorem serialize_number {opcode : UInt8}
    (number : opcode = op1Negate ∨ (op1 ≤ opcode ∧ opcode ≤ op16)) :
    CScriptNum.serialize (opcode.toNat - 0x50) = [numberByte opcode] := by
  have all : ∀ n : Fin 256, UInt8.ofNat n.1 = op1Negate ∨
      (op1 ≤ UInt8.ofNat n.1 ∧ UInt8.ofNat n.1 ≤ op16) →
      CScriptNum.isMinimal [numberByte (UInt8.ofNat n.1)] = true ∧
        CScriptNum.setVch [numberByte (UInt8.ofNat n.1)] = n.1 - 0x50 := by
    decide +kernel
  obtain ⟨minimal, value⟩ := all ⟨opcode.toNat, opcode.toNat_lt⟩ (by simpa using number)
  simp only [UInt8.ofNat_toNat] at minimal value
  rw [← value, CScriptNum.serialize_setVch minimal]

/-- The bytes of small numbers are pushes that do not parse, or a disabled operation. -/
theorem inert_number {opcode : UInt8}
    (number : opcode = op1Negate ∨ (op1 ≤ opcode ∧ opcode ≤ op16)) :
    Inert (CScriptNum.serialize (opcode.toNat - 0x50)) := by
  rw [serialize_number number]
  have all : ∀ n : Fin 256, UInt8.ofNat n.1 = op1Negate ∨
      (op1 ≤ UInt8.ofNat n.1 ∧ UInt8.ofNat n.1 ≤ op16) →
      getScriptOp [numberByte (UInt8.ofNat n.1)] = none ∨
        getScriptOp [numberByte (UInt8.ofNat n.1)] = some (0x81, [], []) := by
    decide +kernel
  have one := all ⟨opcode.toNat, opcode.toNat_lt⟩ (by simpa using number)
  simp only [UInt8.ofNat_toNat] at one
  refine ⟨?_, rfl⟩
  rw [sigOpTotal]
  obtain ended | found := one
  · exact opsCost_of_none ended _
  · rw [opsCost_of_some found, opsCost_of_none rfl]
    rfl

/-- What is on top has been pushed last, or has no part in the count. -/
def Pushed (data : Bytes) (stack : List Bytes) : Prop :=
  ∀ top, stack.head? = some top → top = data ∨ Inert top

variable {σ : Type} {crypto : ScriptCrypto} {checker : SignatureChecker σ} {flags : UInt32}
  {sigversion : SigVersion}

section Run

variable {C : Type} [Conditions C] {m m' : Machine C} {state after : σ}

theorem pushed_evalInstruction {opcode : UInt8} {vchPushValue pc : Bytes}
    (push : opcode ≤ op16) (active : Conditions.allTrue m.vfExec = true)
    (ran : evalInstruction crypto checker flags sigversion opcode vchPushValue pc m state =
      .ok m' after) :
    Conditions.allTrue m'.vfExec = true ∧ Pushed vchPushValue m'.stack := by
  obtain ⟨-, -, -, -, final, operated, -, rfl⟩ := evalInstruction_eq_ok.mp ran
  have uncounted : m.counted sigversion opcode = m :=
    if_neg fun counts => absurd push (UInt8.not_le.mpr counts.2)
  rw [uncounted, evalOperation] at operated
  simp only [active, true_and, true_or, if_true] at operated
  split_ifs at operated with data
  · obtain ⟨-, operated⟩ := require_bind_eq_ok.mp operated
    obtain ⟨rfl, -⟩ := pure_eq_ok.mp operated
    refine ⟨active, fun top head => .inl ?_⟩
    cases head
    rfl
  · by_cases number : opcode = op1Negate ∨ (op1 ≤ opcode ∧ opcode ≤ op16)
    · rw [show Opcode.ofByte opcode = .pushNumber (opcode.toNat - 0x50) from if_pos number]
        at operated
      obtain ⟨rfl, -⟩ := pure_eq_ok.mp operated
      refine ⟨active, fun top head => .inr ?_⟩
      cases head
      exact inert_number number
    · have reserved : Opcode.ofByte opcode = .bad := by
        have all : ∀ n : Fin 256, ¬ UInt8.ofNat n.1 ≤ opPushdata4 → UInt8.ofNat n.1 ≤ op16 →
            ¬ (UInt8.ofNat n.1 = op1Negate ∨
              (op1 ≤ UInt8.ofNat n.1 ∧ UInt8.ofNat n.1 ≤ op16)) →
            Opcode.ofByte (UInt8.ofNat n.1) = .bad := by
          decide +kernel
        have one := all ⟨opcode.toNat, opcode.toNat_lt⟩
        simp only [UInt8.ofNat_toNat] at one
        exact one data push number
      rw [reserved] at operated
      exact absurd operated throw_ne_ok

theorem pushed_evalLoop {pc data vData : Bytes} (pushes : lastPush data pc = some vData)
    (active : Conditions.allTrue m.vfExec = true) (pushed : Pushed data m.stack)
    (ran : evalLoop crypto checker flags sigversion pc m state = .ok m' after) :
    Pushed vData m'.stack := by
  induction pc using script_induction generalizing data m state with
  | ends pc ended =>
      rw [lastPush_of_none ended] at pushes
      split_ifs at pushes
      cases pushes
      rw [evalLoop_of_none _ _ _ _ ended] at ran
      obtain ⟨-, returned⟩ := require_bind_eq_ok.mp ran
      obtain ⟨rfl, -⟩ := pure_eq_ok.mp returned
      exact pushed
  | operation pc opcode vchPushValue rest found ih =>
      rw [lastPush_of_some found] at pushes
      split_ifs at pushes with high
      rw [evalLoop_of_some _ _ _ _ found] at ran
      obtain ⟨middle, between, first, rest⟩ := bind_eq_ok.mp ran
      obtain ⟨active, pushed⟩ := pushed_evalInstruction (UInt8.not_lt.mp high) active first
      exact ih pushes active pushed rest

end Run

/-- The script behind a hash is what the loop over `scriptSig` has read last. -/
theorem pushed_evalScript {scriptSig vData : Bytes} {stack : List Bytes} {state after : σ}
    {execdata : ScriptExecutionData}
    (pushes : lastPush [] scriptSig = some vData)
    (ran : evalScript crypto checker flags sigversion [] scriptSig execdata state =
      .ok stack after) : Pushed vData stack := by
  obtain ⟨-, ran⟩ := require_bind_eq_ok.mp ran
  obtain ⟨-, ran⟩ := require_bind_eq_ok.mp ran
  obtain ⟨m, between, looped, ran⟩ := bind_eq_ok.mp ran
  obtain ⟨-, returned⟩ := require_bind_eq_ok.mp ran
  obtain ⟨rfl, -⟩ := pure_eq_ok.mp returned
  exact pushed_evalLoop pushes rfl (fun _ impossible => by cases impossible) looped

end Pushes

/-! ## The verifier -/

section Verifier

variable {σ : Type} {crypto : ScriptCrypto} {checker : SignatureChecker σ} {flags : UInt32}
  {sigversion : SigVersion} {witness : List Bytes}

theorem costs_executeWitnessScript (stack : List Bytes) (execScript : Bytes)
    (execdata : ScriptExecutionData) :
    Costs spentSigOps (countedScript sigversion execScript)
      (executeWitnessScript crypto checker.counted flags stack execScript sigversion
        execdata) := by
  have runs : Costs spentSigOps (countedScript sigversion execScript)
      (runWitnessScript crypto checker.counted flags stack execScript sigversion execdata) :=
    .require_then fun _ => .require_then fun _ => (costs_evalScript _ _ _).then_free fun _ =>
      .require_then fun _ => .require
  rw [executeWitnessScript]
  split_ifs
  · refine .ofExcept_then fun success _ => ?_
    split_ifs
    · exact .require
    · exact runs
  · exact runs

theorem costs_evalWitnessProgram (short : ∀ item ∈ witness, item.length ≤ 4294967)
    (witversion : Int) (program : Bytes) (isP2sh : Bool) :
    Costs spentSigOps (witnessSigOps witversion program witness flags).toNat
      (evalWitnessProgram crypto checker.counted flags witness witversion program isP2sh) := by
  rw [evalWitnessProgram]
  cases executes : verifyWitnessProgram crypto.toScriptHashes checker.counted.taproot witness
      witversion program flags isP2sh with
  | failed error => exact .throw _
  | succeeded => exact .pure _
  | execute execution =>
      exact (costs_executeWitnessScript _ _ _).mono (verifyWitnessProgram_counted short executes)

theorem costs_verifyWitness (short : ∀ item ∈ witness, item.length ≤ 4294967)
    (scriptSig script expected : Bytes) (malleated : EvalError) (isP2sh hadWitness : Bool)
    (stack : List Bytes) :
    Costs spentSigOps (programSigOps script witness flags).toNat
      (verifyWitness crypto checker.counted flags scriptSig script expected malleated witness
        isP2sh hadWitness stack) := by
  rw [verifyWitness, programSigOps]
  cases isWitnessProgram script with
  | none => exact .pure _
  | some found =>
      exact .require_then fun _ => (costs_evalWitnessProgram short _ _ isP2sh).then_free fun _ =>
        .pure _

theorem costs_evalTrue (stack : List Bytes) (script : Bytes) :
    Costs spentSigOps (sigOpTotal true script)
      (evalTrue crypto checker.counted flags stack script) :=
  ((costs_evalScript _ _ _).mono (countedScript_le _ _)).then_free fun _ =>
    .require_then fun _ => .pure _

/-- The witness behind a script hash, if witnesses are verified. -/
def hashedProgramSigOps (flags : UInt32) (data : Bytes) (witness : List Bytes) : Nat :=
  if hasFlag flags scriptVerifyWitness then (programSigOps data witness flags).toNat else 0

theorem costs_verifyScriptHash (short : ∀ item ∈ witness, item.length ≤ 4294967)
    {scriptSig vData : Bytes} {hadWitness : Bool} {stackCopy : List Bytes}
    (pushed : Pushed vData stackCopy) :
    Costs spentSigOps (sigOpTotal true vData + hashedProgramSigOps flags vData witness)
      (verifyScriptHash crypto checker.counted flags scriptSig witness hadWitness stackCopy) := by
  refine .require_then fun _ => ?_
  cases stackCopy with
  | nil => exact .throw _
  | cons pubKey2 stack =>
      have counted : sigOpTotal true pubKey2 ≤ sigOpTotal true vData ∧
          hashedProgramSigOps flags pubKey2 witness ≤ hashedProgramSigOps flags vData witness := by
        obtain rfl | ⟨none, unwitnessed⟩ := pushed pubKey2 rfl
        · exact ⟨le_rfl, le_rfl⟩
        · refine ⟨none ▸ Nat.zero_le _, ?_⟩
          rw [hashedProgramSigOps, programSigOps, unwitnessed]
          split_ifs
          · exact Nat.zero_le _
          · exact Nat.zero_le _
      refine ((costs_evalTrue stack pubKey2).bind fun _ stack _ _ => ?_).mono
        (Nat.add_le_add counted.1 counted.2)
      rw [hashedProgramSigOps]
      split_ifs
      · exact costs_verifyWitness short _ _ _ _ _ _ _
      · exact .pure _

/-- What the accounting adds for a script behind its hash. -/
def redeemSigOps (flags : UInt32) (scriptSig scriptPubKey : Bytes) : Nat :=
  if hasFlag flags scriptVerifyP2sh ∧ isPayToScriptHash scriptPubKey then
    (lastPush [] scriptSig).elim 0 (sigOpTotal true)
  else 0

/-- The accounting covers the witness of the script, and the one behind its hash. -/
theorem exists_countWitnessSigOps (consistent : Consistent flags) (scriptSig scriptPubKey : Bytes)
    (witness : List Bytes) :
    ∃ witnessSigOps, countWitnessSigOps scriptSig scriptPubKey witness flags =
        some witnessSigOps ∧
      hashedProgramSigOps flags scriptPubKey witness ≤ witnessSigOps.toNat ∧
      ∀ vData, isPayToScriptHash scriptPubKey = true → isPushOnly scriptSig = true →
        lastPush [] scriptSig = some vData →
        hashedProgramSigOps flags vData witness ≤ witnessSigOps.toNat := by
  rw [countWitnessSigOps]
  by_cases witnessed : hasFlag flags scriptVerifyWitness = true
  · have p2sh := consistent.witness witnessed
    simp only [witnessed, p2sh, Bool.not_true, Bool.false_eq_true, if_false,
      hashedProgramSigOps, if_true]
    split_ifs with native hashed
    · refine ⟨_, rfl, le_rfl, fun vData hashed => ?_⟩
      rw [isWitnessProgram_of_isPayToScriptHash hashed] at native
      exact absurd native Bool.false_ne_true
    · have unwitnessed : programSigOps scriptPubKey witness flags = 0 := by
        rw [programSigOps, isWitnessProgram_of_isPayToScriptHash hashed.1]
      refine ⟨_, rfl, ?_, fun vData _ _ pushes => ?_⟩
      · rw [unwitnessed]
        exact Nat.zero_le _
      · rw [pushes]
        exact le_rfl
    · have unwitnessed : programSigOps scriptPubKey witness flags = 0 := by
        rw [Option.isSome_iff_ne_none, not_not] at native
        rw [programSigOps, native]
      refine ⟨_, rfl, ?_, fun vData hash pushes => absurd ⟨hash, pushes⟩ hashed⟩
      rw [unwitnessed]
  · simp only [Bool.not_eq_true] at witnessed
    simp only [witnessed, Bool.not_false, if_true, hashedProgramSigOps, Bool.false_eq_true,
      if_false]
    exact ⟨_, rfl, Nat.zero_le _, fun _ _ _ _ => Nat.zero_le _⟩

/-- No run of `VerifyScript` checks more signatures than are counted. -/
theorem costs_verifyScript (consistent : Consistent flags)
    (short : ∀ item ∈ witness, item.length ≤ 4294967) (scriptSig scriptPubKey : Bytes) :
    ∃ witnessSigOps, countWitnessSigOps scriptSig scriptPubKey witness flags =
        some witnessSigOps ∧
      Costs spentSigOps
        (sigOpTotal true scriptSig + (sigOpTotal true scriptPubKey +
          (redeemSigOps flags scriptSig scriptPubKey + witnessSigOps.toNat)))
        (verifyScript crypto checker.counted flags scriptSig scriptPubKey witness) := by
  obtain ⟨witnessSigOps, counted, native, wrapped⟩ :=
    exists_countWitnessSigOps consistent scriptSig scriptPubKey witness
  refine ⟨witnessSigOps, counted, .require_then fun _ => ?_⟩
  refine ((costs_evalScript [] scriptSig .new).mono (countedScript_le _ _)).bind
    fun _ stackCopy _ ran => ?_
  refine (costs_evalTrue stackCopy scriptPubKey).bind fun _ stack _ _ => ?_
  have witnessed : Costs spentSigOps (hashedProgramSigOps flags scriptPubKey witness)
      (if hasFlag flags scriptVerifyWitness then
        verifyWitness crypto checker.counted flags scriptSig scriptPubKey [] .witnessMalleated
          witness false false stack
      else pure (false, stack)) := by
    rw [hashedProgramSigOps]
    split_ifs
    · exact costs_verifyWitness short _ _ _ _ _ _ _
    · exact .pure _
  have remains (hadWitness : Bool) (stack : List Bytes) : Costs spentSigOps 0
      (verifyRemains flags witness hadWitness stack :
        EStateM EvalError (σ × CheckCounts) Unit) :=
    .require_then fun _ => .require_then fun _ => .require_then fun _ => .require
  by_cases hashed : hasFlag flags scriptVerifyP2sh ∧ isPayToScriptHash scriptPubKey
  · have unwitnessed : hashedProgramSigOps flags scriptPubKey witness = 0 := by
      rw [hashedProgramSigOps, programSigOps, isWitnessProgram_of_isPayToScriptHash hashed.2]
      split_ifs
      · rfl
      · rfl
    rw [unwitnessed] at witnessed
    refine (witnessed.bind fun _ (hadWitness, stack) _ _ => ?_).mono (Nat.zero_add _).le
    simp only [hashed, and_self, if_true]
    by_cases pushes : isPushOnly scriptSig = true
    · obtain ⟨vData, last⟩ := exists_lastPush pushes []
      refine ((costs_verifyScriptHash short (pushed_evalScript last ran)).then_free
        fun both => remains both.1 both.2).mono ?_
      rw [redeemSigOps, if_pos hashed, last]
      exact Nat.add_le_add_left (wrapped vData hashed.2 pushes last) _
    · have raised : Costs spentSigOps 0
          (verifyScriptHash crypto checker.counted flags scriptSig witness hadWitness stackCopy) :=
        .require_then fun pushed => absurd pushed pushes
      exact (raised.then_free fun both => remains both.1 both.2).mono (Nat.zero_le _)
  · refine (witnessed.then_free fun (hadWitness, stack) => ?_).mono
      (native.trans (Nat.le_add_left _ _))
    simp only [hashed, if_false]
    exact remains hadWitness stack

end Verifier

/-! ## The inputs of a transaction -/

theorem mapM_eq_some {α β : Type} {f : α → Option β} {g : α → β} {items : List α}
    (returns : ∀ item ∈ items, f item = some (g item)) : items.mapM f = some (items.map g) := by
  induction items with
  | nil => rfl
  | cons item items ih =>
      rw [List.forall_mem_cons] at returns
      rw [List.mapM_cons, returns.1, ih returns.2]
      rfl

namespace Spending

variable (crypto : TransactionCrypto) (spending : Spending)

/-- `CScriptCheck::operator()`, counting the checks. -/
def countedCheck (txdata : TaprootTransactionData) (flags : UInt32)
    (i : Fin spending.txTo.vin.length) :
    EStateM.Result EvalError (Option SigHashCache × CheckCounts) Unit :=
  verifyScript crypto.toScriptCrypto ((spending.checker txdata i).toSignatureChecker crypto).counted
    flags (spending.input i).scriptSig (spending.input i).scriptPubKey
    (spending.input i).scriptWitness (some SlotCache.empty, .zero)

/-- The signature operations of the checks that an input makes. -/
def executedSigOps (txdata : TaprootTransactionData) (flags : UInt32)
    (i : Fin spending.txTo.vin.length) : Nat :=
  spentSigOps (finalState (spending.countedCheck crypto txdata flags i))

/-- Counting does not change what a check says. -/
theorem hasReturned_countedCheck (txdata : TaprootTransactionData) (flags : UInt32)
    (i : Fin spending.txTo.vin.length) :
    hasReturned (spending.countedCheck crypto txdata flags i) =
      spending.scriptCheck crypto txdata flags i := by
  have agree := @agree_verifyScript _ _ crypto.toScriptCrypto _ _ flags _
    ((spending.checker txdata i).toSignatureChecker crypto).relatedCheckers_counted
    (spending.input i).scriptSig (spending.input i).scriptPubKey (spending.input i).scriptWitness
  exact (agree.hasReturned_eq rfl).symm

variable {crypto spending}

/-- What the checks of a transaction cost is covered by the cost that is limited, and by the
count of the scripts that it spends. -/
theorem executedSigOps_le (plain : spending.isCoinBase = false) (fits : spending.FitsCount)
    {flags : UInt32} (consistent : Consistent flags) (txdata : TaprootTransactionData) :
    (∀ i, hasReturned (spending.countedCheck crypto txdata flags i) =
      spending.scriptCheck crypto txdata flags i) ∧
    ∃ sigOpCost, spending.getTransactionSigOpCost flags = some sigOpCost ∧
      ((List.finRange _).map (spending.executedSigOps crypto txdata flags)).sum ≤
        sigOpCost + (spending.inputs.map fun input => sigOpTotal true input.scriptPubKey).sum := by
  refine ⟨spending.hasReturned_countedCheck crypto txdata flags, ?_⟩
  have each (i : Fin spending.txTo.vin.length) :=
    @costs_verifyScript _ crypto.toScriptCrypto
      ((spending.checker txdata i).toSignatureChecker crypto) flags _ consistent
      (fits.witnesses (spending.input i) (List.mem_map_of_mem (List.mem_finRange i)))
      (spending.input i).scriptSig (spending.input i).scriptPubKey
  choose witnessSigOps counted costs using each
  have counts : spending.inputs.mapM (fun input =>
      countWitnessSigOps input.scriptSig input.scriptPubKey input.scriptWitness flags) =
        some ((List.finRange _).map witnessSigOps) := by
    rw [inputs, List.mapM_map]
    exact mapM_eq_some fun i _ => counted i
  have bounded : ((List.finRange _).map (spending.executedSigOps crypto txdata flags)).sum ≤
      ((List.finRange _).map fun i => sigOpTotal true (spending.input i).scriptSig +
        (sigOpTotal true (spending.input i).scriptPubKey +
          (redeemSigOps flags (spending.input i).scriptSig (spending.input i).scriptPubKey +
            (witnessSigOps i).toNat))).sum :=
    List.sum_le_sum fun i _ => (costs i (some SlotCache.empty, .zero)).trans (Nat.zero_add _).le
  have sigs : ((List.finRange _).map fun i => sigOpTotal true (spending.input i).scriptSig).sum ≤
      (spending.inputs.map fun input => sigOpTotal false input.scriptSig).sum := by
    rw [inputs, List.map_map]
    exact List.sum_le_sum fun i _ => (sigOpTotal_le (spending.input i).scriptSig).1
  let p2sh := if hasFlag flags scriptVerifyP2sh then
      spending.getP2SHSigOpCount * witnessScaleFactor else 0
  have redeemed : ((List.finRange _).map fun i =>
      redeemSigOps flags (spending.input i).scriptSig (spending.input i).scriptPubKey).sum ≤
        p2sh.toNat := by
    simp only [p2sh, redeemSigOps]
    by_cases active : hasFlag flags scriptVerifyP2sh = true
    · simp only [active, true_and, if_true]
      rw [fits.p2sh plain, inputs, List.map_map]
      exact Nat.le_mul_of_pos_left _ (by decide)
    · simp [active]
  have cost : spending.getTransactionSigOpCost flags =
      some ((spending.getLegacySigOpCount * witnessScaleFactor).toNat +
        (p2sh.toNat + ((List.finRange _).map fun i => (witnessSigOps i).toNat).sum)) := by
    rw [getTransactionSigOpCost, inputSigOpCost, plain, if_neg Bool.false_ne_true, counts]
    simp only [Option.bind_eq_bind, Option.bind_some, Option.map_some, List.map_map]
    rfl
  refine ⟨_, cost, ?_⟩
  rw [fits.legacy]
  have spent : ((List.finRange _).map fun i => sigOpTotal true (spending.input i).scriptPubKey) =
      spending.inputs.map fun input => sigOpTotal true input.scriptPubKey := by
    rw [inputs, List.map_map]
    rfl
  simp only [List.sum_map_add, spent] at bounded
  omega

/-- `<key> CHECKSIG NOT VERIFY <Dilithium key> CHECKSIGDILITHIUM NOT`: wants two signatures that
fail. -/
def bothChecksScript : Bytes :=
  [0x21, 0x02] ++ List.replicate 32 0x11 ++ [opChecksig, 0x91, 0x69, opPushdata2, 0x20, 0x05] ++
    List.replicate 1312 0x07 ++ [opChecksigdilithium, 0x91]

/-- A transaction that gives it a Dilithium signature and an empty one. -/
def bothChecks : Spending :=
  ⟨spendingOne, [[opPushdata2, 0x75, 0x09] ++ List.replicate 2421 0x09 ++ [0x00]],
    [⟨1, bothChecksScript⟩], rfl, rfl⟩

def bothChecksData : TaprootTransactionData :=
  ⟨.default, .null, .null, .null, .null, .null, false, bothChecks.spentOutputs⟩

def bothChecksFlags : UInt32 := scriptVerifyP2sh ||| scriptVerifyDilithium

/-- One check of each kind is executed. -/
theorem executedSigOps_le_bothChecks :
    ((List.finRange 1).map (bothChecks.scriptCheck .idle bothChecksData bothChecksFlags) =
        [true] ∧
      (List.finRange 1).map (bothChecks.executedSigOps .idle bothChecksData bothChecksFlags) =
        [51]) ∧
    (∀ i, hasReturned (bothChecks.countedCheck .idle bothChecksData bothChecksFlags i) =
      bothChecks.scriptCheck .idle bothChecksData bothChecksFlags i) ∧
    ∃ sigOpCost, bothChecks.getTransactionSigOpCost bothChecksFlags = some sigOpCost ∧
      ((List.finRange _).map (bothChecks.executedSigOps .idle bothChecksData
        bothChecksFlags)).sum ≤
        sigOpCost + (bothChecks.inputs.map fun input => sigOpTotal true input.scriptPubKey).sum :=
  ⟨by decide +kernel, executedSigOps_le rfl ⟨by decide +kernel, by decide +kernel⟩
    ⟨by decide, by decide⟩ _⟩

end Spending

end QuantyCoin
