import QuantyCoin.ScriptVerifier
import QuantyCoin.StateSimulation

/-!
# Interpreters side by side

Two runs of the interpreter on the same script, with checkers that agree and with stacks of
conditions that answer alike, end alike.  The stack of conditions of the source is compared
with the list of Booleans that it stands for, and a checker with a cache is compared with
one without.
-/

namespace StateSimulation

open OrderedDict StateTriples

variable {ε σ τ α β : Type} {related : σ → τ → Prop}

/-! ## Programs that do not look at their states -/

namespace Agree

theorem throw (error : ε) : Agree related (throw error : EStateM ε σ α) (throw error) :=
  fun _ _ start => .error start

theorem require (condition : Prop) [Decidable condition] (error : ε) :
    Agree related (require condition error : EStateM ε σ Unit) (require condition error) := by
  by_cases holds : condition
  · rw [require_of holds, require_of holds]
    exact .pure ()
  · rw [require_of_not holds, require_of_not holds]
    exact .throw error

theorem ofExcept (outcome : Except ε α) :
    Agree related (ofExcept outcome : EStateM ε σ α) (ofExcept outcome) := by
  cases outcome with
  | ok value => exact .pure value
  | error error => exact .throw error

theorem ite {condition : Prop} [Decidable condition] {program other : EStateM ε σ α}
    {program' other' : EStateM ε τ α} (holds : Agree related program program')
    (fails : Agree related other other') :
    Agree related (if condition then program else other)
      (if condition then program' else other') := by
  by_cases decided : condition
  · rw [if_pos decided, if_pos decided]
    exact holds
  · rw [if_neg decided, if_neg decided]
    exact fails

/-- Where the states are the same, so are the outcomes. -/
theorem eq {program program' : EStateM ε σ α} (agree : Agree Eq program program') :
    program = program' := by
  funext state
  have alike := agree state state rfl
  generalize program state = outcome, program' state = outcome' at alike ⊢
  cases alike with
  | ok holds => exact congrArg₂ _ holds.1 holds.2
  | error same => exact congrArg _ same

/-- What the programs return or raise. -/
theorem outcome {program : EStateM ε σ α} {program' : EStateM ε τ α}
    (agree : Agree related program program') {state : σ} {state' : τ}
    (start : related state state') :
    returned (program state) = returned (program' state') := by
  have alike := agree state state' start
  generalize program state = outcome, program' state' = outcome' at alike ⊢
  cases alike with
  | ok holds => exact congrArg Except.ok holds.1
  | error _ => rfl

theorem hasReturned_eq {program : EStateM ε σ α} {program' : EStateM ε τ α}
    (agree : Agree related program program') {state : σ} {state' : τ}
    (start : related state state') :
    hasReturned (program state) = hasReturned (program' state') := by
  have alike := agree state state' start
  generalize program state = outcome, program' state' = outcome' at alike ⊢
  cases alike with
  | ok _ => rfl
  | error _ => rfl

end Agree

end StateSimulation

namespace QuantyCoin

open ByteDecoder StateSimulation StateTriples

/-- Stacks of conditions that answer alike, for so many more operations. -/
structure RelatedConditions {C C' : Type} [Conditions C] [Conditions C']
    (alike : Nat → C → C' → Prop) : Prop where
  weaken : ∀ {n vfExec vfExec'}, alike (n + 1) vfExec vfExec' → alike n vfExec vfExec'
  empty : ∀ {n vfExec vfExec'}, alike n vfExec vfExec' →
    Conditions.empty vfExec = Conditions.empty vfExec'
  allTrue : ∀ {n vfExec vfExec'}, alike n vfExec vfExec' →
    Conditions.allTrue vfExec = Conditions.allTrue vfExec'
  pushBack : ∀ {n vfExec vfExec'} (f : Bool), alike (n + 1) vfExec vfExec' →
    alike n (Conditions.pushBack vfExec f) (Conditions.pushBack vfExec' f)
  popBack : ∀ {n vfExec vfExec'}, alike n vfExec vfExec' → Conditions.empty vfExec = false →
    alike n (Conditions.popBack vfExec) (Conditions.popBack vfExec')
  toggleTop : ∀ {n vfExec vfExec'}, alike n vfExec vfExec' → Conditions.empty vfExec = false →
    alike n (Conditions.toggleTop vfExec) (Conditions.toggleTop vfExec')

/-- The checkers give the same answers from related states. -/
structure RelatedCheckers {σ τ : Type} (related : σ → τ → Prop) (checker : SignatureChecker σ)
    (checker' : SignatureChecker τ) : Prop where
  taproot : checker.taproot = checker'.taproot
  ecdsa : ∀ vchSig vchPubKey scriptCode sigversion, Agree related
    (checker.checkECDSASignature vchSig vchPubKey scriptCode sigversion)
    (checker'.checkECDSASignature vchSig vchPubKey scriptCode sigversion)
  schnorr : ∀ sig pubkey sigversion execdata, Agree related
    (checker.checkSchnorrSignature sig pubkey sigversion execdata)
    (checker'.checkSchnorrSignature sig pubkey sigversion execdata)
  dilithium : ∀ vchSig vchPubKey scriptCode sigversion execdata, Agree related
    (checker.checkDilithiumSignature vchSig vchPubKey scriptCode sigversion execdata)
    (checker'.checkDilithiumSignature vchSig vchPubKey scriptCode sigversion execdata)
  lockTime : checker.checkLockTime = checker'.checkLockTime
  sequence : checker.checkSequence = checker'.checkSequence

/-- The machines differ in their stacks of conditions only. -/
structure Machine.Alike {C C' : Type} (alike : C → C' → Prop) (m : Machine C) (m' : Machine C') :
    Prop where
  same : m' = { m with vfExec := m'.vfExec }
  conditions : alike m.vfExec m'.vfExec

section Checks

variable {σ τ : Type} {crypto : ScriptCrypto} {checker : SignatureChecker σ}
  {checker' : SignatureChecker τ} {flags : UInt32} {sigversion : SigVersion}
  {related : σ → τ → Prop}

/-! ## Checks of signatures -/

theorem agree_spendWeight (weight : Int) (execdata : ScriptExecutionData) :
    Agree related (spendWeight weight execdata) (spendWeight weight execdata) := by
  rw [spendWeight, spendWeight]
  cases execdata.validationWeightLeft with
  | none => exact .throw _
  | some left => exact .bind (.require _ _) fun _ => .pure _

theorem agree_dropSignature (scriptCode vchSig : Bytes) :
    Agree related (dropSignature flags sigversion scriptCode vchSig)
      (dropSignature flags sigversion scriptCode vchSig) :=
  .ite (.bind (.require _ _) fun _ => .pure _) (.pure _)

theorem agree_dropSignatures (scriptCode : Bytes) (sigs : List Bytes) :
    Agree related (dropSignatures flags sigversion scriptCode sigs)
      (dropSignatures flags sigversion scriptCode sigs) := by
  induction sigs generalizing scriptCode with
  | nil => exact .pure _
  | cons vchSig sigs ih => exact .bind (agree_dropSignature _ _) ih

theorem agree_requireDilithium :
    Agree related (requireDilithium flags sigversion) (requireDilithium flags sigversion) :=
  .bind (.require _ _) fun _ => .require _ _

variable (agree : RelatedCheckers related checker checker')

include agree

theorem agree_checkEncodedSignature (vchSig vchPubKey scriptCode : Bytes) :
    Agree related
      (checkEncodedSignature crypto checker flags sigversion vchSig vchPubKey scriptCode)
      (checkEncodedSignature crypto checker' flags sigversion vchSig vchPubKey scriptCode) :=
  .bind (.ofExcept _) fun _ => .bind (.ofExcept _) fun _ => agree.ecdsa _ _ _ _

theorem agree_evalChecksigPreTapscript (vchSig vchPubKey scriptCode : Bytes) :
    Agree related
      (evalChecksigPreTapscript crypto checker flags sigversion vchSig vchPubKey scriptCode)
      (evalChecksigPreTapscript crypto checker' flags sigversion vchSig vchPubKey scriptCode) :=
  .bind (agree_dropSignature _ _) fun _ => .bind (agree_checkEncodedSignature agree _ _ _)
    fun _ => .bind (.require _ _) fun _ => .pure _

theorem agree_evalChecksigTapscript (sig pubkey : Bytes) (execdata : ScriptExecutionData) :
    Agree related (evalChecksigTapscript checker flags sigversion sig pubkey execdata)
      (evalChecksigTapscript checker' flags sigversion sig pubkey execdata) := by
  refine .bind (.ite (agree_spendWeight _ _) (.pure _)) fun execdata => ?_
  refine .ite (.throw _) (.ite ?_ ?_)
  · exact .bind (.ite (agree.schnorr _ _ _ _) (.pure _)) fun _ => .pure _
  · exact .bind (.require _ _) fun _ => .pure _

theorem agree_evalChecksig (sig pubkey scriptCode : Bytes) (execdata : ScriptExecutionData) :
    Agree related (evalChecksig crypto checker flags sigversion sig pubkey scriptCode execdata)
      (evalChecksig crypto checker' flags sigversion sig pubkey scriptCode execdata) :=
  .ite (agree_evalChecksigTapscript agree _ _ _)
    (.bind (agree_evalChecksigPreTapscript agree _ _ _) fun _ => .pure _)

theorem agree_evalChecksigDilithium (sig pubkey scriptCode : Bytes)
    (execdata : ScriptExecutionData) :
    Agree related (evalChecksigDilithium checker sigversion sig pubkey scriptCode execdata)
      (evalChecksigDilithium checker' sigversion sig pubkey scriptCode execdata) :=
  .bind (.require _ _) fun _ => .bind (.require _ _) fun _ =>
    .bind (.ite (agree_spendWeight _ _) (.pure _)) fun _ => agree.dilithium _ _ _ _ _

omit agree in
theorem agree_matchSignatures {α : Type}
    {check : α → Bytes → Bytes → EStateM EvalError σ (Bool × α)}
    {check' : α → Bytes → Bytes → EStateM EvalError τ (Bool × α)}
    (checks : ∀ execdata vchSig vchPubKey,
      Agree related (check execdata vchSig vchPubKey) (check' execdata vchSig vchPubKey))
    (execdata : α) (sigs keys : List Bytes) :
    Agree related (matchSignatures check execdata sigs keys)
      (matchSignatures check' execdata sigs keys) := by
  induction keys generalizing execdata sigs with
  | nil => cases sigs <;> exact .pure _
  | cons vchPubKey keys ih =>
      cases sigs with
      | nil => exact .pure _
      | cons vchSig sigs =>
          refine .bind (checks execdata vchSig vchPubKey) fun (fOk, execdata) => ?_
          exact .ite (.pure _) (ih execdata _)

end Checks

/-! ## Operations -/

/-- The programs return machines that are alike, or raise the same. -/
def Together {σ τ C C' : Type} (related : σ → τ → Prop) (alike : C → C' → Prop)
    (program : EStateM EvalError σ (Machine C)) (program' : EStateM EvalError τ (Machine C')) :
    Prop :=
  Simulates related program program'
    (fun m m' state state' => m.Alike alike m' ∧ related state state') related

namespace Together

variable {σ τ C C' α : Type} {related : σ → τ → Prop} {alike : C → C' → Prop}
  {program : EStateM EvalError σ (Machine C)} {program' : EStateM EvalError τ (Machine C')}

theorem pure {m : Machine C} {m' : Machine C'} (both : m.Alike alike m') :
    Together related alike (Pure.pure m) (Pure.pure m') :=
  Simulates.pure fun _ _ holds => ⟨both, holds⟩

theorem throw (error : EvalError) :
    Together related alike (throw error) (MonadExcept.throw error) :=
  fun _ _ start => .error start

theorem bind {first : EStateM EvalError σ α} {first' : EStateM EvalError τ α}
    {next : α → EStateM EvalError σ (Machine C)} {next' : α → EStateM EvalError τ (Machine C')}
    (agree : Agree related first first')
    (follows : ∀ value, Together related alike (next value) (next' value)) :
    Together related alike (first >>= next) (first' >>= next') := by
  apply Simulates.bind agree
  intro value value'
  apply Simulates.assuming
  rintro rfl
  exact follows value

/-- A machine is handed on. -/
theorem follow {alike' : C → C' → Prop} {next : Machine C → EStateM EvalError σ (Machine C)}
    {next' : Machine C' → EStateM EvalError τ (Machine C')}
    (first : Together related alike program program')
    (follows : ∀ m m', m.Alike alike m' → Together related alike' (next m) (next' m')) :
    Together related alike' (program >>= next) (program' >>= next') := by
  apply Simulates.bind first
  intro m m'
  apply Simulates.assuming
  exact follows m m'

theorem ite {condition condition' : Prop} [Decidable condition] [Decidable condition']
    {other : EStateM EvalError σ (Machine C)} {other' : EStateM EvalError τ (Machine C')}
    (same : condition ↔ condition')
    (holds : condition → Together related alike program program')
    (fails : ¬ condition → Together related alike other other') :
    Together related alike (if condition then program else other)
      (if condition' then program' else other') := by
  by_cases decided : condition
  · rw [if_pos decided, if_pos (same.mp decided)]
    exact holds decided
  · rw [if_neg decided, if_neg fun other => decided (same.mpr other)]
    exact fails decided

end Together

section Operations

variable {σ τ C C' : Type} {crypto : ScriptCrypto} {checker : SignatureChecker σ}
  {checker' : SignatureChecker τ} {flags : UInt32} {sigversion : SigVersion}
  {related : σ → τ → Prop} {alike : C → C' → Prop} {m : Machine C} {m' : Machine C'}

theorem together_evalCheckmultisig (agree : RelatedCheckers related checker checker')
    (verifies : Bool) (both : m.Alike alike m') :
    Together related alike (evalCheckmultisig crypto checker flags sigversion verifies m)
      (evalCheckmultisig crypto checker' flags sigversion verifies m') := by
  rw [both.same]
  refine .bind (.require _ _) fun _ => .bind (.ofExcept _) fun arguments => ?_
  refine .bind (agree_dropSignatures _ _) fun scriptCode => ?_
  refine .bind (agree_matchSignatures (fun _ vchSig vchPubKey => ?_) _ _ _) fun (fSuccess, _) => ?_
  · exact .bind (agree_checkEncodedSignature agree _ _ _) fun _ => .pure _
  · exact .bind (.ofExcept _) fun _ => .pure ⟨rfl, both.conditions⟩

theorem together_evalCheckmultisigDilithium (agree : RelatedCheckers related checker checker')
    (verifies : Bool) (both : m.Alike alike m') :
    Together related alike (evalCheckmultisigDilithium checker flags sigversion verifies m)
      (evalCheckmultisigDilithium checker' flags sigversion verifies m') := by
  rw [both.same]
  refine .bind agree_requireDilithium fun _ => .bind (.ofExcept _) fun arguments => ?_
  refine .bind
    (agree_matchSignatures (fun _ _ _ => agree_evalChecksigDilithium agree _ _ _ _) _ _ _)
    fun (fSuccess, execdata) => ?_
  exact .bind (.ofExcept _) fun _ => .pure ⟨rfl, both.conditions⟩

theorem together_evalChecklocktimeverify (agree : RelatedCheckers related checker checker')
    (both : m.Alike alike m') :
    Together related alike (evalChecklocktimeverify checker flags m)
      (evalChecklocktimeverify checker' flags m') := by
  rw [both.same, evalChecklocktimeverify, evalChecklocktimeverify, agree.lockTime]
  refine .ite Iff.rfl (fun _ => .pure ⟨rfl, both.conditions⟩) fun _ => ?_
  refine .bind (.ofExcept _) fun _ => .bind (.ofExcept _) fun _ => ?_
  exact .bind (.require _ _) fun _ => .bind (.require _ _) fun _ => .pure ⟨rfl, both.conditions⟩

theorem together_evalChecksequenceverify (agree : RelatedCheckers related checker checker')
    (both : m.Alike alike m') :
    Together related alike (evalChecksequenceverify checker flags m)
      (evalChecksequenceverify checker' flags m') := by
  rw [both.same, evalChecksequenceverify, evalChecksequenceverify, agree.sequence]
  refine .ite Iff.rfl (fun _ => .pure ⟨rfl, both.conditions⟩) fun _ => ?_
  refine .bind (.ofExcept _) fun _ => .bind (.ofExcept _) fun _ => .bind (.require _ _) fun _ => ?_
  refine .ite Iff.rfl (fun _ => .pure ⟨rfl, both.conditions⟩) fun _ => ?_
  exact .bind (.require _ _) fun _ => .pure ⟨rfl, both.conditions⟩

theorem together_evalChecksigOp (agree : RelatedCheckers related checker checker')
    (verifies : Bool) (both : m.Alike alike m') :
    Together related alike (evalChecksigOp crypto checker flags sigversion verifies m)
      (evalChecksigOp crypto checker' flags sigversion verifies m') := by
  rw [both.same]
  refine .bind (.ofExcept _) fun _ => .bind (.ofExcept _) fun _ => ?_
  refine .bind (agree_evalChecksig agree _ _ _ _) fun _ => ?_
  exact .bind (.ofExcept _) fun _ => .pure ⟨rfl, both.conditions⟩

theorem together_evalChecksigadd (agree : RelatedCheckers related checker checker')
    (both : m.Alike alike m') :
    Together related alike (evalChecksigadd crypto checker flags sigversion m)
      (evalChecksigadd crypto checker' flags sigversion m') := by
  rw [both.same]
  refine .bind (.require _ _) fun _ => .bind (.ofExcept _) fun _ => .bind (.ofExcept _) fun _ => ?_
  refine .bind (.ofExcept _) fun _ => .bind (.ofExcept _) fun _ => ?_
  exact .bind (agree_evalChecksig agree _ _ _ _) fun _ => .pure ⟨rfl, both.conditions⟩

theorem together_evalChecksigDilithiumOp (agree : RelatedCheckers related checker checker')
    (verifies : Bool) (both : m.Alike alike m') :
    Together related alike (evalChecksigDilithiumOp checker flags sigversion verifies m)
      (evalChecksigDilithiumOp checker' flags sigversion verifies m') := by
  rw [both.same]
  refine .bind agree_requireDilithium fun _ => .bind (.ofExcept _) fun _ => ?_
  refine .bind (.ofExcept _) fun _ => .bind (agree_evalChecksigDilithium agree _ _ _ _) fun _ => ?_
  exact .bind (.require _ _) fun _ => .bind (.ofExcept _) fun _ => .pure ⟨rfl, both.conditions⟩

end Operations

section Runs

variable {σ τ C C' : Type} [Conditions C] [Conditions C'] {crypto : ScriptCrypto}
  {checker : SignatureChecker σ} {checker' : SignatureChecker τ} {flags : UInt32}
  {sigversion : SigVersion} {related : σ → τ → Prop} {alike : Nat → C → C' → Prop} {n : Nat}
  {m : Machine C} {m' : Machine C'}

theorem together_evalIf (conditions : RelatedConditions alike) (notif : Bool)
    (both : m.Alike (alike (n + 1)) m') :
    Together related (alike n) (evalIf flags sigversion notif m)
      (evalIf flags sigversion notif m') := by
  rw [both.same, evalIf, evalIf, conditions.allTrue both.conditions]
  refine .ite Iff.rfl (fun _ => ?_) fun _ => .pure ⟨rfl, conditions.pushBack _ both.conditions⟩
  dsimp only
  cases m.stack with
  | nil => exact .throw _
  | cons vch below =>
      exact .bind (.require _ _) fun _ => .bind (.require _ _) fun _ =>
        .pure ⟨rfl, conditions.pushBack _ both.conditions⟩

theorem together_evalOpcode (conditions : RelatedConditions alike)
    (agree : RelatedCheckers related checker checker') (opcode : Opcode) (pc : Bytes)
    (both : m.Alike (alike (n + 1)) m') :
    Together related (alike n) (evalOpcode crypto checker flags sigversion opcode pc m)
      (evalOpcode crypto checker' flags sigversion opcode pc m') := by
  have weaker : m.Alike (alike n) m' := ⟨both.same, conditions.weaken both.conditions⟩
  have occupied : ∀ {error : EvalError} {next : EStateM EvalError σ (Machine C)}
      {next' : EStateM EvalError τ (Machine C')},
      (Conditions.empty m.vfExec = false → Together related (alike n) next next') →
      Together related (alike n) (require (!Conditions.empty m.vfExec) error >>= fun _ => next)
        (require (!Conditions.empty m'.vfExec) error >>= fun _ => next') := by
    intro error next next' follows
    rw [← conditions.empty both.conditions]
    cases empty : Conditions.empty m.vfExec with
    | true => exact .throw error
    | false => exact follows empty
  cases opcode with
  | pushNumber number =>
      rw [both.same]
      exact .pure ⟨rfl, weaker.conditions⟩
  | nop => exact .pure weaker
  | checklocktimeverify => exact together_evalChecklocktimeverify agree weaker
  | checksequenceverify => exact together_evalChecksequenceverify agree weaker
  | upgradableNop => exact .bind (.require _ _) fun _ => .pure weaker
  | opIf notif => exact together_evalIf conditions notif both
  | opElse =>
      refine occupied fun empty => ?_
      rw [both.same]
      exact .pure ⟨rfl, conditions.toggleTop weaker.conditions empty⟩
  | endif =>
      refine occupied fun empty => ?_
      rw [both.same]
      exact .pure ⟨rfl, conditions.popBack weaker.conditions empty⟩
  | stack op =>
      rw [both.same]
      exact .bind (.ofExcept _) fun _ => .pure ⟨rfl, weaker.conditions⟩
  | numeric op =>
      rw [both.same]
      exact .bind (.ofExcept _) fun _ => .pure ⟨rfl, weaker.conditions⟩
  | hash op =>
      rw [both.same]
      exact .bind (.ofExcept _) fun _ => .pure ⟨rfl, weaker.conditions⟩
  | codeseparator =>
      rw [both.same]
      exact .pure ⟨rfl, weaker.conditions⟩
  | checksig verifies => exact together_evalChecksigOp agree verifies weaker
  | checksigadd => exact together_evalChecksigadd agree weaker
  | checkmultisig verifies => exact together_evalCheckmultisig agree verifies weaker
  | checksigdilithium verifies => exact together_evalChecksigDilithiumOp agree verifies weaker
  | checkmultisigdilithium verifies =>
      exact together_evalCheckmultisigDilithium agree verifies weaker
  | dilithiumPubkey =>
      rw [both.same]
      exact .bind agree_requireDilithium fun _ => .bind (.ofExcept _) fun _ =>
        .pure ⟨rfl, weaker.conditions⟩
  | bad => exact .throw _

theorem together_evalInstruction (conditions : RelatedConditions alike)
    (agree : RelatedCheckers related checker checker') (opcode : UInt8) (vchPushValue pc : Bytes)
    (both : m.Alike (alike (n + 1)) m') :
    Together related (alike n)
      (evalInstruction crypto checker flags sigversion opcode vchPushValue pc m)
      (evalInstruction crypto checker' flags sigversion opcode vchPushValue pc m') := by
  have counted : Together related (alike (n + 1)) (countOperation sigversion opcode m)
      (countOperation sigversion opcode m') := by
    rw [both.same]
    exact .ite Iff.rfl (fun _ => .bind (.require _ _) fun _ => .pure ⟨rfl, both.conditions⟩)
      fun _ => .pure ⟨rfl, both.conditions⟩
  have operated : ∀ m m', m.Alike (alike (n + 1)) m' → Together related (alike n)
      (evalOperation crypto checker flags sigversion opcode vchPushValue pc m)
      (evalOperation crypto checker' flags sigversion opcode vchPushValue pc m') := by
    intro m m' both
    rw [evalOperation, evalOperation, conditions.allTrue both.conditions]
    refine .ite Iff.rfl (fun _ => ?_) fun _ => .ite Iff.rfl (fun _ => ?_) fun _ => ?_
    · rw [both.same]
      exact .bind (.require _ _) fun _ => .pure ⟨rfl, conditions.weaken both.conditions⟩
    · exact together_evalOpcode conditions agree _ pc both
    · exact .pure ⟨both.same, conditions.weaken both.conditions⟩
  refine .bind (.require _ _) fun _ => .follow counted fun m m' both => ?_
  refine .bind (.require _ _) fun _ => .bind (.require _ _) fun _ => ?_
  refine .follow (operated m m' both) fun final final' both => ?_
  rw [both.same]
  exact .bind (.require _ _) fun _ => .pure ⟨rfl, both.conditions⟩

/-- The run lemma: every operation takes at least one byte. -/
theorem together_evalLoop (conditions : RelatedConditions alike)
    (agree : RelatedCheckers related checker checker') (pc : Bytes)
    (both : m.Alike (alike pc.length) m') :
    Together related (alike 0) (evalLoop crypto checker flags sigversion pc m)
      (evalLoop crypto checker' flags sigversion pc m') := by
  have weakens : ∀ {k l : Nat} {vfExec : C} {vfExec' : C'}, k ≤ l → alike l vfExec vfExec' →
      alike k vfExec vfExec' := by
    intro k l vfExec vfExec' le
    induction le with
    | refl => exact id
    | step _ ih => exact fun holds => ih (conditions.weaken holds)
  induction pc using script_induction generalizing m m' with
  | ends pc ended =>
      rw [evalLoop_of_none _ _ _ _ ended, evalLoop_of_none _ _ _ _ ended]
      exact .bind (.require _ _) fun _ =>
        .pure ⟨both.same, weakens (Nat.zero_le _) both.conditions⟩
  | operation pc opcode vchPushValue rest found ih =>
      rw [evalLoop_of_some _ _ _ _ found, evalLoop_of_some _ _ _ _ found]
      have shorter : rest.length + 1 ≤ pc.length := getScriptOp_shorter found
      exact .follow (together_evalInstruction conditions agree opcode vchPushValue rest
        ⟨both.same, weakens shorter both.conditions⟩) fun m m' both => ih both

/-- `EvalScript`, where the conditions of a whole script are alike. -/
theorem agree_evalScriptWith (conditions : RelatedConditions alike)
    (agree : RelatedCheckers related checker checker') (stack : List Bytes) (script : Bytes)
    (execdata : ScriptExecutionData)
    (start : (!sigversion.isTapscript → script.length ≤ maxScriptSize) →
      alike script.length Conditions.new Conditions.new) :
    Agree related (evalScriptWith crypto checker flags sigversion C stack script execdata)
      (evalScriptWith crypto checker' flags sigversion C' stack script execdata) := by
  refine .bind (.require _ _) fun _ => ?_
  by_cases sized : !sigversion.isTapscript → script.length ≤ maxScriptSize
  · rw [require_of sized, require_of sized]
    have begins : (Machine.start stack script execdata : Machine C).Alike (alike script.length)
        (Machine.start stack script execdata : Machine C') := ⟨rfl, start sized⟩
    refine .bind (.pure ()) fun _ => ?_
    refine Simulates.bind (together_evalLoop conditions agree script begins) fun m m' => ?_
    refine Simulates.assuming fun both => ?_
    rw [both.same, conditions.empty both.conditions]
    exact Agree.bind (.require _ _) fun _ => .pure _
  · rw [require_of_not sized, require_of_not sized]
    exact .throw _

end Runs

/-! ## The stack of conditions -/

/-- A stack of conditions and the list that it stands for, with room for more. -/
def ConditionStack.Counts (n : Nat) (vfExec : ConditionStack) (conditions : List Bool) : Prop :=
  vfExec.Represents conditions ∧ conditions.length + n ≤ noFalse.toNat

theorem ConditionStack.relatedConditions : RelatedConditions ConditionStack.Counts where
  weaken both := ⟨both.1, Nat.le_of_succ_le both.2⟩
  empty both := both.1.empty
  allTrue both := both.1.allTrue
  pushBack := by
    intro n vfExec conditions f both
    obtain ⟨represents, room⟩ := both
    exact ⟨represents.pushBack f (by omega),
      by change conditions.length + 1 + n ≤ noFalse.toNat; omega⟩
  popBack := by
    intro n vfExec conditions both occupied
    obtain ⟨represents, room⟩ := both
    rw [represents.empty] at occupied
    cases conditions with
    | nil => cases occupied
    | cons f below =>
        rw [List.length_cons] at room
        exact ⟨represents.popBack, by change below.length + n ≤ noFalse.toNat; omega⟩
  toggleTop := by
    intro n vfExec conditions both occupied
    obtain ⟨represents, room⟩ := both
    rw [represents.empty] at occupied
    cases conditions with
    | nil => cases occupied
    | cons f below => exact ⟨represents.toggleTop, room⟩

/-- The interpreter with the stack of conditions is the interpreter with the list of
Booleans, as long as a script is shorter than the positions that it counts. -/
theorem evalScript_eq_evalScriptWith {σ : Type} (crypto : ScriptCrypto)
    (checker : SignatureChecker σ) (flags : UInt32) (sigversion : SigVersion)
    (stack : List Bytes) (script : Bytes) (execdata : ScriptExecutionData)
    (short : sigversion.isTapscript = true → script.length ≤ ConditionStack.noFalse.toNat) :
    evalScript crypto checker flags sigversion stack script execdata =
      evalScriptWith crypto checker flags sigversion (List Bool) stack script execdata := by
  have checkers : RelatedCheckers Eq checker checker :=
    have same {α : Type} (program : EStateM EvalError σ α) : Agree Eq program program := by
      rintro state _ rfl
      cases program state with
      | ok value after => exact .ok ⟨rfl, rfl⟩
      | error error after => exact .error rfl
    ⟨rfl, fun _ _ _ _ => same _, fun _ _ _ _ => same _, fun _ _ _ _ _ => same _, rfl, rfl⟩
  refine Agree.eq (agree_evalScriptWith ConditionStack.relatedConditions checkers stack script
    execdata fun sized => ⟨.new, ?_⟩)
  change 0 + script.length ≤ ConditionStack.noFalse.toNat
  rw [Nat.zero_add]
  cases tapscript : sigversion.isTapscript with
  | true => exact short tapscript
  | false =>
      rw [tapscript] at sized
      exact le_trans (sized rfl) (by decide)

/-- A conditional in the first branch of another one, both with an `OP_ELSE`, that has to
leave 2: `1 IF 0 NOTIF 2 ELSE 3 ENDIF ELSE 4 ENDIF 2 EQUALVERIFY`. -/
def nestedScript : Bytes :=
  [op1, opIf, 0x00, 0x64, op2, 0x67, 0x53, opEndif, 0x67, 0x54, opEndif, op2, opEqualverify]

theorem evalScript_eq_evalScriptWith_nested :
    evalScript .idle .base 0 .p2mrTapscript [] nestedScript .new =
        evalScriptWith .idle .base 0 .p2mrTapscript (List Bool) [] nestedScript .new ∧
      hasReturned (evalScript .idle .base 0 .p2mrTapscript [] nestedScript .new ()) = true :=
  ⟨evalScript_eq_evalScriptWith .idle .base 0 .p2mrTapscript [] nestedScript .new
    fun _ => by decide, by decide +kernel⟩

/-! ## The verifier -/

theorem relatedConditions_eq {C : Type} [Conditions C] :
    RelatedConditions fun (_ : Nat) (vfExec vfExec' : C) => vfExec = vfExec' where
  weaken same := same
  empty same := by rw [same]
  allTrue same := by rw [same]
  pushBack _ same := by rw [same]
  popBack same _ := by rw [same]
  toggleTop same _ := by rw [same]

section Verifier

variable {σ τ : Type} {crypto : ScriptCrypto} {checker : SignatureChecker σ}
  {checker' : SignatureChecker τ} {flags : UInt32} {related : σ → τ → Prop}

theorem agree_evalScript (agree : RelatedCheckers related checker checker')
    (sigversion : SigVersion) (stack : List Bytes) (script : Bytes)
    (execdata : ScriptExecutionData) :
    Agree related (evalScript crypto checker flags sigversion stack script execdata)
      (evalScript crypto checker' flags sigversion stack script execdata) :=
  agree_evalScriptWith relatedConditions_eq agree stack script execdata fun _ => rfl

theorem agree_runWitnessScript (agree : RelatedCheckers related checker checker')
    (stack : List Bytes) (execScript : Bytes) (sigversion : SigVersion)
    (execdata : ScriptExecutionData) :
    Agree related (runWitnessScript crypto checker flags stack execScript sigversion execdata)
      (runWitnessScript crypto checker' flags stack execScript sigversion execdata) :=
  .bind (.require _ _) fun _ => .bind (.require _ _) fun _ =>
    .bind (agree_evalScript agree sigversion _ _ _) fun _ => .bind (.require _ _) fun _ =>
      .require _ _

theorem agree_executeWitnessScript (agree : RelatedCheckers related checker checker')
    (stack : List Bytes) (execScript : Bytes) (sigversion : SigVersion)
    (execdata : ScriptExecutionData) :
    Agree related (executeWitnessScript crypto checker flags stack execScript sigversion execdata)
      (executeWitnessScript crypto checker' flags stack execScript sigversion execdata) :=
  .ite (.bind (.ofExcept _) fun _ =>
      .ite (.require _ _) (agree_runWitnessScript agree _ _ sigversion _))
    (agree_runWitnessScript agree _ _ sigversion _)

theorem agree_evalWitnessProgram (agree : RelatedCheckers related checker checker')
    (witness : List Bytes) (witversion : Int) (program : Bytes) (isP2sh : Bool) :
    Agree related (evalWitnessProgram crypto checker flags witness witversion program isP2sh)
      (evalWitnessProgram crypto checker' flags witness witversion program isP2sh) := by
  rw [evalWitnessProgram, evalWitnessProgram, agree.taproot]
  cases verifyWitnessProgram crypto.toScriptHashes checker'.taproot witness witversion program
      flags isP2sh with
  | failed error => exact .throw _
  | succeeded => exact .pure ()
  | execute execution => exact agree_executeWitnessScript agree _ _ _ _

theorem agree_verifyWitness (agree : RelatedCheckers related checker checker')
    (scriptSig script expected : Bytes) (malleated : EvalError) (witness : List Bytes)
    (isP2sh hadWitness : Bool) (stack : List Bytes) :
    Agree related
      (verifyWitness crypto checker flags scriptSig script expected malleated witness isP2sh
        hadWitness stack)
      (verifyWitness crypto checker' flags scriptSig script expected malleated witness isP2sh
        hadWitness stack) := by
  rw [verifyWitness, verifyWitness]
  cases isWitnessProgram script with
  | none => exact .pure _
  | some found =>
      exact .bind (.require _ _) fun _ => .bind (agree_evalWitnessProgram agree _ _ _ _)
        fun _ => .pure _

theorem agree_evalTrue (agree : RelatedCheckers related checker checker') (stack : List Bytes)
    (script : Bytes) :
    Agree related (evalTrue crypto checker flags stack script)
      (evalTrue crypto checker' flags stack script) :=
  .bind (agree_evalScript agree _ _ _ _) fun _ => .bind (.require _ _) fun _ => .pure _

theorem agree_verifyScriptHash (agree : RelatedCheckers related checker checker')
    (scriptSig : Bytes) (witness : List Bytes) (hadWitness : Bool) (stackCopy : List Bytes) :
    Agree related (verifyScriptHash crypto checker flags scriptSig witness hadWitness stackCopy)
      (verifyScriptHash crypto checker' flags scriptSig witness hadWitness stackCopy) := by
  cases stackCopy with
  | nil => exact .bind (.require _ _) fun _ => .throw _
  | cons pubKey2 stack =>
      exact .bind (.require _ _) fun _ => .bind (agree_evalTrue agree _ _) fun _ =>
        .ite (agree_verifyWitness agree _ _ _ _ _ _ _ _) (.pure _)

/-- `VerifyScript` with checkers that agree. -/
theorem agree_verifyScript (agree : RelatedCheckers related checker checker')
    (scriptSig scriptPubKey : Bytes) (witness : List Bytes) :
    Agree related (verifyScript crypto checker flags scriptSig scriptPubKey witness)
      (verifyScript crypto checker' flags scriptSig scriptPubKey witness) := by
  refine .bind (.require _ _) fun _ => .bind (agree_evalScript agree _ _ _ _) fun stackCopy => ?_
  refine .bind (agree_evalTrue agree _ _) fun stack => ?_
  refine .bind (.ite (agree_verifyWitness agree _ _ _ _ _ _ _ _) (.pure _))
    fun (hadWitness, stack) => ?_
  refine .bind (.ite (agree_verifyScriptHash agree _ _ _ _) (.pure _))
    fun (hadWitness, stack) => ?_
  exact .bind (.require _ _) fun _ => .bind (.require _ _) fun _ => .bind (.require _ _) fun _ =>
    .require _ _

end Verifier

end QuantyCoin
