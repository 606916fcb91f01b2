import QuantyCoin.ScriptVerifier

/-!
# Invariants of the interpreter

An assertion about the execution data and the state behind the signature checker holds
throughout a script if every check of a signature keeps it.  The rest of the interpreter
reads neither, apart from the position of `OP_CODESEPARATOR`.
-/

namespace QuantyCoin

open ByteDecoder StateTriples

/-- What the checks of signatures have to keep, and what is left of it by an error. -/
structure CheckInvariant {σ : Type} (crypto : ScriptCrypto) (checker : SignatureChecker σ)
    (flags : UInt32) (sigversion : SigVersion) (holds : ScriptExecutionData → σ → Prop)
    (raised : σ → Prop) : Prop where
  raises : ∀ {execdata state}, holds execdata state → raised state
  separator : ∀ {execdata state} (pos : Option UInt32), holds execdata state →
    holds { execdata with codeseparatorPos := pos } state
  ecdsa : sigversion.isTapscript = false → ∀ execdata vchSig vchPubKey scriptCode,
    Triple (holds execdata) (checker.checkECDSASignature vchSig vchPubKey scriptCode sigversion)
      (fun _ => holds execdata) raised
  schnorr : sigversion.isTapscript = true → ∀ execdata sig pubkey,
    Triple (holds execdata) (evalChecksigTapscript checker flags sigversion sig pubkey execdata)
      (fun both => holds both.2) raised
  dilithium : ∀ execdata sig pubkey scriptCode,
    Triple (holds execdata)
      (evalChecksigDilithium checker sigversion sig pubkey scriptCode execdata)
      (fun both => holds both.2) raised

namespace CheckInvariant

variable {σ C : Type} {crypto : ScriptCrypto} {checker : SignatureChecker σ} {flags : UInt32}
  {sigversion : SigVersion} {holds : ScriptExecutionData → σ → Prop} {raised : σ → Prop}
  {execdata : ScriptExecutionData} {m : Machine C}

section Steps

variable {α β : Type} {post : β → σ → Prop}

/-- A step that does not look at the state. -/
theorem require_then (kept : CheckInvariant crypto checker flags sigversion holds raised)
    {condition : Prop} [Decidable condition] {error : EvalError}
    {next : Unit → EStateM EvalError σ β}
    (follows : Triple (holds execdata) (next ()) post raised) :
    Triple (holds execdata) (require condition error >>= next) post raised :=
  (Triple.require fun _ => kept.raises).bind fun _ => .assuming fun _ => follows

theorem ofExcept_then (kept : CheckInvariant crypto checker flags sigversion holds raised)
    {outcome : Except EvalError α} {next : α → EStateM EvalError σ β}
    (follows : ∀ value, Triple (holds execdata) (next value) post raised) :
    Triple (holds execdata) (ofExcept outcome >>= next) post raised :=
  (Triple.ofExcept fun _ => kept.raises).bind fun value => .assuming fun _ => follows value

theorem dropSignature_then (kept : CheckInvariant crypto checker flags sigversion holds raised)
    {scriptCode vchSig : Bytes} {next : Bytes → EStateM EvalError σ β}
    (follows : ∀ scriptCode, Triple (holds execdata) (next scriptCode) post raised) :
    Triple (holds execdata) (dropSignature flags sigversion scriptCode vchSig >>= next) post
      raised := by
  have dropped : Triple (holds execdata) (dropSignature flags sigversion scriptCode vchSig)
      (fun _ => holds execdata) raised := by
    rw [dropSignature]
    split_ifs
    · exact kept.require_then (.pure fun _ here => here)
    · exact .pure fun _ here => here
  exact dropped.bind follows

end Steps

/-! ## Checks of signatures -/

theorem dropSignatures (kept : CheckInvariant crypto checker flags sigversion holds raised)
    (scriptCode : Bytes) (sigs : List Bytes) :
    Triple (holds execdata) (dropSignatures flags sigversion scriptCode sigs)
      (fun _ => holds execdata) raised := by
  induction sigs generalizing scriptCode with
  | nil => exact .pure fun _ here => here
  | cons vchSig sigs ih => exact kept.dropSignature_then ih

theorem checkEncodedSignature
    (kept : CheckInvariant crypto checker flags sigversion holds raised)
    (legacy : sigversion.isTapscript = false) (vchSig vchPubKey scriptCode : Bytes) :
    Triple (holds execdata)
      (checkEncodedSignature crypto checker flags sigversion vchSig vchPubKey scriptCode)
      (fun _ => holds execdata) raised :=
  kept.ofExcept_then fun _ => kept.ofExcept_then fun _ => kept.ecdsa legacy _ _ _ _

theorem evalChecksig (kept : CheckInvariant crypto checker flags sigversion holds raised)
    (sig pubkey scriptCode : Bytes) (execdata : ScriptExecutionData) :
    Triple (holds execdata)
      (evalChecksig crypto checker flags sigversion sig pubkey scriptCode execdata)
      (fun both => holds both.2) raised := by
  rw [QuantyCoin.evalChecksig]
  split_ifs with tapscript
  · exact kept.schnorr tapscript execdata sig pubkey
  · have legacy : sigversion.isTapscript = false := Bool.eq_false_of_not_eq_true tapscript
    have checked : Triple (holds execdata)
        (evalChecksigPreTapscript crypto checker flags sigversion sig pubkey scriptCode)
        (fun _ => holds execdata) raised :=
      kept.dropSignature_then fun scriptCode =>
        (kept.checkEncodedSignature legacy sig pubkey scriptCode).bind fun _ =>
          kept.require_then (.pure fun _ here => here)
    exact checked.bind fun _ => .pure fun _ here => here

theorem matchSignatures {α : Type} (holds : α → σ → Prop)
    {check : α → Bytes → Bytes → EStateM EvalError σ (Bool × α)}
    (checks : ∀ execdata vchSig vchPubKey, Triple (holds execdata)
      (check execdata vchSig vchPubKey) (fun both => holds both.2) raised)
    (execdata : α) (sigs keys : List Bytes) :
    Triple (holds execdata) (matchSignatures check execdata sigs keys)
      (fun both => holds both.2) raised := by
  induction keys generalizing execdata sigs with
  | nil => cases sigs <;> exact .pure fun _ here => here
  | cons vchPubKey keys ih =>
      cases sigs with
      | nil => exact .pure fun _ here => here
      | cons vchSig sigs =>
          refine (checks execdata vchSig vchPubKey).bind fun (fOk, execdata) => ?_
          dsimp only
          generalize (if fOk = true then sigs else vchSig :: sigs) = sigs
          split_ifs
          · exact .pure fun _ here => here
          · exact ih execdata sigs

theorem requireDilithium_then
    (kept : CheckInvariant crypto checker flags sigversion holds raised) {β : Type}
    {post : β → σ → Prop} {next : Unit → EStateM EvalError σ β}
    (follows : Triple (holds execdata) (next ()) post raised) :
    Triple (holds execdata) (requireDilithium flags sigversion >>= next) post raised := by
  have allowed : Triple (holds execdata) (requireDilithium flags sigversion)
      (fun _ => holds execdata) raised :=
    kept.require_then ((Triple.require fun _ => kept.raises).weaken (fun _ here => here)
      fun _ _ both => both.2)
  exact allowed.bind fun _ => follows

/-! ## Operations -/

/-- A program that hands on a machine and keeps the assertion. -/
def Guards (holds : ScriptExecutionData → σ → Prop) (raised : σ → Prop)
    (execdata : ScriptExecutionData) (program : EStateM EvalError σ (Machine C)) : Prop :=
  Triple (holds execdata) program (fun m => holds m.execdata) raised

theorem guards_evalCheckmultisig
    (kept : CheckInvariant crypto checker flags sigversion holds raised) (verifies : Bool) :
    Guards holds raised m.execdata
      (evalCheckmultisig crypto checker flags sigversion verifies m) := by
  rw [evalCheckmultisig]
  by_cases legacy : sigversion.isTapscript = false
  · refine kept.require_then (kept.ofExcept_then fun arguments => ?_)
    refine (kept.dropSignatures _ _).bind fun scriptCode => ?_
    have checks : ∀ (execdata : Unit) (vchSig vchPubKey : Bytes), Triple (holds m.execdata)
        (QuantyCoin.checkEncodedSignature crypto checker flags sigversion vchSig vchPubKey
          scriptCode >>= fun fOk => Pure.pure (fOk, execdata))
        (fun _ => holds m.execdata) raised := fun _ vchSig vchPubKey =>
      (kept.checkEncodedSignature legacy vchSig vchPubKey scriptCode).bind fun _ =>
        .pure fun _ here => here
    refine Triple.bind (matchSignatures (fun _ => holds m.execdata) checks () _ _)
      fun (fSuccess, _) => kept.ofExcept_then fun _ => .pure fun _ here => here
  · rw [require_of_not (by simpa using legacy)]
    exact fun _ here => kept.raises here

theorem guards_evalCheckmultisigDilithium
    (kept : CheckInvariant crypto checker flags sigversion holds raised) (verifies : Bool) :
    Guards holds raised m.execdata
      (evalCheckmultisigDilithium checker flags sigversion verifies m) := by
  refine kept.requireDilithium_then (kept.ofExcept_then fun arguments => ?_)
  refine (matchSignatures holds (fun execdata vchSig vchPubKey =>
    kept.dilithium execdata vchSig vchPubKey m.pbegincodehash) m.execdata _ _).bind
      fun (fSuccess, execdata) => ?_
  exact kept.ofExcept_then fun _ => .pure fun _ here => here

theorem guards_evalChecklocktimeverify
    (kept : CheckInvariant crypto checker flags sigversion holds raised) :
    Guards holds raised m.execdata (evalChecklocktimeverify checker flags m) := by
  rw [evalChecklocktimeverify]
  split_ifs
  · exact .pure fun _ here => here
  · exact kept.ofExcept_then fun _ => kept.ofExcept_then fun _ => kept.require_then
      (kept.require_then (.pure fun _ here => here))

theorem guards_evalChecksequenceverify
    (kept : CheckInvariant crypto checker flags sigversion holds raised) :
    Guards holds raised m.execdata (evalChecksequenceverify checker flags m) := by
  rw [evalChecksequenceverify]
  split_ifs
  · exact .pure fun _ here => here
  · refine kept.ofExcept_then fun _ => kept.ofExcept_then fun nSequence => kept.require_then ?_
    split_ifs
    · exact .pure fun _ here => here
    · exact kept.require_then (.pure fun _ here => here)

theorem guards_evalChecksigOp
    (kept : CheckInvariant crypto checker flags sigversion holds raised) (verifies : Bool) :
    Guards holds raised m.execdata (evalChecksigOp crypto checker flags sigversion verifies m) :=
  kept.ofExcept_then fun _ => kept.ofExcept_then fun _ => (kept.evalChecksig _ _ _ _).bind
    fun _ => kept.ofExcept_then fun _ => .pure fun _ here => here

theorem guards_evalChecksigadd
    (kept : CheckInvariant crypto checker flags sigversion holds raised) :
    Guards holds raised m.execdata (evalChecksigadd crypto checker flags sigversion m) :=
  kept.require_then <| kept.ofExcept_then fun _ => kept.ofExcept_then fun _ =>
    kept.ofExcept_then fun _ => kept.ofExcept_then fun _ => (kept.evalChecksig _ _ _ _).bind
      fun _ => .pure fun _ here => here

theorem guards_evalChecksigDilithiumOp
    (kept : CheckInvariant crypto checker flags sigversion holds raised) (verifies : Bool) :
    Guards holds raised m.execdata
      (evalChecksigDilithiumOp checker flags sigversion verifies m) :=
  kept.requireDilithium_then <| kept.ofExcept_then fun _ => kept.ofExcept_then fun _ =>
    (kept.dilithium _ _ _ _).bind fun _ => kept.require_then <| kept.ofExcept_then fun _ =>
      .pure fun _ here => here

variable [Conditions C]

theorem guards_evalIf (kept : CheckInvariant crypto checker flags sigversion holds raised)
    (notif : Bool) : Guards holds raised m.execdata (evalIf flags sigversion notif m) := by
  rw [evalIf]
  by_cases active : Conditions.allTrue m.vfExec = true
  · rw [if_pos active]
    cases m.stack with
    | nil => exact fun _ here => kept.raises here
    | cons vch below => exact kept.require_then (kept.require_then (.pure fun _ here => here))
  · rw [if_neg active]
    exact .pure fun _ here => here

/-- One operation, case by case. -/
theorem guards_evalOpcode (kept : CheckInvariant crypto checker flags sigversion holds raised)
    (opcode : Opcode) (pc : Bytes) :
    Guards holds raised m.execdata
      (evalOpcode crypto checker flags sigversion opcode pc m) := by
  cases opcode with
  | pushNumber n => exact .pure fun _ here => here
  | nop => exact .pure fun _ here => here
  | checklocktimeverify => exact guards_evalChecklocktimeverify kept
  | checksequenceverify => exact guards_evalChecksequenceverify kept
  | upgradableNop => exact kept.require_then (.pure fun _ here => here)
  | opIf notif => exact guards_evalIf kept notif
  | opElse => exact kept.require_then (.pure fun _ here => here)
  | endif => exact kept.require_then (.pure fun _ here => here)
  | stack op => exact kept.ofExcept_then fun _ => .pure fun _ here => here
  | numeric op => exact kept.ofExcept_then fun _ => .pure fun _ here => here
  | hash op => exact kept.ofExcept_then fun _ => .pure fun _ here => here
  | codeseparator => exact .pure fun _ here => kept.separator _ here
  | checksig verifies => exact guards_evalChecksigOp kept verifies
  | checksigadd => exact guards_evalChecksigadd kept
  | checkmultisig verifies => exact guards_evalCheckmultisig kept verifies
  | checksigdilithium verifies => exact guards_evalChecksigDilithiumOp kept verifies
  | checkmultisigdilithium verifies => exact guards_evalCheckmultisigDilithium kept verifies
  | dilithiumPubkey =>
      exact kept.requireDilithium_then (kept.ofExcept_then fun _ => .pure fun _ here => here)
  | bad => exact fun _ here => kept.raises here

theorem guards_evalInstruction
    (kept : CheckInvariant crypto checker flags sigversion holds raised) (opcode : UInt8)
    (vchPushValue pc : Bytes) :
    Guards holds raised m.execdata
      (evalInstruction crypto checker flags sigversion opcode vchPushValue pc m) := by
  have counted : Triple (holds m.execdata) (countOperation sigversion opcode m)
      (fun m' state => m'.execdata = m.execdata ∧ holds m.execdata state) raised := by
    rw [countOperation]
    split_ifs
    · exact kept.require_then (.pure fun _ here => ⟨rfl, here⟩)
    · exact .pure fun _ here => ⟨rfl, here⟩
  have operated : ∀ m : Machine C, Guards holds raised m.execdata
      (evalOperation crypto checker flags sigversion opcode vchPushValue pc m) := by
    intro m
    rw [evalOperation]
    split_ifs
    · exact kept.require_then (.pure fun _ here => here)
    · exact guards_evalOpcode kept _ pc
    · exact .pure fun _ here => here
  refine kept.require_then (counted.bind fun m' => .assuming fun same => ?_)
  rw [← same]
  refine kept.require_then (kept.require_then ((operated m').bind fun final => ?_))
  exact kept.require_then (.pure fun _ here => here)

/-- The run lemma, by induction on the script. -/
theorem guards_evalLoop (kept : CheckInvariant crypto checker flags sigversion holds raised)
    (pc : Bytes) (m : Machine C) :
    Guards holds raised m.execdata (evalLoop crypto checker flags sigversion pc m) := by
  induction pc using script_induction generalizing m with
  | ends pc ended =>
      rw [evalLoop_of_none _ _ _ _ ended]
      exact kept.require_then (.pure fun _ here => here)
  | operation pc opcode vchPushValue rest found ih =>
      rw [evalLoop_of_some _ _ _ _ found]
      exact (guards_evalInstruction kept opcode vchPushValue rest).bind ih

/-- What is left of the assertion behind `EvalScript`. -/
theorem evalScript (kept : CheckInvariant crypto checker flags sigversion holds raised)
    (stack : List Bytes) (script : Bytes) (execdata : ScriptExecutionData) :
    Triple (holds execdata)
      (evalScriptWith crypto checker flags sigversion C stack script execdata)
      (fun _ => raised) raised := by
  refine kept.require_then (kept.require_then ?_)
  have started : Triple (holds execdata)
      (evalLoop crypto checker flags sigversion script
        (Machine.start stack script execdata : Machine C))
      (fun m => holds m.execdata) raised :=
    (guards_evalLoop kept script _).weaken (fun _ here => kept.separator _ here)
      fun _ _ here => here
  exact started.bind fun m => kept.require_then (.pure fun _ here => kept.raises here)

end CheckInvariant

end QuantyCoin
