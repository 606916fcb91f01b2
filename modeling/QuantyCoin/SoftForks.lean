import QuantyCoin.ScriptVerifier

/-!
# Soft forks of script verification

`script/interpreter.h` intends every flag as a soft fork: what is accepted with more flags
is accepted with fewer.  `SCRIPT_VERIFY_DILITHIUM` is an exception, since it allows the
operations that it is named for.  Along every other flag the interpreter makes fewer
checks and otherwise takes the same steps.  The same holds of a checker that accepts the
signatures another one accepts.
-/

namespace QuantyCoin

open ByteDecoder StateTriples

/-! ## Fewer flags -/

/-- Fewer flags, but with the one that allows the operations for Dilithium if it was set. -/
structure Softer (flags flags' : UInt32) : Prop where
  kept : ∀ flag, hasFlag flags' flag = true → hasFlag flags flag = true
  dilithium : hasFlag flags scriptVerifyDilithium = true →
    hasFlag flags' scriptVerifyDilithium = true

theorem hasFlag_of_subset {flags flags' : UInt32} (subset : flags' &&& flags = flags')
    {flag : UInt32} (found : hasFlag flags' flag = true) : hasFlag flags flag = true := by
  rw [hasFlag, decide_eq_true_iff] at found ⊢
  intro missing
  rw [← subset, UInt32.and_assoc, missing, UInt32.and_zero] at found
  exact found rfl

theorem Softer.refl (flags : UInt32) : Softer flags flags := ⟨fun _ set => set, id⟩

theorem Softer.of_subset {flags flags' : UInt32} (subset : flags' &&& flags = flags')
    (dilithium : hasFlag flags scriptVerifyDilithium = true →
      hasFlag flags' scriptVerifyDilithium = true) : Softer flags flags' :=
  ⟨fun _ => hasFlag_of_subset subset, dilithium⟩

theorem Softer.unset {flags flags' flag : UInt32} (softer : Softer flags flags')
    (unset : (!hasFlag flags flag) = true) : (!hasFlag flags' flag) = true := by
  rw [Bool.not_eq_true'] at unset ⊢
  exact Bool.eq_false_of_not_eq_true fun set => by simp [softer.kept _ set] at unset

/-! ## More signatures -/

/-- The checker refuses a signature for Dilithium, whatever the key. -/
def SignatureChecker.Refuses {σ : Type} (checker : SignatureChecker σ) (sigversion : SigVersion)
    (vchSig : Bytes) : Prop :=
  ∀ vchPubKey scriptCode execdata state value after,
    checker.checkDilithiumSignature vchSig vchPubKey scriptCode sigversion execdata state ≠
      .ok (true, value) after

/-- What the first checker returns the second one returns as well, apart from signatures for
Dilithium that the first one refuses and that fail the script if they are refused. -/
structure Admits {σ : Type} (flags : UInt32) (sigversion : SigVersion)
    (checker checker' : SignatureChecker σ) : Prop where
  ecdsa : sigversion.isTapscript = false → ∀ vchSig vchPubKey scriptCode, Permits
    (checker.checkECDSASignature vchSig vchPubKey scriptCode sigversion)
    (checker'.checkECDSASignature vchSig vchPubKey scriptCode sigversion)
  schnorr : ∀ sig pubkey execdata, Permits
    (checker.checkSchnorrSignature sig pubkey sigversion execdata)
    (checker'.checkSchnorrSignature sig pubkey sigversion execdata)
  dilithium : ∀ vchSig,
    (∀ vchPubKey scriptCode execdata, Permits
      (checker.checkDilithiumSignature vchSig vchPubKey scriptCode sigversion execdata)
      (checker'.checkDilithiumSignature vchSig vchPubKey scriptCode sigversion execdata)) ∨
    hasFlag flags scriptVerifyNullfail = true ∧ vchSig ≠ [] ∧ checker.Refuses sigversion vchSig
  lockTime : checker.checkLockTime = checker'.checkLockTime
  sequence : checker.checkSequence = checker'.checkSequence

theorem Admits.refl {σ : Type} (flags : UInt32) (sigversion : SigVersion)
    (checker : SignatureChecker σ) : Admits flags sigversion checker checker where
  ecdsa _ _ _ _ := .refl _
  schnorr _ _ _ := .refl _
  dilithium _ := .inl fun _ _ _ => .refl _
  lockTime := rfl
  sequence := rfl

/-! ## Numbers and arguments -/

/-- A number that is read with minimal encoding is read without it. -/
theorem allows_readNumber {minimal minimal' : Bool} (fewer : minimal' = true → minimal = true)
    (nMaxNumSize : Nat) (vch : Bytes) :
    Allows (readNumber minimal nMaxNumSize vch) (readNumber minimal' nMaxNumSize vch) := by
  intro value read
  rw [readNumber, CScriptNum.ofBytes] at read ⊢
  by_cases long : nMaxNumSize < vch.length
  · rw [if_pos long] at read
    cases read
  · rw [if_neg long] at read ⊢
    by_cases superfluous : (minimal && !CScriptNum.isMinimal vch) = true
    · rw [if_pos superfluous] at read
      cases read
    · have kept : ¬ (minimal' && !CScriptNum.isMinimal vch) = true := by
        rw [Bool.and_eq_true, not_and] at superfluous ⊢
        exact fun set => superfluous (fewer set)
      rw [if_neg superfluous] at read
      rwa [if_neg kept]

theorem allows_numericOp {minimal minimal' : Bool} (fewer : minimal' = true → minimal = true)
    (op : NumericOp) (stack : List Bytes) :
    Allows (op.eval minimal stack) (op.eval minimal' stack) := by
  cases op with
  | pick roll =>
      refine .bind (.refl _) fun (top, below) => .bind (.refl _) fun _ => ?_
      exact .bind (allows_readNumber fewer 4 top) fun _ => .refl _
  | unary op =>
      exact .bind (.refl _) fun (top, below) =>
        .bind (allows_readNumber fewer 4 top) fun _ => .refl _
  | binary op =>
      refine .bind (.refl _) fun (vch2, below) => .bind (.refl _) fun (vch1, below) => ?_
      refine .bind (allows_readNumber fewer 4 vch1) fun _ => ?_
      exact .bind (allows_readNumber fewer 4 vch2) fun _ => .refl _
  | within =>
      refine .bind (.refl _) fun (vch3, below) => .bind (.refl _) fun (vch2, below) => ?_
      refine .bind (.refl _) fun (vch1, below) => .bind (allows_readNumber fewer 4 vch1) fun _ => ?_
      refine .bind (allows_readNumber fewer 4 vch2) fun _ => ?_
      exact .bind (allows_readNumber fewer 4 vch3) fun _ => .refl _

theorem allows_readMultisig {minimal minimal' : Bool} (fewer : minimal' = true → minimal = true)
    (nOpCount : Nat) (stack : List Bytes) :
    Allows (readMultisig minimal nOpCount stack) (readMultisig minimal' nOpCount stack) := by
  refine .bind (.refl _) fun (top, below) => .bind (allows_readNumber fewer 4 top) fun _ => ?_
  refine .bind (.refl _) fun _ => .bind (.refl _) fun _ => .bind (.refl _) fun (top, rest) => ?_
  exact .bind (allows_readNumber fewer 4 top) fun _ => .refl _

section Interpreter

variable {σ C : Type} {crypto : ScriptCrypto} {checker checker' : SignatureChecker σ}
  {flags flags' : UInt32} {sigversion : SigVersion}

/-! ## Checks of signatures -/

theorem allows_checkSignatureEncoding (softer : Softer flags flags') (vchSig : Bytes) :
    Allows (checkSignatureEncoding crypto.checkLowS vchSig flags)
      (checkSignatureEncoding crypto.checkLowS vchSig flags') := by
  intro value encoded
  rw [checkSignatureEncoding_eq_ok] at encoded ⊢
  intro nonempty
  obtain ⟨valid, low, defined⟩ := encoded nonempty
  refine ⟨fun set => valid ?_, fun set => low (softer.kept _ set),
    fun set => defined (softer.kept _ set)⟩
  exact set.imp (softer.kept _) (Or.imp (softer.kept _) (softer.kept _))

theorem allows_checkPubKeyEncoding (softer : Softer flags flags') (vchPubKey : Bytes) :
    Allows (checkPubKeyEncoding vchPubKey flags sigversion)
      (checkPubKeyEncoding vchPubKey flags' sigversion) := by
  intro value encoded
  rw [checkPubKeyEncoding_eq_ok] at encoded ⊢
  exact ⟨fun set => encoded.1 (softer.kept _ set), fun set => encoded.2 (softer.kept _ set)⟩

theorem permits_dropSignature (softer : Softer flags flags') (scriptCode vchSig : Bytes) :
    Permits (dropSignature flags sigversion scriptCode vchSig : EStateM EvalError σ Bytes)
      (dropSignature flags' sigversion scriptCode vchSig) := by
  refine .ite Iff.rfl (fun _ => ?_) fun _ => .refl _
  exact .bind (.require fun constant found => softer.unset (constant found)) fun _ => .refl _

theorem permits_dropSignatures (softer : Softer flags flags') (scriptCode : Bytes)
    (sigs : List Bytes) :
    Permits (dropSignatures flags sigversion scriptCode sigs : EStateM EvalError σ Bytes)
      (dropSignatures flags' sigversion scriptCode sigs) := by
  induction sigs generalizing scriptCode with
  | nil => exact .refl _
  | cons vchSig sigs ih =>
      exact .bind (permits_dropSignature softer scriptCode vchSig) fun scriptCode => ih scriptCode

theorem permits_checkEncodedSignature (softer : Softer flags flags')
    (admits : Admits flags sigversion checker checker') (legacy : sigversion.isTapscript = false)
    (vchSig vchPubKey scriptCode : Bytes) :
    Permits (checkEncodedSignature crypto checker flags sigversion vchSig vchPubKey scriptCode)
      (checkEncodedSignature crypto checker' flags' sigversion vchSig vchPubKey scriptCode) := by
  refine .bind (.ofExcept (allows_checkSignatureEncoding softer vchSig)) fun _ => ?_
  exact .bind (.ofExcept (allows_checkPubKeyEncoding softer vchPubKey))
    fun _ => admits.ecdsa legacy _ _ _

theorem permits_evalChecksigTapscript (softer : Softer flags flags')
    (admits : Admits flags sigversion checker checker') (sig pubkey : Bytes)
    (execdata : ScriptExecutionData) :
    Permits (evalChecksigTapscript checker flags sigversion sig pubkey execdata)
      (evalChecksigTapscript checker' flags' sigversion sig pubkey execdata) := by
  refine .bind (.refl _) fun execdata => ?_
  refine .ite Iff.rfl (fun _ => .refl _) fun _ => ?_
  refine .ite Iff.rfl (fun _ => .bind ?_ fun _ => .refl _) fun _ => ?_
  · exact .ite Iff.rfl (fun _ => admits.schnorr sig pubkey execdata) fun _ => .refl _
  · exact .bind (.require softer.unset) fun _ => .refl _

theorem permits_evalChecksig (softer : Softer flags flags')
    (admits : Admits flags sigversion checker checker') (sig pubkey scriptCode : Bytes)
    (execdata : ScriptExecutionData) :
    Permits (evalChecksig crypto checker flags sigversion sig pubkey scriptCode execdata)
      (evalChecksig crypto checker' flags' sigversion sig pubkey scriptCode execdata) := by
  refine .ite Iff.rfl (fun _ => permits_evalChecksigTapscript softer admits sig pubkey execdata)
    fun legacy => .bind (.bind (permits_dropSignature softer scriptCode sig) fun scriptCode => ?_)
      fun _ => .refl _
  refine .bind (permits_checkEncodedSignature softer admits (Bool.eq_false_of_not_eq_true legacy)
    sig pubkey scriptCode) fun fSuccess => ?_
  exact .bind (.require fun failed set => failed (softer.kept _ set)) fun _ => .refl _

theorem permits_evalChecksigDilithium {sig : Bytes}
    (permits : ∀ pubkey scriptCode execdata, Permits
      (checker.checkDilithiumSignature sig pubkey scriptCode sigversion execdata)
      (checker'.checkDilithiumSignature sig pubkey scriptCode sigversion execdata))
    (pubkey scriptCode : Bytes) (execdata : ScriptExecutionData) :
    Permits (evalChecksigDilithium checker sigversion sig pubkey scriptCode execdata)
      (evalChecksigDilithium checker' sigversion sig pubkey scriptCode execdata) :=
  .bind (.refl _) fun _ => .bind (.refl _) fun _ => .bind (.refl _) fun _ => permits _ _ _

theorem evalChecksigDilithium_refused {sig : Bytes} (refused : checker.Refuses sigversion sig)
    {pubkey scriptCode : Bytes} {execdata value : ScriptExecutionData} {state after : σ} :
    evalChecksigDilithium checker sigversion sig pubkey scriptCode execdata state ≠
      .ok (true, value) after := by
  intro accepted
  obtain ⟨-, accepted⟩ := require_bind_eq_ok.mp accepted
  obtain ⟨-, accepted⟩ := require_bind_eq_ok.mp accepted
  obtain ⟨_, _, -, accepted⟩ := bind_eq_ok.mp accepted
  exact refused _ _ _ _ _ _ accepted

/-- The operations for Dilithium are allowed with fewer flags as well. -/
theorem permits_requireDilithium (softer : Softer flags flags') :
    Permits (requireDilithium flags sigversion : EStateM EvalError σ Unit)
      (requireDilithium flags' sigversion) := by
  refine .bind (.require fun allowed => ?_) fun _ => .require softer.dilithium
  by_cases only' : hasFlag flags' scriptVerifyDilithiumP2mrOnly = true
  · rw [if_pos (softer.kept _ only')] at allowed
    rwa [if_pos only']
  · rw [if_neg only']
    split_ifs at allowed
    · rw [allowed]
      exact SigVersion.noConfusion
    · exact allowed

/-! ## Multisignatures -/

theorem permits_matchSignatures {α : Type}
    {check check' : α → Bytes → Bytes → EStateM EvalError σ (Bool × α)} {sigs : List Bytes}
    (permits : ∀ vchSig ∈ sigs, ∀ execdata vchPubKey,
      Permits (check execdata vchSig vchPubKey) (check' execdata vchSig vchPubKey))
    (execdata : α) (keys : List Bytes) :
    Permits (matchSignatures check execdata sigs keys)
      (matchSignatures check' execdata sigs keys) := by
  induction keys generalizing execdata sigs with
  | nil => cases sigs <;> exact .refl _
  | cons vchPubKey keys ih =>
      cases sigs with
      | nil => exact .refl _
      | cons vchSig sigs =>
          refine .bind (permits vchSig List.mem_cons_self execdata vchPubKey)
            fun (fOk, execdata) => .ite Iff.rfl (fun _ => .refl _) fun _ => ih ?_ execdata
          cases fOk with
          | false => exact permits
          | true => exact fun sig later => permits sig (List.mem_cons_of_mem _ later)

/-- A signature that no key matches fails the others with it. -/
theorem matchSignatures_refused {α : Type}
    {check : α → Bytes → Bytes → EStateM EvalError σ (Bool × α)} {vchSig : Bytes}
    (refused : ∀ execdata vchPubKey state value after,
      check execdata vchSig vchPubKey state ≠ .ok (true, value) after)
    {sigs : List Bytes} (member : vchSig ∈ sigs) (keys : List Bytes) (execdata value : α)
    (state after : σ) :
    matchSignatures check execdata sigs keys state ≠ .ok (true, value) after := by
  intro matched
  induction keys generalizing sigs execdata state with
  | nil =>
      cases sigs with
      | nil => cases member
      | cons first sigs => cases matched
  | cons vchPubKey keys ih =>
      cases sigs with
      | nil => cases member
      | cons first sigs =>
          obtain ⟨⟨fOk, execdata⟩, between, checked, matched⟩ := bind_eq_ok.mp matched
          have left : vchSig ∈ if fOk then sigs else first :: sigs := by
            cases fOk with
            | false => exact member
            | true =>
                refine (List.mem_cons.mp member).resolve_left ?_
                rintro rfl
                exact refused _ _ _ _ _ checked
          dsimp only at matched
          generalize (if fOk = true then sigs else first :: sigs) = others at left matched
          split_ifs at matched
          · cases matched
          · exact ih left _ _ matched

theorem allows_finishMultisig (softer : Softer flags flags') (verifies fSuccess : Bool)
    (arguments : MultisigArguments) :
    Allows (finishMultisig flags verifies fSuccess arguments)
      (finishMultisig flags' verifies fSuccess arguments) := by
  refine .bind (.demand fun failed set => failed (softer.kept _ set)) fun _ => ?_
  refine .bind (.refl _) fun (dummy, stack) => ?_
  exact .bind (.demand fun dummies set => dummies (softer.kept _ set)) fun _ => .refl _

theorem permits_evalCheckmultisig (softer : Softer flags flags')
    (admits : Admits flags sigversion checker checker') (verifies : Bool) (m : Machine C) :
    Permits (evalCheckmultisig crypto checker flags sigversion verifies m)
      (evalCheckmultisig crypto checker' flags' sigversion verifies m) := by
  refine .require_bind fun legacy => ?_
  rw [Bool.not_eq_true'] at legacy
  refine .bind (.ofExcept (allows_readMultisig (softer.kept _) _ _)) fun arguments => ?_
  refine .bind (permits_dropSignatures softer _ _) fun scriptCode => ?_
  refine .bind (permits_matchSignatures (fun vchSig _ _ vchPubKey => ?_) _ _)
    fun (fSuccess, _) => ?_
  · exact .bind (permits_checkEncodedSignature softer admits legacy vchSig vchPubKey scriptCode)
      fun _ => .refl _
  · exact .bind (.ofExcept (allows_finishMultisig softer verifies fSuccess arguments))
      fun _ => .refl _

theorem permits_evalCheckmultisigDilithium (softer : Softer flags flags')
    (admits : Admits flags sigversion checker checker') (verifies : Bool) (m : Machine C) :
    Permits (evalCheckmultisigDilithium checker flags sigversion verifies m)
      (evalCheckmultisigDilithium checker' flags' sigversion verifies m) := by
  refine .bind (permits_requireDilithium softer) fun _ => ?_
  refine .bind (.ofExcept (allows_readMultisig (softer.kept _) _ _)) fun arguments => ?_
  by_cases permits : ∀ vchSig ∈ arguments.sigs, ∀ vchPubKey scriptCode execdata, Permits
      (checker.checkDilithiumSignature vchSig vchPubKey scriptCode sigversion execdata)
      (checker'.checkDilithiumSignature vchSig vchPubKey scriptCode sigversion execdata)
  · refine .bind (permits_matchSignatures (fun vchSig member execdata vchPubKey =>
      permits_evalChecksigDilithium (permits vchSig member) vchPubKey _ execdata) _ _)
        fun (fSuccess, execdata) => ?_
    exact .bind (.ofExcept (allows_finishMultisig softer verifies fSuccess arguments))
      fun _ => .refl _
  · -- a signature that is refused is not empty, which is what `NULLFAIL` asks for
    simp only [not_forall] at permits
    obtain ⟨vchSig, member, differ⟩ := permits
    obtain ⟨nullfail, nonempty, refused⟩ := (admits.dilithium vchSig).resolve_left fun permits =>
      differ.elim fun vchPubKey other => other.elim fun scriptCode other =>
        other.elim fun execdata other => other (permits vchPubKey scriptCode execdata)
    refine .of_never fun state value after returned => ?_
    obtain ⟨⟨fSuccess, execdata⟩, between, matched, returned⟩ := bind_eq_ok.mp returned
    obtain ⟨stack, finished, -⟩ := ofExcept_bind_eq_ok.mp returned
    obtain ⟨_, valid, -⟩ := except_bind_eq_ok.mp finished
    rcases demand_eq_ok.mp valid nullfail with success | empty
    · obtain rfl : fSuccess = true := success
      exact matchSignatures_refused (fun _ _ _ _ _ => evalChecksigDilithium_refused refused) member
        _ _ _ _ _ matched
    · exact nonempty (empty vchSig member)

/-! ## Operations -/

/-- The lock time is only checked. -/
theorem evalChecklocktimeverify_eq_ok {m m' : Machine C} {state after : σ}
    (returned : evalChecklocktimeverify checker flags m state = .ok m' after) :
    m = m' ∧ state = after := by
  rw [evalChecklocktimeverify] at returned
  split_ifs at returned
  · exact pure_eq_ok.mp returned
  · obtain ⟨_, -, returned⟩ := ofExcept_bind_eq_ok.mp returned
    obtain ⟨_, -, returned⟩ := ofExcept_bind_eq_ok.mp returned
    obtain ⟨-, returned⟩ := require_bind_eq_ok.mp returned
    obtain ⟨-, returned⟩ := require_bind_eq_ok.mp returned
    exact pure_eq_ok.mp returned

/-- The sequence number is only checked. -/
theorem evalChecksequenceverify_eq_ok {m m' : Machine C} {state after : σ}
    (returned : evalChecksequenceverify checker flags m state = .ok m' after) :
    m = m' ∧ state = after := by
  rw [evalChecksequenceverify] at returned
  split_ifs at returned
  · exact pure_eq_ok.mp returned
  · obtain ⟨_, -, returned⟩ := ofExcept_bind_eq_ok.mp returned
    obtain ⟨_, -, returned⟩ := ofExcept_bind_eq_ok.mp returned
    obtain ⟨-, returned⟩ := require_bind_eq_ok.mp returned
    split_ifs at returned
    · exact pure_eq_ok.mp returned
    · obtain ⟨-, returned⟩ := require_bind_eq_ok.mp returned
      exact pure_eq_ok.mp returned

/-- A program that returns its argument, if anything, permits nothing else. -/
theorem permits_pure {α : Type} {program : EStateM EvalError σ α} {value : α}
    (only : ∀ state result after, program state = .ok result after →
      value = result ∧ state = after) : Permits program (pure value) :=
  fun state result after returned => pure_eq_ok.mpr (only state result after returned)

theorem permits_evalChecklocktimeverify (softer : Softer flags flags')
    (admits : Admits flags sigversion checker checker') (m : Machine C) :
    Permits (evalChecklocktimeverify checker flags m)
      (evalChecklocktimeverify checker' flags' m) := by
  by_cases unset' : (!hasFlag flags' scriptVerifyChecklocktimeverify) = true
  · rw [evalChecklocktimeverify.eq_def checker' flags', if_pos unset']
    exact permits_pure fun _ _ _ => evalChecklocktimeverify_eq_ok
  · rw [evalChecklocktimeverify, evalChecklocktimeverify, if_neg unset',
      if_neg fun unset => unset' (softer.unset unset)]
    refine .bind (.refl _) fun (top, _) => ?_
    refine .bind (.ofExcept (allows_readNumber (softer.kept _) 5 top)) fun _ => ?_
    rw [admits.lockTime]
    exact .refl _

theorem permits_evalChecksequenceverify (softer : Softer flags flags')
    (admits : Admits flags sigversion checker checker') (m : Machine C) :
    Permits (evalChecksequenceverify checker flags m)
      (evalChecksequenceverify checker' flags' m) := by
  by_cases unset' : (!hasFlag flags' scriptVerifyChecksequenceverify) = true
  · rw [evalChecksequenceverify.eq_def checker' flags', if_pos unset']
    exact permits_pure fun _ _ _ => evalChecksequenceverify_eq_ok
  · rw [evalChecksequenceverify, evalChecksequenceverify, if_neg unset',
      if_neg fun unset => unset' (softer.unset unset)]
    refine .bind (.refl _) fun (top, _) => ?_
    refine .bind (.ofExcept (allows_readNumber (softer.kept _) 5 top)) fun _ => ?_
    rw [admits.sequence]
    exact .refl _

theorem permits_evalChecksigOp (softer : Softer flags flags')
    (admits : Admits flags sigversion checker checker') (verifies : Bool) (m : Machine C) :
    Permits (evalChecksigOp crypto checker flags sigversion verifies m)
      (evalChecksigOp crypto checker' flags' sigversion verifies m) := by
  refine .bind (.refl _) fun (vchPubKey, below) => .bind (.refl _) fun (vchSig, below) => ?_
  exact .bind (permits_evalChecksig softer admits vchSig vchPubKey _ _) fun _ => .refl _

theorem permits_evalChecksigadd (softer : Softer flags flags')
    (admits : Admits flags sigversion checker checker') (m : Machine C) :
    Permits (evalChecksigadd crypto checker flags sigversion m)
      (evalChecksigadd crypto checker' flags' sigversion m) := by
  refine .bind (.refl _) fun _ => .bind (.refl _) fun (pubkey, below) => ?_
  refine .bind (.refl _) fun (top, below) => .bind (.refl _) fun (sig, below) => ?_
  refine .bind (.ofExcept (allows_readNumber (softer.kept _) 4 top)) fun num => ?_
  exact .bind (permits_evalChecksig softer admits sig pubkey _ _) fun _ => .refl _

theorem permits_evalChecksigDilithiumOp (softer : Softer flags flags')
    (admits : Admits flags sigversion checker checker') (verifies : Bool) (m : Machine C) :
    Permits (evalChecksigDilithiumOp checker flags sigversion verifies m)
      (evalChecksigDilithiumOp checker' flags' sigversion verifies m) := by
  refine .bind (permits_requireDilithium softer) fun _ => .bind (.refl _) fun _ => ?_
  refine .bind (.refl _) fun (vchSig, below) => ?_
  obtain permits | ⟨nullfail, nonempty, refused⟩ := admits.dilithium vchSig
  · refine .bind (permits_evalChecksigDilithium permits _ _ _) fun (fSuccess, execdata) => ?_
    exact .bind (.require fun failed set => failed (softer.kept _ set)) fun _ => .refl _
  · refine .of_never fun state value after returned => ?_
    obtain ⟨⟨fSuccess, execdata⟩, between, checked, returned⟩ := bind_eq_ok.mp returned
    obtain ⟨success, -⟩ := require_bind_eq_ok.mp returned
    obtain rfl : fSuccess = true := (success nullfail).resolve_right nonempty
    exact evalChecksigDilithium_refused refused checked

variable [Conditions C]

theorem permits_evalIf (softer : Softer flags flags') (notif : Bool) (m : Machine C) :
    Permits (evalIf flags sigversion notif m : EStateM EvalError σ (Machine C))
      (evalIf flags' sigversion notif m) := by
  rw [evalIf, evalIf]
  cases m.stack with
  | nil => exact .refl _
  | cons vch below =>
      refine .ite Iff.rfl (fun _ => .bind (.refl _) fun _ => ?_) fun _ => .refl _
      exact .bind (.require fun minimal version set => minimal version (softer.kept _ set))
        fun _ => .refl _

/-- One operation, case by case. -/
theorem permits_evalOpcode (softer : Softer flags flags')
    (admits : Admits flags sigversion checker checker') (opcode : Opcode) (pc : Bytes)
    (m : Machine C) :
    Permits (evalOpcode crypto checker flags sigversion opcode pc m)
      (evalOpcode crypto checker' flags' sigversion opcode pc m) := by
  cases opcode with
  | pushNumber n => exact .refl _
  | nop => exact .refl _
  | checklocktimeverify => exact permits_evalChecklocktimeverify softer admits m
  | checksequenceverify => exact permits_evalChecksequenceverify softer admits m
  | upgradableNop => exact .bind (.require softer.unset) fun _ => .refl _
  | opIf notif => exact permits_evalIf softer notif m
  | opElse => exact .refl _
  | endif => exact .refl _
  | stack op => exact .refl _
  | numeric op =>
      exact .bind (.ofExcept (allows_numericOp (softer.kept _) op m.stack)) fun _ => .refl _
  | hash op => exact .refl _
  | codeseparator => exact .refl _
  | checksig verifies => exact permits_evalChecksigOp softer admits verifies m
  | checksigadd => exact permits_evalChecksigadd softer admits m
  | checkmultisig verifies => exact permits_evalCheckmultisig softer admits verifies m
  | checksigdilithium verifies => exact permits_evalChecksigDilithiumOp softer admits verifies m
  | checkmultisigdilithium verifies =>
      exact permits_evalCheckmultisigDilithium softer admits verifies m
  | dilithiumPubkey => exact .bind (permits_requireDilithium softer) fun _ => .refl _
  | bad => exact .refl _

theorem permits_evalInstruction (softer : Softer flags flags')
    (admits : Admits flags sigversion checker checker') (opcode : UInt8)
    (vchPushValue pc : Bytes) (m : Machine C) :
    Permits (evalInstruction crypto checker flags sigversion opcode vchPushValue pc m)
      (evalInstruction crypto checker' flags' sigversion opcode vchPushValue pc m) := by
  refine .bind (.refl _) fun _ => .bind (.refl _) fun m => .bind (.refl _) fun _ => ?_
  refine .bind (.require fun kept opcode version => softer.unset (kept opcode version)) fun _ => ?_
  refine .bind (.ite Iff.rfl (fun _ => ?_) fun _ => ?_) fun _ => .refl _
  · exact .bind (.require fun minimal set => minimal (softer.kept _ set)) fun _ => .refl _
  · exact .ite Iff.rfl (fun _ => permits_evalOpcode softer admits _ pc m) fun _ => .refl _

/-- The run lemma, by induction on the script. -/
theorem permits_evalLoop (softer : Softer flags flags')
    (admits : Admits flags sigversion checker checker') (pc : Bytes) (m : Machine C) :
    Permits (evalLoop crypto checker flags sigversion pc m)
      (evalLoop crypto checker' flags' sigversion pc m) := by
  induction pc using script_induction generalizing m with
  | ends pc ended =>
      rw [evalLoop_of_none _ _ _ _ ended, evalLoop_of_none _ _ _ _ ended]
      exact .refl _
  | operation pc opcode vchPushValue rest found ih =>
      rw [evalLoop_of_some _ _ _ _ found, evalLoop_of_some _ _ _ _ found]
      exact .bind (permits_evalInstruction softer admits opcode vchPushValue rest m) ih

/-- `EvalScript` with fewer flags returns the same stack. -/
theorem permits_evalScript (softer : Softer flags flags')
    (admits : Admits flags sigversion checker checker') (stack : List Bytes) (script : Bytes)
    (execdata : ScriptExecutionData) :
    Permits (evalScriptWith crypto checker flags sigversion C stack script execdata)
      (evalScriptWith crypto checker' flags' sigversion C stack script execdata) := by
  refine .bind (.refl _) fun _ => .bind (.refl _) fun _ => ?_
  exact .bind (permits_evalLoop softer admits script _) fun _ => .refl _

/-! ## Witness programs -/

theorem permits_runWitnessScript (softer : Softer flags flags')
    (admits : Admits flags sigversion checker checker') (stack : List Bytes) (execScript : Bytes)
    (execdata : ScriptExecutionData) :
    Permits (runWitnessScript crypto checker flags stack execScript sigversion execdata)
      (runWitnessScript crypto checker' flags' stack execScript sigversion execdata) := by
  refine .bind (.refl _) fun _ => .bind (.refl _) fun _ => ?_
  exact .bind (permits_evalScript softer admits stack.reverse execScript execdata) fun _ => .refl _

theorem permits_executeWitnessScript (softer : Softer flags flags')
    (admits : Admits flags sigversion checker checker') (stack : List Bytes) (execScript : Bytes)
    (execdata : ScriptExecutionData) :
    Permits (executeWitnessScript crypto checker flags stack execScript sigversion execdata)
      (executeWitnessScript crypto checker' flags' stack execScript sigversion execdata) := by
  refine .ite Iff.rfl (fun _ => .bind (.refl _) fun success => ?_)
    fun _ => permits_runWitnessScript softer admits stack execScript execdata
  exact .ite Iff.rfl (fun _ => .require softer.unset)
    fun _ => permits_runWitnessScript softer admits stack execScript execdata

/-- The check fails, ends in the same way with fewer flags, or succeeds with them at once. -/
def Softened (strict lenient : ProgramCheck) : Prop :=
  (∃ error, strict = .failed error) ∨ lenient = strict ∨ lenient = .succeeded

theorem Softened.same (check : ProgramCheck) : Softened check check := .inr (.inl rfl)

theorem softened_verifyTaprootProgram (softer : Softer flags flags') (hashes : ScriptHashes)
    (taproot : TaprootChecker) (witness : List Bytes) (program : Bytes) :
    Softened (verifyTaprootProgram hashes taproot witness program flags)
      (verifyTaprootProgram hashes taproot witness program flags') := by
  rw [verifyTaprootProgram, verifyTaprootProgram]
  by_cases set' : hasFlag flags' scriptVerifyTaproot = true
  · have set := softer.kept _ set'
    obtain ⟨annexHash, stack⟩ := popAnnex hashes witness
    simp only [set, set', Bool.not_true, Bool.false_eq_true, if_false]
    rcases stack.reverse with _ | ⟨control, _ | ⟨script, rest⟩⟩
    · exact .same _
    · exact .same _
    · dsimp only
      split_ifs with _ _ _ _ strict lenient lenient
      · exact .same _
      · exact .same _
      · exact .same _
      · exact .same _
      · exact .same _
      · exact .inr (.inr rfl)
      · exact absurd (softer.kept _ lenient) strict
      · exact .same _
  · simp only [set', Bool.not_false, if_true]
    exact .inr (.inr rfl)

theorem softened_verifyP2MRProgram (softer : Softer flags flags') (hashes : ScriptHashes)
    (witness : List Bytes) (program : Bytes) :
    Softened (verifyP2MRProgram hashes (.ofFlags flags) witness program).toProgramCheck
      (verifyP2MRProgram hashes (.ofFlags flags') witness program).toProgramCheck := by
  rw [verifyP2MRProgram, verifyP2MRProgram]
  by_cases set' : hasFlag flags' scriptVerifyP2mr = true
  · have set := softer.kept _ set'
    obtain ⟨annexHash, stack⟩ := popAnnex hashes witness
    simp only [VerifyFlags.ofFlags, set, set', Bool.not_true, Bool.false_eq_true, if_false]
    rcases stack.reverse with _ | ⟨control, _ | ⟨script, rest⟩⟩
    · exact .same _
    · exact .same _
    · dsimp only
      split_ifs with _ _ _ _ _ strict lenient lenient
      · exact .same _
      · exact .same _
      · exact .same _
      · exact .same _
      · exact .same _
      · exact .same _
      · exact .inr (.inr rfl)
      · exact absurd (softer.kept _ lenient) strict
      · exact .same _
  · simp only [VerifyFlags.ofFlags, set', Bool.not_false, if_true]
    exact .inr (.inr rfl)

/-- The branch of `verifyKeyhashProgram` for ECDSA. -/
theorem softened_ecdsaKeyhash (softer : Softer flags flags') {vchPubKey : Bytes}
    {execution : WitnessExecution} :
    Softened
      (if hasFlag flags scriptVerifyWitnessPubkeytype ∧ vchPubKey.length ≠ compressedSize then
        .failed .witnessPubkeytype
      else .execute execution)
      (if hasFlag flags' scriptVerifyWitnessPubkeytype ∧ vchPubKey.length ≠ compressedSize then
        .failed .witnessPubkeytype
      else .execute execution) := by
  split_ifs with strict lenient lenient
  · exact .same _
  · exact .inl ⟨_, rfl⟩
  · exact absurd ⟨softer.kept _ lenient.1, lenient.2⟩ strict
  · exact .same _

/-- A key hash is checked in the same way, except for a key of Dilithium that is taken for one of
ECDSA only with `SCRIPT_VERIFY_DILITHIUM_P2MR_ONLY`. -/
theorem softened_verifyKeyhashProgram (softer : Softer flags flags') (witness : List Bytes)
    (program : Bytes) :
    Softened (verifyKeyhashProgram witness program flags)
        (verifyKeyhashProgram witness program flags') ∨
      ∃ vchSig vchPubKey, vchPubKey.length = dilithiumPubKeySize ∧
        verifyKeyhashProgram witness program flags =
          .execute (.witnessV0 [vchSig, vchPubKey] (impliedScript opChecksig program)) := by
  rcases witness with _ | ⟨vchSig, _ | ⟨vchPubKey, _ | ⟨third, rest⟩⟩⟩
  · exact .inl (.same _)
  · exact .inl (.same _)
  · simp only [verifyKeyhashProgram]
    by_cases sized : vchPubKey.length = dilithiumPubKeySize
    · cases only : hasFlag flags scriptVerifyDilithiumP2mrOnly with
      | true =>
          cases only' : hasFlag flags' scriptVerifyDilithiumP2mrOnly with
          | true =>
              simp only [Bool.not_true, Bool.false_eq_true, false_and, if_false]
              exact .inl (softened_ecdsaKeyhash softer)
          | false =>
              simp only [Bool.not_true, Bool.false_eq_true, false_and, if_false]
              by_cases wrong : hasFlag flags scriptVerifyWitnessPubkeytype ∧
                  vchPubKey.length ≠ compressedSize
              · rw [if_pos wrong]
                exact .inl (.inl ⟨_, rfl⟩)
              · rw [if_neg wrong]
                exact .inr ⟨vchSig, vchPubKey, sized, rfl⟩
      | false =>
          have only' : hasFlag flags' scriptVerifyDilithiumP2mrOnly = false :=
            Bool.eq_false_of_not_eq_true fun set => by simp [softer.kept _ set] at only
          simp only [only', sized, Bool.not_false, and_self, if_true]
          cases set : hasFlag flags scriptVerifyDilithium with
          | true =>
              rw [softer.dilithium set]
              exact .inl (.same _)
          | false => exact .inl (.inl ⟨_, rfl⟩)
    · simp only [sized, and_false, if_false]
      exact .inl (softened_ecdsaKeyhash softer)
  · exact .inl (.same _)

/-- The same of every witness program. -/
theorem softened_verifyWitnessProgram (softer : Softer flags flags') (hashes : ScriptHashes)
    (taproot : TaprootChecker) (witness : List Bytes) (witversion : Int) (program : Bytes)
    (isP2sh : Bool) :
    Softened (verifyWitnessProgram hashes taproot witness witversion program flags isP2sh)
        (verifyWitnessProgram hashes taproot witness witversion program flags' isP2sh) ∨
      ∃ vchSig vchPubKey, vchPubKey.length = dilithiumPubKeySize ∧
        program.length = witnessV0KeyhashSize ∧
        verifyWitnessProgram hashes taproot witness witversion program flags isP2sh =
          .execute (.witnessV0 [vchSig, vchPubKey] (impliedScript opChecksig program)) := by
  rw [verifyWitnessProgram, verifyWitnessProgram]
  split_ifs with zero scripthash keyhash one two strict lenient lenient
  · exact .inl (.same _)
  · obtain softened | ⟨vchSig, vchPubKey, sized, executes⟩ :=
      softened_verifyKeyhashProgram softer witness program
    · exact .inl softened
    · exact .inr ⟨vchSig, vchPubKey, sized, keyhash, executes⟩
  · exact .inl (.same _)
  · exact .inl (softened_verifyTaprootProgram softer hashes taproot witness program)
  · exact .inl (softened_verifyP2MRProgram softer hashes witness program)
  · exact .inl (.same _)
  · exact .inl (.inl ⟨_, rfl⟩)
  · exact absurd (softer.kept _ lenient) strict
  · exact .inl (.same _)
end Interpreter

end QuantyCoin
