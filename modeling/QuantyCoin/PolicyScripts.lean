import QuantyCoin.KeyhashScripts
import QuantyCoin.SoftForks
import QuantyCoin.TransactionChecker

/-!
# Policy and consensus for scripts

The flags of `GetBlockScriptFlags` and `PolicyScriptChecks` of `validation.cpp`, over
`VerifyScript`.  What relay policy accepts is accepted with the flags of a block, because
the flags of a block are fewer and every flag that is missing makes verification softer.
The one place where more flags accept a script that fewer reject is a key of Dilithium
that is taken for a key of ECDSA, and there the check of the signature fails.
-/

namespace QuantyCoin

open ByteDecoder StateTriples

/-! ## Keys of the wrong size -/

/-- A key without a valid size has no signature that the checker accepts. -/
def RejectsInvalidKeys {σ : Type} (checker : SignatureChecker σ) : Prop :=
  ∀ vchSig vchPubKey scriptCode sigversion state after, validSize vchPubKey = false →
    checker.checkECDSASignature vchSig vchPubKey scriptCode sigversion state ≠ .ok true after

theorem validSize_of_dilithium {vchPubKey : Bytes}
    (sized : vchPubKey.length = dilithiumPubKeySize) : validSize vchPubKey = false := by
  cases vchPubKey with
  | nil => rfl
  | cons header rest =>
      have long : 65 < rest.length + 1 := by
        rw [List.length_cons] at sized
        rw [sized]
        decide
      have short : pubKeyLength header ≤ 65 := by
        rw [pubKeyLength]
        split_ifs <;> decide
      rw [validSize, decide_eq_false_iff_not]
      omega

theorem TransactionSignatureChecker.rejectsInvalidKeys (crypto : TransactionCrypto)
    (checker : TransactionSignatureChecker) :
    RejectsInvalidKeys (checker.toSignatureChecker crypto) := by
  intro vchSig vchPubKey scriptCode sigversion state after invalid accepted
  change checker.checkECDSASignature crypto vchSig vchPubKey scriptCode sigversion state =
    .ok true after at accepted
  rw [checkECDSASignature, invalid] at accepted
  exact Bool.false_ne_true (pure_eq_ok.mp accepted).1

section Verifier

variable {σ : Type} {crypto : ScriptCrypto} {checker : SignatureChecker σ}
  {flags flags' : UInt32} {sigversion : SigVersion}

/-- No signature satisfies the script behind the hash of a key of Dilithium. -/
theorem executeWitnessScript_dilithiumKey (rejects : RejectsInvalidKeys checker)
    {vchSig vchPubKey program : Bytes} (keySized : vchPubKey.length = dilithiumPubKeySize)
    (sized : program.length = witnessV0KeyhashSize) (execdata : ScriptExecutionData)
    (state after : σ) :
    executeWitnessScript crypto checker flags [vchSig, vchPubKey] (impliedScript opChecksig program)
      .witnessV0 execdata state ≠ .ok () after := by
  intro executed
  have legacy : executeWitnessScript crypto checker flags [vchSig, vchPubKey]
      (impliedScript opChecksig program) .witnessV0 execdata =
        runWitnessScript crypto checker flags [vchSig, vchPubKey]
          (impliedScript opChecksig program) .witnessV0 execdata := rfl
  rw [legacy, runWitnessScript_checksig sized] at executed
  obtain ⟨-, -, -, -, checked⟩ := executed
  exact rejects _ _ _ _ _ _ (validSize_of_dilithium keySized) checked

/-! ## Fewer flags for `VerifyScript` -/

/-- Witness programs, whose value is their success. -/
theorem permitsValue_evalWitnessProgram (softer : Softer flags flags')
    (rejects : RejectsInvalidKeys checker) (witness : List Bytes) (witversion : Int)
    (program : Bytes) (isP2sh : Bool) :
    PermitsValue (evalWitnessProgram crypto checker flags witness witversion program isP2sh)
      (evalWitnessProgram crypto checker flags' witness witversion program isP2sh) := by
  rw [evalWitnessProgram, evalWitnessProgram]
  obtain softened | ⟨vchSig, vchPubKey, keySized, sized, executes⟩ :=
    softened_verifyWitnessProgram softer crypto.toScriptHashes checker.taproot witness witversion
      program isP2sh
  · obtain ⟨error, failed⟩ | same | succeeded := softened
    · rw [failed]
      exact .of_throw
    · rw [same]
      cases verifyWitnessProgram crypto.toScriptHashes checker.taproot witness witversion program
          flags isP2sh with
      | failed error => exact .of_throw
      | succeeded => exact .of_unit
      | execute execution =>
          exact .of_permits (permits_executeWitnessScript softer (.refl ..) _ _ _)
    · rw [succeeded]
      exact .of_unit
  · rw [executes]
    intro state value after executed
    exact absurd executed
      (executeWitnessScript_dilithiumKey rejects keySized sized .new state after)

theorem permitsValue_verifyWitness (softer : Softer flags flags')
    (rejects : RejectsInvalidKeys checker) (scriptSig script expected : Bytes)
    (malleated : EvalError) (witness : List Bytes) (isP2sh hadWitness : Bool)
    (stack : List Bytes) :
    PermitsValue
      (verifyWitness crypto checker flags scriptSig script expected malleated witness isP2sh
        hadWitness stack)
      (verifyWitness crypto checker flags' scriptSig script expected malleated witness isP2sh
        hadWitness stack) := by
  rw [verifyWitness, verifyWitness]
  cases isWitnessProgram script with
  | none => exact .of_permits (.refl _)
  | some found =>
      obtain ⟨version, program⟩ := found
      refine .bind (.refl _) fun _ => ?_
      refine .bind_anywhere (permitsValue_evalWitnessProgram softer rejects _ _ _ _)
        fun _ state result after returned state' => ⟨state', ?_⟩
      exact pure_eq_ok.mpr ⟨(pure_eq_ok.mp returned).1, rfl⟩

theorem permits_evalTrue (softer : Softer flags flags') (stack : List Bytes) (script : Bytes) :
    Permits (evalTrue crypto checker flags stack script)
      (evalTrue crypto checker flags' stack script) :=
  .bind (permits_evalScript softer (.refl ..) stack script .new) fun _ => .refl _

/-- The flags that the assertions at the end of `VerifyScript` allow. -/
structure Consistent (flags : UInt32) : Prop where
  cleanstack : hasFlag flags scriptVerifyCleanstack → hasFlag flags scriptVerifyWitness
  witness : hasFlag flags scriptVerifyWitness → hasFlag flags scriptVerifyP2sh

/-- Without witnesses nothing is checked at the end. -/
theorem verifyRemains_unwitnessed (consistent : Consistent flags)
    (unwitnessed : hasFlag flags scriptVerifyWitness = false) (witness : List Bytes)
    (hadWitness : Bool) (stack : List Bytes) :
    verifyRemains flags witness hadWitness stack = (pure () : EStateM EvalError σ Unit) := by
  have dirty : hasFlag flags scriptVerifyCleanstack ≠ true := fun clean =>
    Bool.false_ne_true (unwitnessed.symm.trans (consistent.cleanstack clean))
  have absent : hasFlag flags scriptVerifyWitness ≠ true := ne_true_of_eq_false unwitnessed
  rw [verifyRemains, require_of fun clean => absurd clean dirty,
    require_of fun clean => absurd clean dirty, require_of fun set => absurd set absent,
    require_of fun set => absurd set absent]
  rfl

/-- The checks at the end need only what they are given. -/
theorem verifyRemains_anywhere (softer : Softer flags flags') (consistent : Consistent flags')
    {witness : List Bytes} {hadWitness : Bool} {stack : List Bytes} {state after : σ}
    (returned : verifyRemains flags witness hadWitness stack state = .ok () after) (state' : σ) :
    verifyRemains flags' witness hadWitness stack state' = .ok () state' := by
  rw [verifyRemains] at returned ⊢
  simp only [require_bind_eq_ok, require_eq_ok] at returned ⊢
  obtain ⟨-, clean, -, used, -⟩ := returned
  refine ⟨fun set => ⟨consistent.witness (consistent.cleanstack set), consistent.cleanstack set⟩,
    fun set => clean (softer.kept _ set), consistent.witness,
    fun set => used (softer.kept _ set), trivial⟩

theorem permitsValue_remains (softer : Softer flags flags') (consistent : Consistent flags')
    {strict lenient : EStateM EvalError σ (Bool × List Bytes)} {witness : List Bytes}
    (permits : PermitsValue strict lenient) :
    PermitsValue (strict >>= fun both => verifyRemains flags witness both.1 both.2)
      (lenient >>= fun both => verifyRemains flags' witness both.1 both.2) :=
  permits.bind_anywhere fun _ _ _ _ returned state' =>
    ⟨state', verifyRemains_anywhere softer consistent returned state'⟩

theorem permitsValue_verifyScriptHash (softer : Softer flags flags')
    (rejects : RejectsInvalidKeys checker) (scriptSig : Bytes) (witness : List Bytes)
    (hadWitness : Bool) (stackCopy : List Bytes)
    (witnessed : hasFlag flags' scriptVerifyWitness = true) :
    PermitsValue
      (verifyScriptHash crypto checker flags scriptSig witness hadWitness stackCopy)
      (verifyScriptHash crypto checker flags' scriptSig witness hadWitness stackCopy) := by
  cases stackCopy with
  | nil => exact .bind (.refl _) fun _ => .of_throw
  | cons pubKey2 stack =>
      rw [verifyScriptHash, verifyScriptHash]
      refine .bind (.refl _) fun _ => ?_
      refine .bind (permits_evalTrue softer stack pubKey2) fun stack => ?_
      rw [if_pos (softer.kept _ witnessed), if_pos witnessed]
      exact permitsValue_verifyWitness softer rejects _ _ _ _ _ _ _ _

/-- Without witnesses the script behind its hash is only run. -/
theorem verifyScriptHash_unwitnessed (softer : Softer flags flags')
    (unwitnessed : hasFlag flags' scriptVerifyWitness = false) {scriptSig : Bytes}
    {witness : List Bytes} {hadWitness : Bool} {stackCopy : List Bytes}
    {value : Bool × List Bytes} {state after : σ}
    (returned : verifyScriptHash crypto checker flags scriptSig witness hadWitness stackCopy
      state = .ok value after) :
    ∃ value' after', verifyScriptHash crypto checker flags' scriptSig witness hadWitness stackCopy
      state = .ok value' after' := by
  cases stackCopy with
  | nil => exact absurd (require_bind_eq_ok.mp returned).2 throw_ne_ok
  | cons pubKey2 stack =>
      rw [verifyScriptHash] at returned
      obtain ⟨pushes, returned⟩ := require_bind_eq_ok.mp returned
      obtain ⟨final, between, ran, -⟩ := bind_eq_ok.mp returned
      refine ⟨(hadWitness, final), between, ?_⟩
      rw [verifyScriptHash]
      refine require_bind_eq_ok.mpr ⟨pushes, bind_eq_ok.mpr ⟨final, between, ?_, ?_⟩⟩
      · exact permits_evalTrue softer stack pubKey2 _ _ _ ran
      · rw [if_neg (ne_true_of_eq_false unwitnessed)]
        rfl

/-- The script of a script hash is not a witness program. -/
theorem isPayToScriptHash_of_witnessProgram {script program : Bytes} {version : Nat}
    (found : isWitnessProgram script = some (version, program)) :
    isPayToScriptHash script = false := by
  rw [Bool.eq_false_iff]
  intro hashed
  obtain ⟨sized, first, -⟩ := of_decide_eq_true hashed
  cases script with
  | nil => cases first
  | cons opcode rest =>
      cases Option.some.inj first
      cases rest with
      | nil => cases found
      | cons size rest =>
          rw [isWitnessProgram] at found
          split_ifs at found with _ other
          exact absurd other (by decide)

/-- A script hash is not a witness program. -/
theorem isWitnessProgram_of_isPayToScriptHash {script : Bytes}
    (hashed : isPayToScriptHash script = true) : isWitnessProgram script = none := by
  by_contra found
  obtain ⟨both, found⟩ := Option.ne_none_iff_exists'.mp found
  rw [isPayToScriptHash_of_witnessProgram found] at hashed
  exact Bool.false_ne_true hashed

/-- `VerifyScript` with fewer flags. -/
theorem permitsValue_verifyScript (softer : Softer flags flags') (consistent : Consistent flags')
    (rejects : RejectsInvalidKeys checker) (scriptSig scriptPubKey : Bytes)
    (witness : List Bytes) :
    PermitsValue (verifyScript crypto checker flags scriptSig scriptPubKey witness)
      (verifyScript crypto checker flags' scriptSig scriptPubKey witness) := by
  refine .bind (.require fun pushes set => pushes (softer.kept _ set)) fun _ => ?_
  refine .bind (permits_evalScript softer (.refl ..) [] scriptSig .new) fun stackCopy => ?_
  refine .bind (permits_evalTrue softer stackCopy scriptPubKey) fun stack => ?_
  by_cases witnessed : hasFlag flags' scriptVerifyWitness = true
  · have hashed := consistent.witness witnessed
    rw [if_pos (softer.kept _ witnessed), if_pos witnessed]
    cases program : isWitnessProgram scriptPubKey with
    | none =>
        rw [verifyWitness, verifyWitness, program]
        refine .bind (.refl _) fun (hadWitness, stack) => ?_
        dsimp only
        by_cases scriptHash : isPayToScriptHash scriptPubKey = true
        · rw [if_pos ⟨softer.kept _ hashed, scriptHash⟩, if_pos ⟨hashed, scriptHash⟩]
          exact permitsValue_remains softer consistent
            (permitsValue_verifyScriptHash softer rejects _ _ _ _ witnessed)
        · rw [if_neg fun both => scriptHash both.2, if_neg fun both => scriptHash both.2]
          exact permitsValue_remains softer consistent (.of_permits (.refl _))
    | some found =>
        have scriptHash := isPayToScriptHash_of_witnessProgram program
        simp only [scriptHash, Bool.false_eq_true, and_false, if_false, pure_bind]
        exact permitsValue_remains softer consistent
          (permitsValue_verifyWitness softer rejects _ _ _ _ _ _ _ _)
  · have unwitnessed := Bool.eq_false_of_not_eq_true witnessed
    have trivial : ∀ both : Bool × List Bytes, verifyRemains flags' witness both.1 both.2 =
        (pure () : EStateM EvalError σ Unit) :=
      fun both => verifyRemains_unwitnessed consistent unwitnessed witness both.1 both.2
    simp only [unwitnessed, Bool.false_eq_true, if_false, pure_bind, trivial]
    by_cases hashed : hasFlag flags' scriptVerifyP2sh = true ∧
        isPayToScriptHash scriptPubKey = true
    · have program := isWitnessProgram_of_isPayToScriptHash hashed.2
      have unused : verifyWitness crypto checker flags scriptSig scriptPubKey [] .witnessMalleated
          witness false false stack = pure (false, stack) := by
        rw [verifyWitness, program]
      simp only [unused, ite_self, pure_bind, hashed.1, hashed.2, softer.kept _ hashed.1, and_self,
        if_true]
      intro state value after returned
      obtain ⟨both, between, ran, -⟩ := bind_eq_ok.mp returned
      obtain ⟨both', after', ran'⟩ := verifyScriptHash_unwitnessed softer unwitnessed ran
      exact ⟨after', bind_eq_ok.mpr ⟨both', after', ran', rfl⟩⟩
    · rw [if_neg hashed, pure_bind]
      exact .of_unit

end Verifier

section Anyone

variable {σ : Type} {crypto : ScriptCrypto} {checker : SignatureChecker σ} {flags : UInt32}

theorem evalScript_nil (stack : List Bytes) :
    evalScript crypto checker flags .base stack [] .new = pure stack := by
  have version : SigVersion.base ≠ SigVersion.taproot := SigVersion.noConfusion
  have short : ([] : Bytes).length ≤ maxScriptSize := Nat.zero_le _
  rw [evalScript, evalScriptWith, require_of version, require_of fun _ => short,
    evalLoop_of_none _ _ _ _ rfl, require_of rfl]
  rfl

variable {script program : Bytes} {version : Nat}

/-- The output script of a witness program leaves its version, and the program on top. -/
theorem evalScript_native {opcode : UInt8} {below : Bytes} {n : Nat}
    (read : getScriptOp (opcode :: Signing.pushData program) =
      some (opcode, [], Signing.pushData program))
    (pushes : ∀ script execdata, evalInstruction crypto checker flags .base opcode []
      (Signing.pushData program) (.midway [] 0 0 script execdata) =
        pure (.midway [below] 0 1 script execdata))
    (sized : program.length = n) (long : 1 < n) (short : n ≤ 75) :
    evalScript crypto checker flags .base [] (opcode :: Signing.pushData program) .new =
      pure [program, below] := by
  have version : SigVersion.base ≠ SigVersion.taproot := SigVersion.noConfusion
  have small : program.length < 76 := by omega
  have second : getScriptOp (Signing.pushData program) = some (UInt8.ofNat n, program, []) := by
    have read := getScriptOp_pushData small []
    rwa [List.append_nil, sized] at read
  have push : UInt8.ofNat n ≤ opPushdata4 := by
    rw [UInt8.le_iff_toNat_le, UInt8.toNat_ofNat_of_lt' (lt_of_le_of_lt short (by decide))]
    exact short.trans (by decide)
  have fits : (opcode :: Signing.pushData program).length ≤ maxScriptSize := by
    rw [Signing.pushData, if_pos (show program.length < opPushdata1.toNat from small),
      List.length_cons, List.length_cons]
    exact (show program.length + 1 + 1 ≤ 77 by omega).trans (by decide)
  have started : (Machine.start [] (opcode :: Signing.pushData program) .new :
      Machine ConditionStack) = .midway [] 0 0 (opcode :: Signing.pushData program)
        { ScriptExecutionData.new with codeseparatorPos := some 0xffffffff } := rfl
  have room : [below].length < maxStackSize := show 1 < maxStackSize by decide
  rw [evalScript, evalScriptWith, require_of version, require_of fun _ => fits, started,
    evalLoop_of_pure read (pushes _ _),
    evalLoop_of_pure second (evalInstruction_push push (small.le.trans (by decide))
      (checkMinimalPush_of_length sized long short) room),
    evalLoop_of_none _ _ _ _ rfl, require_of rfl]
  rfl

/-- A witness program asks for an empty input. -/
theorem scriptSig_of_native (witnessed : hasFlag flags scriptVerifyWitness = true)
    (native : isWitnessProgram script = some (version, program)) {scriptSig : Bytes}
    {witness : List Bytes} {state after : σ}
    (ran : verifyScript crypto checker flags scriptSig script witness state = .ok () after) :
    scriptSig = [] := by
  obtain ⟨-, ran⟩ := require_bind_eq_ok.mp ran
  obtain ⟨stackCopy, _, -, ran⟩ := bind_eq_ok.mp ran
  obtain ⟨stack, _, -, ran⟩ := bind_eq_ok.mp ran
  obtain ⟨both, _, verified, -⟩ := bind_eq_ok.mp ran
  rw [if_pos witnessed, verifyWitness, native] at verified
  exact (require_bind_eq_ok.mp verified).1

/-- With an empty input, what is left of its script is the witness program. -/
theorem verifyScript_native (consistent : Consistent flags)
    (witnessed : hasFlag flags scriptVerifyWitness = true)
    (native : isWitnessProgram script = some (version, program)) {below : Bytes}
    (leaves : evalScript crypto checker flags .base [] script .new = pure [program, below])
    (witness : List Bytes) :
    verifyScript crypto checker flags [] script witness = (do
      require (castToBool program) .evalFalse
      evalWitnessProgram crypto checker flags witness version program false) := by
  have scriptHash := isPayToScriptHash_of_witnessProgram native
  have pushes : isPushOnly [] = true := by
    rw [isPushOnly]
  have truth : evalTrue crypto checker flags [] script =
      require (castToBool program) .evalFalse >>= fun _ => pure [program, below] := by
    rw [evalTrue, leaves, pure_bind]
    by_cases holds : castToBool program = true
    · rw [require_of holds, require_of ⟨List.cons_ne_nil _ _, holds⟩]
    · rw [require_of_not holds, require_of_not fun both => holds both.2]
  have remains : verifyRemains flags witness true (resizeToOne [program, below]) =
      (pure () : EStateM EvalError σ Unit) := by
    have single : (resizeToOne [program, below]).length = 1 := rfl
    rw [verifyRemains,
      require_of fun set => ⟨consistent.witness (consistent.cleanstack set),
        consistent.cleanstack set⟩,
      require_of fun _ => single, require_of consistent.witness, require_of fun _ => .inl rfl]
    rfl
  simp only [verifyScript, pushes, implies_true, require_of, evalScript_nil, pure_bind, truth,
    witnessed, if_true, verifyWitness, native, scriptHash, Bool.false_eq_true, and_false,
    if_false, bind_assoc, remains, bind_pure_unit]

end Anyone

/-- Fewer flags accept what more flags accept, from any state of the cache. -/
theorem verifyScript_softer (crypto : TransactionCrypto) (checker : TransactionSignatureChecker)
    {flags flags' : UInt32} (fewer : flags' &&& flags = flags')
    (dilithium : hasFlag flags scriptVerifyDilithium = true →
      hasFlag flags' scriptVerifyDilithium = true)
    (consistent : Consistent flags') (scriptSig scriptPubKey : Bytes) (witness : List Bytes)
    (cache : Option SigHashCache)
    (accepted : hasReturned (verifyScript crypto.toScriptCrypto (checker.toSignatureChecker crypto)
      flags scriptSig scriptPubKey witness cache) = true) :
    hasReturned (verifyScript crypto.toScriptCrypto (checker.toSignatureChecker crypto)
      flags' scriptSig scriptPubKey witness cache) = true := by
  obtain ⟨value, after, returned⟩ := exists_of_hasReturned accepted
  obtain ⟨after', returned'⟩ := permitsValue_verifyScript (.of_subset fewer dilithium) consistent
    (checker.rejectsInvalidKeys crypto) scriptSig scriptPubKey witness cache value after returned
  rw [returned']
  rfl

/-- Hashes and checks for runs that use none of them. -/
def TransactionCrypto.idle : TransactionCrypto :=
  { ScriptCrypto.idle with
    hasherTapsighash := fun _ => .null
    checkTapTweak := fun _ _ _ _ => false
    verifyEcdsa := fun _ _ _ => false
    verifySchnorr := fun _ _ _ => false
    verifyDilithium := fun _ _ _ => false }

/-- A transaction with an input that is not final. -/
def spendingOne : CTransaction where
  nVersion := 2
  vin := [⟨⟨.one, 0⟩, 0, []⟩]
  vout := [⟨0, [op1]⟩]
  nLockTime := 1

/-- The checker of its input. -/
def spendingOneChecker : TransactionSignatureChecker :=
  ⟨spendingOne, 0, 1, none, .assertFail, by decide⟩

/-- `1 OP_CHECKLOCKTIMEVERIFY OP_DROP <key> OP_CHECKSIG OP_NOT`: wants a signature that fails. -/
def refusingScript : Bytes :=
  [op1, 0xb1, 0x75, 0x21, 0x02] ++ List.replicate 32 0x11 ++ [opChecksig, 0x91]

def refusingFlags : UInt32 :=
  scriptVerifyP2sh ||| scriptVerifyWitness ||| scriptVerifyCleanstack |||
    scriptVerifyChecklocktimeverify ||| scriptVerifyStrictenc ||| scriptVerifyNullfail

/-- The empty signature passes with and without the rules on lock times and signatures. -/
theorem verifyScript_softer_refusing :
    hasReturned (verifyScript TransactionCrypto.idle.toScriptCrypto
      (spendingOneChecker.toSignatureChecker .idle) scriptVerifyP2sh [0x00] refusingScript []
      none) = true :=
  verifyScript_softer TransactionCrypto.idle spendingOneChecker (by decide : scriptVerifyP2sh &&&
    refusingFlags = scriptVerifyP2sh) (by decide) ⟨by decide, by decide⟩ [0x00] refusingScript []
    none (by decide +kernel)

/-- Another signature that fails passes only without them. -/
example : (hasReturned (verifyScript TransactionCrypto.idle.toScriptCrypto
      (spendingOneChecker.toSignatureChecker .idle) refusingFlags [0x01, 0x30] refusingScript []
      none),
    hasReturned (verifyScript TransactionCrypto.idle.toScriptCrypto
      (spendingOneChecker.toSignatureChecker .idle) scriptVerifyP2sh [0x01, 0x30] refusingScript []
      none)) = (false, true) := by
  decide +kernel

/-! ## The flags of blocks and of relay -/

/-- The flags are among those of `bound`. -/
def Within (bound flags : UInt32) : Prop := flags &&& bound = flags

instance (bound flags : UInt32) : Decidable (Within bound flags) :=
  inferInstanceAs (Decidable (_ = _))

/-- `MANDATORY_SCRIPT_VERIFY_FLAGS`. -/
def mandatoryScriptVerifyFlags : UInt32 :=
  scriptVerifyP2sh ||| scriptVerifyDersig ||| scriptVerifyNulldummy |||
    scriptVerifyChecklocktimeverify ||| scriptVerifyChecksequenceverify ||| scriptVerifyWitness |||
    scriptVerifyTaproot ||| scriptVerifyP2mr ||| scriptVerifyDilithium

/-- `STANDARD_SCRIPT_VERIFY_FLAGS`. -/
def standardScriptVerifyFlags : UInt32 :=
  mandatoryScriptVerifyFlags ||| scriptVerifyStrictenc ||| scriptVerifyMinimaldata |||
    scriptVerifyDiscourageUpgradableNops ||| scriptVerifyCleanstack ||| scriptVerifyMinimalif |||
    scriptVerifyNullfail ||| scriptVerifyLowS ||| scriptVerifyDiscourageUpgradableWitnessProgram |||
    scriptVerifyWitnessPubkeytype ||| scriptVerifyConstScriptcode |||
    scriptVerifyDiscourageUpgradableTaprootVersion ||| scriptVerifyDiscourageOpSuccess |||
    scriptVerifyDiscourageUpgradablePubkeytype ||| scriptVerifyDilithiumP2mrOnly

/-- The flags that an entry of `script_flag_exceptions` replaces. -/
def replacedFlags : UInt32 := scriptVerifyP2sh ||| scriptVerifyWitness ||| scriptVerifyTaproot

/-- The heights of `Consensus::Params` and its exceptions.  An exception lifts rules and
adds none, and none has witnesses without script hashes. -/
structure ScriptRules where
  bip65Height : Int
  bip66Height : Int
  csvHeight : Int
  segwitHeight : Int
  dilithiumHeight : Int
  dilithiumP2mrHeight : Int
  scriptFlagExceptions : Uint256 → Option UInt32
  lifting : ∀ hash flags, scriptFlagExceptions hash = some flags → Within replacedFlags flags
  hashed : ∀ hash flags, scriptFlagExceptions hash = some flags →
    hasFlag flags scriptVerifyWitness = true → hasFlag flags scriptVerifyP2sh = true

/-- What decides the flags of a block, with the state of the deployment of Taproot. -/
structure CBlockIndex where
  nHeight : Int
  blockHash : Uint256
  taprootActive : Bool

/-- `DeploymentActiveAt`, of a deployment with a height. -/
def deploymentActiveAt (blockIndex : CBlockIndex) (height : Int) : Bool :=
  height ≤ blockIndex.nHeight

/-- A flag that is set where a deployment is active. -/
def setWhere (active : Bool) (flag flags : UInt32) : UInt32 :=
  if active then flags ||| flag else flags

/-- `GetBlockScriptFlags`. -/
def getBlockScriptFlags (rules : ScriptRules) (blockIndex : CBlockIndex) : UInt32 :=
  let flags := scriptVerifyP2sh
  let flags := setWhere (deploymentActiveAt blockIndex rules.segwitHeight) scriptVerifyWitness flags
  let flags := setWhere blockIndex.taprootActive scriptVerifyTaproot flags
  let flags := (rules.scriptFlagExceptions blockIndex.blockHash).getD flags
  let flags := setWhere (deploymentActiveAt blockIndex rules.bip66Height) scriptVerifyDersig flags
  let flags := setWhere (deploymentActiveAt blockIndex rules.bip65Height)
    scriptVerifyChecklocktimeverify flags
  let flags := setWhere (deploymentActiveAt blockIndex rules.csvHeight)
    scriptVerifyChecksequenceverify flags
  let flags := setWhere (deploymentActiveAt blockIndex rules.segwitHeight) scriptVerifyNulldummy
    flags
  let flags := setWhere (deploymentActiveAt blockIndex rules.dilithiumHeight)
    scriptVerifyDilithium flags
  let flags := setWhere (deploymentActiveAt blockIndex rules.dilithiumP2mrHeight)
    scriptVerifyDilithiumP2mrOnly flags
  flags ||| scriptVerifyP2mr

/-- `scriptVerifyFlags` of `PolicyScriptChecks`. -/
def policyScriptFlags (rules : ScriptRules) (tip : Option CBlockIndex) : UInt32 :=
  setWhere (tip.any fun tip => deploymentActiveAt tip rules.dilithiumHeight) scriptVerifyDilithium
    standardScriptVerifyFlags

theorem Within.or {bound flags flags' : UInt32} (first : Within bound flags)
    (second : Within bound flags') : Within bound (flags ||| flags') := by
  have distributes : (flags ||| flags') &&& bound = flags &&& bound ||| flags' &&& bound := by
    apply UInt32.eq_of_toBitVec_eq
    simp [BitVec.and_or_distrib_right]
  rw [Within, distributes, first, second]

theorem Within.trans {bound middle flags : UInt32} (first : Within middle flags)
    (second : Within bound middle) : Within bound flags := by
  rw [Within, ← first, UInt32.and_assoc, second]

theorem Within.setWhere {bound flags flag : UInt32} (first : Within bound flags)
    (second : Within bound flag) (active : Bool) : Within bound (setWhere active flag flags) := by
  cases active
  · exact first
  · exact first.or second

@[simp] theorem hasFlag_or (flags flags' flag : UInt32) :
    hasFlag (flags ||| flags') flag = (hasFlag flags flag || hasFlag flags' flag) := by
  have distributes : (flags ||| flags') &&& flag = flags &&& flag ||| flags' &&& flag := by
    apply UInt32.eq_of_toBitVec_eq
    simp [BitVec.and_or_distrib_right]
  simp only [hasFlag, distributes, ne_eq, UInt32.or_eq_zero_iff, not_and_or, Bool.decide_or]

@[simp] theorem hasFlag_setWhere (active : Bool) (flags flag wanted : UInt32) :
    hasFlag (setWhere active flag flags) wanted =
      (hasFlag flags wanted || (active && hasFlag flag wanted)) := by
  cases active <;> simp [setWhere]

/-- The flags that blocks enforce. -/
def blockFlags : UInt32 := mandatoryScriptVerifyFlags ||| scriptVerifyDilithiumP2mrOnly

theorem within_getBlockScriptFlags (rules : ScriptRules) (blockIndex : CBlockIndex) :
    Within blockFlags (getBlockScriptFlags rules blockIndex) := by
  have started : ∀ flags, Within replacedFlags flags →
      Within blockFlags ((rules.scriptFlagExceptions blockIndex.blockHash).getD flags) := by
    intro flags within
    cases exception : rules.scriptFlagExceptions blockIndex.blockHash with
    | none => exact within.trans (by decide)
    | some flags' => exact (rules.lifting _ _ exception).trans (by decide)
  refine .or (.setWhere (.setWhere (.setWhere (.setWhere (.setWhere (.setWhere
    (started _ ?_) ?_ _) ?_ _) ?_ _) ?_ _) ?_ _) ?_ _) (by decide)
  · exact .setWhere (.setWhere (by decide) (by decide) _) (by decide) _
  all_goals decide

/-- The flags of a block keep the assertions of `VerifyScript`. -/
theorem consistent_getBlockScriptFlags (rules : ScriptRules) (blockIndex : CBlockIndex) :
    Consistent (getBlockScriptFlags rules blockIndex) where
  cleanstack set := by
    have impossible := hasFlag_of_subset (within_getBlockScriptFlags rules blockIndex) set
    exact absurd impossible (by decide)
  witness set := by
    have others : hasFlag scriptVerifyDersig scriptVerifyWitness = false ∧
        hasFlag scriptVerifyChecklocktimeverify scriptVerifyWitness = false ∧
        hasFlag scriptVerifyChecksequenceverify scriptVerifyWitness = false ∧
        hasFlag scriptVerifyNulldummy scriptVerifyWitness = false ∧
        hasFlag scriptVerifyDilithium scriptVerifyWitness = false ∧
        hasFlag scriptVerifyDilithiumP2mrOnly scriptVerifyWitness = false ∧
        hasFlag scriptVerifyP2mr scriptVerifyWitness = false := by decide
    have first : hasFlag scriptVerifyP2sh scriptVerifyP2sh = true := by decide
    simp only [getBlockScriptFlags, hasFlag_or, hasFlag_setWhere, others, Bool.and_false,
      Bool.or_false, Bool.or_eq_true] at set ⊢
    cases exception : rules.scriptFlagExceptions blockIndex.blockHash with
    | none => simp [first]
    | some flags' =>
        rw [exception] at set
        simp [rules.hashed _ _ exception set]

/-- No exception lifts the rules for Dilithium. -/
theorem dilithium_getBlockScriptFlags {rules : ScriptRules} {blockIndex : CBlockIndex}
    (active : deploymentActiveAt blockIndex rules.dilithiumHeight = true) :
    hasFlag (getBlockScriptFlags rules blockIndex) scriptVerifyDilithium = true := by
  have set : hasFlag scriptVerifyDilithium scriptVerifyDilithium = true := by decide
  simp [getBlockScriptFlags, active, set]

theorem within_policyScriptFlags (rules : ScriptRules) (tip : Option CBlockIndex) :
    Within (policyScriptFlags rules tip) blockFlags := by
  rw [policyScriptFlags]
  cases tip.any fun tip => deploymentActiveAt tip rules.dilithiumHeight <;> decide

/-! ## The inputs of a transaction -/

/-- A transaction with its scripts and the outputs that it spends. -/
structure Spending where
  txTo : CTransaction
  scriptSigs : List Bytes
  spentOutputs : List CTxOut
  scriptSigs_length : scriptSigs.length = txTo.vin.length
  spentOutputs_length : spentOutputs.length = txTo.vin.length

namespace Spending

variable (crypto : TransactionCrypto) (spending : Spending)

/-- `CTransaction::IsCoinBase`. -/
def isCoinBase : Bool :=
  match spending.txTo.vin with
  | [txin] => txin.prevout.hash.bytes = Uint256.null.bytes && txin.prevout.n = 0xffffffff
  | _ => false

/-- The checker of `CScriptCheck`. -/
def checker (txdata : TaprootTransactionData) (i : Fin spending.txTo.vin.length) :
    TransactionSignatureChecker where
  txTo := spending.txTo
  nIn := UInt32.ofNat i
  amount := (spending.spentOutputs.get (i.cast spending.spentOutputs_length.symm)).nValue
  txdata := some txdata
  mdb := .assertFail
  nIn_lt := lt_of_le_of_lt (by simpa using Nat.mod_le _ _) i.isLt

/-- `CScriptCheck::operator()`. -/
def scriptCheck (txdata : TaprootTransactionData) (flags : UInt32)
    (i : Fin spending.txTo.vin.length) : Bool :=
  hasReturned (verifyScript crypto.toScriptCrypto
    ((spending.checker txdata i).toSignatureChecker crypto) flags
    (spending.scriptSigs.get (i.cast spending.scriptSigs_length.symm))
    (spending.spentOutputs.get (i.cast spending.spentOutputs_length.symm)).scriptPubKey
    (spending.txTo.vin.get i).scriptWitness (some SlotCache.empty))

/-- `CheckInputScripts`, without the cache of executed scripts. -/
def checkInputScripts (flags : UInt32) : Bool :=
  spending.isCoinBase ||
    match TaprootTransactionData.init crypto.sha256 spending.txTo spending.spentOutputs false with
    | none => false
    | some txdata =>
        (List.finRange spending.txTo.vin.length).all (spending.scriptCheck crypto txdata flags)

/-- `MemPoolAccept::PolicyScriptChecks`. -/
def policyScriptChecks (rules : ScriptRules) (tip : Option CBlockIndex) : Bool :=
  spending.checkInputScripts crypto (policyScriptFlags rules tip)

end Spending

/-- What relay policy accepts passes with the flags of every block that allows Dilithium,
so that the second check of `ConsensusScriptChecks` finds no bug to report. -/
theorem consensusScriptChecks_of_policy (crypto : TransactionCrypto) (spending : Spending)
    (rules : ScriptRules) (tip : Option CBlockIndex) (blockIndex : CBlockIndex)
    (active : deploymentActiveAt blockIndex rules.dilithiumHeight = true)
    (standard : spending.policyScriptChecks crypto rules tip = true) :
    spending.checkInputScripts crypto (getBlockScriptFlags rules blockIndex) = true := by
  have softer : Softer (policyScriptFlags rules tip) (getBlockScriptFlags rules blockIndex) :=
    .of_subset
      ((within_getBlockScriptFlags rules blockIndex).trans (within_policyScriptFlags rules tip))
      fun _ => dilithium_getBlockScriptFlags active
  have consistent := consistent_getBlockScriptFlags rules blockIndex
  rw [Spending.policyScriptChecks, Spending.checkInputScripts, Bool.or_eq_true] at standard
  rw [Spending.checkInputScripts, Bool.or_eq_true]
  refine standard.imp_right fun checked => ?_
  cases initialized : TaprootTransactionData.init crypto.sha256 spending.txTo
      spending.spentOutputs false with
  | none =>
      rw [initialized] at checked
      cases checked
  | some txdata =>
      simp only [initialized, List.all_eq_true] at checked ⊢
      intro i member
      obtain ⟨value, after, returned⟩ := exists_of_hasReturned (checked i member)
      obtain ⟨after', returned'⟩ := permitsValue_verifyScript softer consistent
        ((spending.checker txdata i).rejectsInvalidKeys crypto) _ _ _ _ value after returned
      rw [Spending.scriptCheck, returned']
      rfl

/-- The rules of the main network. -/
def ScriptRules.main : ScriptRules where
  bip65Height := 1
  bip66Height := 1
  csvHeight := 1
  segwitHeight := 1
  dilithiumHeight := 1
  dilithiumP2mrHeight := 1
  scriptFlagExceptions _ := none
  lifting _ _ impossible := by cases impossible
  hashed _ _ impossible := by cases impossible

/-- The empty signature passes as standard, and in a block. -/
theorem consensusScriptChecks_of_policy_refusing :
    (Spending.mk spendingOne [[0x00]] [⟨1, refusingScript⟩] rfl rfl).checkInputScripts
      TransactionCrypto.idle (getBlockScriptFlags .main ⟨1, .null, true⟩) = true :=
  consensusScriptChecks_of_policy TransactionCrypto.idle _ .main none ⟨1, .null, true⟩
    (by decide) (by decide +kernel)

end QuantyCoin
