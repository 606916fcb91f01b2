import QuantyCoin.ScriptVerifier

/-!
# Scripts behind key hashes

The witness program of a key hash and the script that it implies, run step by step.  What
is left of `VerifyScript` for such an output is the comparison of the hash and the check
of one signature.
-/

namespace QuantyCoin

open ByteDecoder StateTriples

/-- The machine in the middle of a script without conditionals. -/
def Machine.midway (stack : List Bytes) (nOpCount : Nat) (opcodePos : UInt32) (script : Bytes)
    (execdata : ScriptExecutionData) : Machine ConditionStack where
  stack := stack
  altstack := []
  vfExec := Conditions.new
  nOpCount := nOpCount
  opcodePos := opcodePos
  pbegincodehash := script
  execdata := execdata

/-- The push of an item whose length is the opcode. -/
theorem checkMinimalPush_of_length {data : Bytes} {n : Nat} (sized : data.length = n)
    (long : 1 < n) (short : n ≤ 75) : checkMinimalPush data (UInt8.ofNat n) = true := by
  subst sized
  rcases data with _ | ⟨first, _ | ⟨second, rest⟩⟩
  · exact absurd long (by decide)
  · exact absurd long (lt_irrefl 1)
  · rw [checkMinimalPush, if_pos short, decide_eq_true_iff,
      UInt8.toNat_ofNat_of_lt' (lt_of_le_of_lt short (by decide))]
    · rintro ⟨⟩
    · rintro _ ⟨⟩

section Steps

variable {σ : Type} {crypto : ScriptCrypto} {checker : SignatureChecker σ} {flags : UInt32}
  {vchPubKey vchSig program script pc : Bytes} {execdata : ScriptExecutionData}

/-- An instruction that does not fail hands the machine on. -/
theorem evalLoop_of_pure {rest data : Bytes} {opcode : UInt8} {sigversion : SigVersion}
    {m m' : Machine ConditionStack} (found : getScriptOp pc = some (opcode, data, rest))
    (executes : evalInstruction crypto checker flags sigversion opcode data rest m = pure m') :
    evalLoop crypto checker flags sigversion pc m =
      evalLoop crypto checker flags sigversion rest m' := by
  rw [evalLoop_of_some _ _ _ _ found, executes]
  rfl

theorem evalInstruction_dup :
    evalInstruction crypto checker flags .witnessV0 opDup [] pc
        (.midway [vchPubKey, vchSig] 0 0 script execdata) =
      pure (.midway [vchPubKey, vchPubKey, vchSig] 1 1 script execdata) := rfl

theorem evalInstruction_hash160 :
    evalInstruction crypto checker flags .witnessV0 opHash160 [] pc
        (.midway [vchPubKey, vchPubKey, vchSig] 1 1 script execdata) =
      pure (.midway [HashOp.hash160.eval crypto vchPubKey, vchPubKey, vchSig] 2 2 script
        execdata) := rfl

/-- A push, on any stack that leaves room for it. -/
theorem evalInstruction_push {opcode : UInt8} {data : Bytes} (push : opcode ≤ opPushdata4)
    (small : data.length ≤ maxScriptElementSize) (minimal : checkMinimalPush data opcode = true)
    {sigversion : SigVersion} {stack : List Bytes} {nOpCount : Nat} {opcodePos : UInt32}
    (room : stack.length < maxStackSize) :
    evalInstruction crypto checker flags sigversion opcode data pc
        (.midway stack nOpCount opcodePos script execdata) =
      pure (.midway (data :: stack) nOpCount (opcodePos + 1) script execdata) := by
  have low : ¬ op16 < opcode := fun high =>
    absurd (UInt8.lt_of_lt_of_le high push) (by decide)
  have uncounted : countOperation sigversion opcode
      (.midway stack nOpCount opcodePos script execdata) =
      (pure (.midway stack nOpCount opcodePos script execdata) :
        EStateM EvalError σ (Machine ConditionStack)) := if_neg fun counts => low counts.2
  have enabled : (!isDisabled opcode) = true := by
    have all : ∀ n : Fin 256, UInt8.ofNat n.1 ≤ opPushdata4 →
        (!isDisabled (UInt8.ofNat n.1)) = true := by decide +kernel
    simpa using all ⟨opcode.toNat, opcode.toNat_lt⟩ (by simpa using push)
  have data_only : opcode ≠ opCodeseparator := by
    rintro rfl
    exact absurd push (by decide)
  have pushed : evalOperation crypto checker flags sigversion opcode data pc
      (.midway stack nOpCount opcodePos script execdata) =
        pure (.midway (data :: stack) nOpCount opcodePos script execdata) := by
    rw [evalOperation, if_pos ⟨rfl, push⟩, require_of fun _ => minimal]
    rfl
  have bounded : (Machine.midway (data :: stack) nOpCount opcodePos script execdata).stack.length +
      (Machine.midway (data :: stack) nOpCount opcodePos script execdata).altstack.length ≤
        maxStackSize := room
  rw [evalInstruction, require_of small, uncounted, require_of enabled,
    require_of fun separator => absurd separator data_only]
  simp only [pure_bind, pushed, require_of bounded]
  rfl

/-- The comparison of the hashes. -/
theorem evalInstruction_equalverify {hash : Bytes} :
    evalInstruction crypto checker flags .witnessV0 opEqualverify [] pc
        (.midway [program, hash, vchPubKey, vchSig] 2 3 script execdata) = (do
      require (hash = program) .equalverify
      return .midway [vchPubKey, vchSig] 3 4 script execdata) := by
  have evaluated : StackOp.eval (.equal true) [program, hash, vchPubKey, vchSig] [] =
      demand (hash = program) .equalverify >>= fun _ => .ok ([vchPubKey, vchSig], []) := rfl
  have unfolded : evalInstruction crypto checker flags .witnessV0 opEqualverify [] pc
      (.midway [program, hash, vchPubKey, vchSig] 2 3 script execdata) =
        (ofExcept (StackOp.eval (.equal true) [program, hash, vchPubKey, vchSig] []) >>=
          fun both => pure { Machine.midway [] 3 3 script execdata with
            stack := both.1, altstack := both.2 }) >>= fun final =>
          require (final.stack.length + final.altstack.length ≤ maxStackSize) .stackSize >>=
            fun _ => pure { final with opcodePos := final.opcodePos + 1 } := rfl
  rw [unfolded, evaluated]
  by_cases same : hash = program
  · rw [demand_of same, require_of same]
    rfl
  · rw [demand_of_not same, require_of_not same]
    rfl

/-- The check of the signature. -/
theorem evalInstruction_checksig :
    evalInstruction crypto checker flags .witnessV0 opChecksig [] pc
        (.midway [vchPubKey, vchSig] 3 4 script execdata) = (do
      let fSuccess ←
        evalChecksigPreTapscript crypto checker flags .witnessV0 vchSig vchPubKey script
      return .midway [boolBytes fSuccess] 4 5 script execdata) := by
  have unfolded : evalInstruction crypto checker flags .witnessV0 opChecksig [] pc
      (.midway [vchPubKey, vchSig] 3 4 script execdata) =
        ((evalChecksigPreTapscript crypto checker flags .witnessV0 vchSig vchPubKey script >>=
          fun success => pure (success, execdata)) >>= fun both =>
            ofExcept (pushResult false both.1 .checksigverify []) >>= fun stack =>
              pure { Machine.midway [] 4 4 script both.2 with stack := stack }) >>= fun final =>
          require (final.stack.length + final.altstack.length ≤ maxStackSize) .stackSize >>=
            fun _ => pure { final with opcodePos := final.opcodePos + 1 } := rfl
  rw [unfolded, bind_assoc, bind_assoc]
  refine bind_congr fun fSuccess => ?_
  cases fSuccess <;> rfl

/-- The check of a signature of Dilithium. -/
theorem evalInstruction_checksigdilithium :
    evalInstruction crypto checker flags .witnessV0 opChecksigdilithium [] pc
        (.midway [vchPubKey, vchSig] 3 4 script execdata) = (do
      requireDilithium flags .witnessV0
      let (fSuccess, execdata) ←
        evalChecksigDilithium checker .witnessV0 vchSig vchPubKey script execdata
      require (hasFlag flags scriptVerifyNullfail → fSuccess ∨ vchSig = []) .sigNullfail
      return .midway [boolBytes fSuccess] 4 5 script execdata) := by
  have unfolded : evalInstruction crypto checker flags .witnessV0 opChecksigdilithium [] pc
      (.midway [vchPubKey, vchSig] 3 4 script execdata) =
        (requireDilithium flags .witnessV0 >>= fun _ =>
          evalChecksigDilithium checker .witnessV0 vchSig vchPubKey script execdata >>= fun both =>
            require (hasFlag flags scriptVerifyNullfail → both.1 ∨ vchSig = []) .sigNullfail >>=
              fun _ => ofExcept (pushResult false both.1 .checksigverify []) >>= fun stack =>
                pure { Machine.midway [] 4 4 script both.2 with stack := stack }) >>= fun final =>
          require (final.stack.length + final.altstack.length ≤ maxStackSize) .stackSize >>=
            fun _ => pure { final with opcodePos := final.opcodePos + 1 } := rfl
  rw [unfolded]
  simp only [bind_assoc]
  refine bind_congr fun _ => bind_congr fun (fSuccess, execdata) => bind_congr fun _ => ?_
  cases fSuccess <;> rfl

/-- The loop over the script behind a key hash. -/
theorem evalLoop_impliedScript {opcode : UInt8} (plain : ¬ opcode ≤ opPushdata4)
    (sized : program.length = witnessV0KeyhashSize) :
    evalLoop crypto checker flags .witnessV0 (impliedScript opcode program)
        (.midway [vchPubKey, vchSig] 0 0 script execdata) = (do
      require (HashOp.hash160.eval crypto vchPubKey = program) .equalverify
      evalInstruction crypto checker flags .witnessV0 opcode [] []
        (.midway [vchPubKey, vchSig] 3 4 script execdata)) := by
  have short : program.length < 76 := by
    rw [sized]
    decide
  have push : getScriptOp (Signing.pushData program ++ [opEqualverify, opcode]) =
      some (20, program, [opEqualverify, opcode]) := by
    rw [getScriptOp_pushData short, sized]
    rfl
  have pushed : evalInstruction crypto checker flags .witnessV0 20 program
      [opEqualverify, opcode] (.midway [HashOp.hash160.eval crypto vchPubKey, vchPubKey, vchSig]
        2 2 script execdata) =
      pure (.midway [program, HashOp.hash160.eval crypto vchPubKey, vchPubKey, vchSig] 2 3 script
        execdata) := evalInstruction_push (by decide)
        (sized.le.trans (by decide)) (checkMinimalPush_of_length sized (by decide) (by decide))
        (by simp [maxStackSize])
  have ended : evalLoop crypto checker flags .witnessV0 [] =
      (pure : Machine ConditionStack → EStateM EvalError σ (Machine ConditionStack)) := by
    funext m
    rw [evalLoop_of_none _ _ _ _ rfl, require_of rfl, pure_bind]
  rw [impliedScript, evalLoop_of_pure (getScriptOp_cons (by decide) _) evalInstruction_dup,
    evalLoop_of_pure (getScriptOp_cons (by decide) _) evalInstruction_hash160,
    evalLoop_of_pure push pushed, evalLoop_of_some _ _ _ _ (getScriptOp_cons (by decide) _),
    evalInstruction_equalverify, bind_assoc]
  refine bind_congr fun _ => ?_
  rw [pure_bind, evalLoop_of_some _ _ _ _ (getScriptOp_cons plain _), ended, bind_pure]

/-- What the script behind a key hash leaves to check. -/
theorem evalScript_impliedScript {opcode : UInt8} (plain : ¬ opcode ≤ opPushdata4)
    (sized : program.length = witnessV0KeyhashSize) :
    evalScript crypto checker flags .witnessV0 [vchPubKey, vchSig]
        (impliedScript opcode program) execdata = (do
      require (HashOp.hash160.eval crypto vchPubKey = program) .equalverify
      let m ← evalInstruction crypto checker flags .witnessV0 opcode [] []
        (.midway [vchPubKey, vchSig] 3 4 (impliedScript opcode program)
          { execdata with codeseparatorPos := some 0xffffffff })
      require (Conditions.empty m.vfExec) .unbalancedConditional
      return m.stack) := by
  have small : (impliedScript opcode program).length ≤ maxScriptSize := by
    have one : (Signing.pushData program).length = program.length + 1 := by
      rw [Signing.pushData]
      exact congrArg List.length (if_pos (by rw [sized]; decide))
    simp only [impliedScript, List.length_cons, List.length_append, List.length_nil, one, sized]
    decide
  have version : SigVersion.witnessV0 ≠ SigVersion.taproot := SigVersion.noConfusion
  have started : Machine.start [vchPubKey, vchSig] (impliedScript opcode program) execdata =
      .midway [vchPubKey, vchSig] 0 0 (impliedScript opcode program)
        { execdata with codeseparatorPos := some 0xffffffff } := rfl
  rw [evalScript, evalScriptWith, require_of version, require_of fun _ => small, started,
    evalLoop_impliedScript plain sized]
  simp only [pure_bind, bind_assoc]

/-! ## The execution behind a key hash -/

theorem castToBool_boolBytes (value : Bool) : castToBool (boolBytes value) = value := by
  cases value <;> rfl

variable {state after : σ} {opcode : UInt8}

/-- An execution with one truth value for the check of the signature. -/
theorem runWitnessScript_impliedScript (plain : ¬ opcode ≤ opPushdata4)
    (sized : program.length = witnessV0KeyhashSize) :
    runWitnessScript crypto checker flags [vchSig, vchPubKey] (impliedScript opcode program)
        .witnessV0 execdata state = .ok () after ↔
      (vchSig.length ≤ maxScriptElementSize ∧ vchPubKey.length ≤ maxScriptElementSize) ∧
        HashOp.hash160.eval crypto vchPubKey = program ∧
        ∃ m, evalInstruction crypto checker flags .witnessV0 opcode [] []
            (.midway [vchPubKey, vchSig] 3 4 (impliedScript opcode program)
              { execdata with codeseparatorPos := some 0xffffffff }) state = .ok m after ∧
          Conditions.empty m.vfExec = true ∧ m.stack.length = 1 ∧
            castToBool (m.stack.headD []) = true := by
  have reversed : [vchSig, vchPubKey].reverse = [vchPubKey, vchSig] := rfl
  have untapped : SigVersion.witnessV0.isTapscript = true →
      [vchSig, vchPubKey].length ≤ maxStackSize := fun impossible => by cases impossible
  rw [runWitnessScript, require_of untapped, pure_bind, require_bind_eq_ok, reversed,
    evalScript_impliedScript plain sized]
  constructor
  · rintro ⟨sizes, ran⟩
    obtain ⟨stack, between, evaluated, ran⟩ := bind_eq_ok.mp ran
    obtain ⟨hashed, evaluated⟩ := require_bind_eq_ok.mp evaluated
    obtain ⟨m, _, executed, evaluated⟩ := bind_eq_ok.mp evaluated
    obtain ⟨balanced, evaluated⟩ := require_bind_eq_ok.mp evaluated
    obtain ⟨rfl, rfl⟩ := pure_eq_ok.mp evaluated
    obtain ⟨single, ran⟩ := require_bind_eq_ok.mp ran
    obtain ⟨truth, rfl⟩ := require_eq_ok.mp ran
    exact ⟨by simpa using sizes, hashed, m, executed, balanced, single, truth⟩
  · rintro ⟨sizes, hashed, m, executed, balanced, single, truth⟩
    refine ⟨by simpa using sizes, bind_eq_ok.mpr ⟨m.stack, after, ?_, ?_⟩⟩
    · exact require_bind_eq_ok.mpr ⟨hashed, bind_eq_ok.mpr ⟨m, after, executed,
        require_bind_eq_ok.mpr ⟨balanced, pure_eq_ok.mpr ⟨rfl, rfl⟩⟩⟩⟩
    · exact require_bind_eq_ok.mpr ⟨single, require_eq_ok.mpr ⟨truth, rfl⟩⟩

/-- Before tapscript, the check of a signature of ECDSA. -/
theorem evalChecksigPreTapscript_eq_true {scriptCode : Bytes} :
    evalChecksigPreTapscript crypto checker flags .witnessV0 vchSig vchPubKey scriptCode state =
        .ok true after ↔
      checkSignatureEncoding crypto.checkLowS vchSig flags = .ok () ∧
        checkPubKeyEncoding vchPubKey flags .witnessV0 = .ok () ∧
        checker.checkECDSASignature vchSig vchPubKey scriptCode .witnessV0 state =
          .ok true after := by
  have undropped : dropSignature flags .witnessV0 scriptCode vchSig =
      (pure scriptCode : EStateM EvalError σ Bytes) := if_neg SigVersion.noConfusion
  rw [evalChecksigPreTapscript, undropped, pure_bind, checkEncodedSignature]
  constructor
  · intro ran
    obtain ⟨accepted, _, checked, ran⟩ := bind_eq_ok.mp ran
    obtain ⟨-, ran⟩ := require_bind_eq_ok.mp ran
    obtain ⟨rfl, rfl⟩ := pure_eq_ok.mp ran
    obtain ⟨_, sigEncoding, checked⟩ := ofExcept_bind_eq_ok.mp checked
    obtain ⟨_, pubKeyEncoding, checked⟩ := ofExcept_bind_eq_ok.mp checked
    exact ⟨sigEncoding, pubKeyEncoding, checked⟩
  · rintro ⟨sigEncoding, pubKeyEncoding, checked⟩
    refine bind_eq_ok.mpr ⟨true, after, ?_, ?_⟩
    · exact ofExcept_bind_eq_ok.mpr ⟨(), sigEncoding, ofExcept_bind_eq_ok.mpr
        ⟨(), pubKeyEncoding, checked⟩⟩
    · exact require_bind_eq_ok.mpr ⟨fun _ => .inl rfl, pure_eq_ok.mpr ⟨rfl, rfl⟩⟩

/-- A key hash of ECDSA. -/
theorem runWitnessScript_checksig (sized : program.length = witnessV0KeyhashSize) :
    runWitnessScript crypto checker flags [vchSig, vchPubKey] (impliedScript opChecksig program)
        .witnessV0 execdata state = .ok () after ↔
      (vchSig.length ≤ maxScriptElementSize ∧ vchPubKey.length ≤ maxScriptElementSize) ∧
        HashOp.hash160.eval crypto vchPubKey = program ∧
        checkSignatureEncoding crypto.checkLowS vchSig flags = .ok () ∧
        checkPubKeyEncoding vchPubKey flags .witnessV0 = .ok () ∧
        checker.checkECDSASignature vchSig vchPubKey (impliedScript opChecksig program) .witnessV0
          state = .ok true after := by
  rw [runWitnessScript_impliedScript (by decide) sized, evalInstruction_checksig,
    ← evalChecksigPreTapscript_eq_true]
  refine and_congr_right fun _ => and_congr_right fun _ => ?_
  constructor
  · rintro ⟨m, ran, -, -, truth⟩
    obtain ⟨fSuccess, _, checked, ran⟩ := bind_eq_ok.mp ran
    obtain ⟨rfl, rfl⟩ := pure_eq_ok.mp ran
    have accepted : fSuccess = true := (castToBool_boolBytes fSuccess).symm.trans truth
    rwa [accepted] at checked
  · intro checked
    exact ⟨_, bind_eq_ok.mpr ⟨true, after, checked, pure_eq_ok.mpr ⟨rfl, rfl⟩⟩, rfl, rfl, rfl⟩

/-- A key hash of Dilithium. -/
theorem runWitnessScript_checksigdilithium (sized : program.length = witnessV0KeyhashSize) :
    runWitnessScript crypto checker flags [vchSig, vchPubKey]
        (impliedScript opChecksigdilithium program) .witnessV0 execdata state = .ok () after ↔
      (vchSig.length ≤ maxScriptElementSize ∧ vchPubKey.length ≤ maxScriptElementSize) ∧
        HashOp.hash160.eval crypto vchPubKey = program ∧
        hasFlag flags scriptVerifyDilithiumP2mrOnly = false ∧
        hasFlag flags scriptVerifyDilithium = true ∧
        (vchSig = [] ∨ vchSig.length = dilithiumSignatureSize + 1) ∧
        isValidDilithiumPubKey vchPubKey = true ∧
        ∃ execdata', checker.checkDilithiumSignature vchSig vchPubKey
          (impliedScript opChecksigdilithium program) .witnessV0
            { execdata with codeseparatorPos := some 0xffffffff } state =
              .ok (true, execdata') after := by
  rw [runWitnessScript_impliedScript (by decide) sized, evalInstruction_checksigdilithium]
  refine and_congr_right fun _ => and_congr_right fun _ => ?_
  have version : ¬ (SigVersion.witnessV0 = .p2mrTapscript ∧ vchSig ≠ []) := fun both =>
    SigVersion.noConfusion both.1
  simp only [requireDilithium, evalChecksigDilithium, bind_assoc, if_neg version, pure_bind]
  constructor
  · rintro ⟨m, ran, -, -, truth⟩
    obtain ⟨native, ran⟩ := require_bind_eq_ok.mp ran
    obtain ⟨allowed, ran⟩ := require_bind_eq_ok.mp ran
    obtain ⟨sigSize, ran⟩ := require_bind_eq_ok.mp ran
    obtain ⟨pubKeyEncoding, ran⟩ := require_bind_eq_ok.mp ran
    obtain ⟨⟨fSuccess, execdata'⟩, _, checked, ran⟩ := bind_eq_ok.mp ran
    obtain ⟨-, ran⟩ := require_bind_eq_ok.mp ran
    obtain ⟨rfl, rfl⟩ := pure_eq_ok.mp ran
    have accepted : fSuccess = true := (castToBool_boolBytes fSuccess).symm.trans truth
    subst accepted
    split_ifs at native with only
    exact ⟨Bool.eq_false_of_not_eq_true only, allowed, sigSize, pubKeyEncoding, execdata', checked⟩
  · rintro ⟨plain, allowed, sigSize, pubKeyEncoding, execdata', checked⟩
    have native : (if hasFlag flags scriptVerifyDilithiumP2mrOnly = true then
        SigVersion.witnessV0 = .p2mrTapscript else SigVersion.witnessV0 ≠ .tapscript) := by
      rw [plain, if_neg Bool.false_ne_true]
      exact SigVersion.noConfusion
    refine ⟨_, require_bind_eq_ok.mpr ⟨native, require_bind_eq_ok.mpr ⟨allowed,
      require_bind_eq_ok.mpr ⟨sigSize, require_bind_eq_ok.mpr ⟨pubKeyEncoding,
        bind_eq_ok.mpr ⟨(true, execdata'), after, checked, require_bind_eq_ok.mpr
          ⟨fun _ => .inl rfl, pure_eq_ok.mpr ⟨rfl, rfl⟩⟩⟩⟩⟩⟩⟩, rfl, rfl, rfl⟩

end Steps

end QuantyCoin
