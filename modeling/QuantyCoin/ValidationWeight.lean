import QuantyCoin.InterpreterInvariants
import QuantyCoin.RelatedRuns
import QuantyCoin.TransactionChecker

/-!
# The budget of signature checks

In tapscripts every check of a signature is paid with validation weight, and what a witness
can pay is decided by its size.  The checks are counted by a checker that passes them on,
so that the bound is one on whole runs of `VerifyScript`, those that end in an error included.
-/

namespace QuantyCoin

open ByteDecoder OrderedDict StateSimulation StateTriples

/-! ## Counting checks -/

/-- The checks that were made, by the kind of the signature; those of Dilithium apart from P2MR
and in its leaf scripts, without those of an empty signature. -/
structure CheckCounts where
  ecdsa : Nat
  schnorr : Nat
  dilithium : Nat
  p2mrDilithium : Nat

namespace CheckCounts

/-- No checks. -/
def zero : CheckCounts := ⟨0, 0, 0, 0⟩

/-- The weight that the checks of tapscripts cost. -/
def weight (counts : CheckCounts) : Int :=
  validationWeightPerSigopPassed * counts.schnorr +
    validationWeightPerDilithiumSigopPassed * counts.p2mrDilithium

def addEcdsa (counts : CheckCounts) : CheckCounts := { counts with ecdsa := counts.ecdsa + 1 }

def addSchnorr (counts : CheckCounts) : CheckCounts :=
  { counts with schnorr := counts.schnorr + 1 }

/-- One more check of a signature of Dilithium. -/
def addDilithium (sigversion : SigVersion) (vchSig : Bytes) (counts : CheckCounts) :
    CheckCounts :=
  if vchSig = [] then counts
  else if sigversion = .p2mrTapscript then
    { counts with p2mrDilithium := counts.p2mrDilithium + 1 }
  else { counts with dilithium := counts.dilithium + 1 }

end CheckCounts

section Counting

variable {ε σ γ α : Type}

/-- Run a program beside a value that it updates. -/
def counting (update : γ → γ) (program : EStateM ε σ α) : EStateM ε (σ × γ) α := fun both =>
  match program both.1 with
  | .ok value state => .ok value (state, update both.2)
  | .error error state => .error error (state, update both.2)

/-- The program does not notice. -/
theorem agree_counting (update : γ → γ) (program : EStateM ε σ α) :
    Agree (fun state both => both.1 = state) program (counting update program) := by
  rintro _ ⟨state, counts⟩ rfl
  simp only [counting]
  cases program state with
  | ok value state => exact .ok ⟨rfl, rfl⟩
  | error error state => exact .error rfl

theorem triple_counting (update : γ → γ) {program : EStateM ε σ α} (pre raised : γ → Prop)
    (post : α → γ → Prop)
    (returns : ∀ counts value state after, pre counts → program state = .ok value after →
      post value (update counts))
    (raises : ∀ counts, pre counts → raised (update counts)) :
    Triple (fun both => pre both.2) (counting update program) (fun value both => post value both.2)
      fun both => raised both.2 := by
  rintro ⟨state, counts⟩ start
  simp only [counting]
  cases outcome : program state with
  | ok value after => exact returns counts value state after start outcome
  | error error after => exact raises counts start

end Counting

/-- The checker that counts its checks. -/
def SignatureChecker.counted {σ : Type} (checker : SignatureChecker σ) :
    SignatureChecker (σ × CheckCounts) where
  taproot := checker.taproot
  checkECDSASignature vchSig vchPubKey scriptCode sigversion :=
    counting .addEcdsa (checker.checkECDSASignature vchSig vchPubKey scriptCode sigversion)
  checkSchnorrSignature sig pubkey sigversion execdata :=
    counting .addSchnorr (checker.checkSchnorrSignature sig pubkey sigversion execdata)
  checkDilithiumSignature vchSig vchPubKey scriptCode sigversion execdata :=
    counting (.addDilithium sigversion vchSig)
      (checker.checkDilithiumSignature vchSig vchPubKey scriptCode sigversion execdata)
  checkLockTime := checker.checkLockTime
  checkSequence := checker.checkSequence

theorem SignatureChecker.relatedCheckers_counted {σ : Type} (checker : SignatureChecker σ) :
    RelatedCheckers (fun state both => both.1 = state) checker checker.counted where
  taproot := rfl
  ecdsa _ _ _ _ := agree_counting CheckCounts.addEcdsa _
  schnorr _ _ _ _ := agree_counting CheckCounts.addSchnorr _
  dilithium vchSig _ _ sigversion _ := agree_counting (CheckCounts.addDilithium sigversion vchSig) _
  lockTime := rfl
  sequence := rfl

/-! ## What a check leaves of the weight -/

/-- The checker hands back the weight that is left. -/
structure KeepsWeight {σ : Type} (checker : SignatureChecker σ) : Prop where
  schnorr : ∀ {sig pubkey sigversion execdata after state state'},
    checker.checkSchnorrSignature sig pubkey sigversion execdata state = .ok after state' →
      after.validationWeightLeft = execdata.validationWeightLeft
  dilithium : ∀ {vchSig vchPubKey scriptCode sigversion execdata after state state'},
    checker.checkDilithiumSignature vchSig vchPubKey scriptCode sigversion execdata state =
      .ok after state' → after.2.validationWeightLeft = execdata.validationWeightLeft

theorem hashSingleOutput_execdata (crypto : TransactionCrypto) (txTo : CTransaction)
    (inPos : UInt32) (hashType : UInt8) (execdata : ScriptExecutionData) :
    ∃ outputHash, (hashSingleOutput crypto txTo inPos hashType execdata).2 =
      { execdata with outputHash := outputHash } := by
  rw [hashSingleOutput]
  split_ifs
  · cases txTo.vout[inPos.toNat]? with
    | none => exact ⟨execdata.outputHash, rfl⟩
    | some out => exact ⟨_, rfl⟩
  · exact ⟨execdata.outputHash, rfl⟩

/-- `SignatureHashSchnorr` only remembers the hash of an output. -/
theorem signatureHashSchnorr_execdata {crypto : TransactionCrypto} {txTo : CTransaction}
    {inPos : UInt32} {hashType : UInt8} {sigversion : SigVersion}
    {cache : TaprootTransactionData} {mdb : MissingDataBehavior}
    {execdata : ScriptExecutionData} {hash : Option Uint256} {after : ScriptExecutionData}
    (hashed : signatureHashSchnorr crypto txTo inPos hashType sigversion cache mdb execdata =
      .ok (hash, after)) : ∃ outputHash, after = { execdata with outputHash := outputHash } := by
  have unchanged : ∃ outputHash, execdata = { execdata with outputHash := outputHash } :=
    ⟨execdata.outputHash, rfl⟩
  rw [signatureHashSchnorr] at hashed
  obtain ⟨_, -, hashed⟩ := except_bind_eq_ok.mp hashed
  obtain ⟨_, -, hashed⟩ := except_bind_eq_ok.mp hashed
  split_ifs at hashed with missing undefined
  · cases handleMissingData_eq_ok hashed
    exact unchanged
  · cases hashed
    exact unchanged
  · split at hashed
    · have remembered := hashSingleOutput_execdata crypto txTo inPos hashType execdata
      generalize hashSingleOutput crypto txTo inPos hashType execdata = both at hashed remembered
      obtain ⟨single, middle⟩ := both
      dsimp only at hashed remembered
      split_ifs at hashed
      · cases hashed
        exact remembered
      · split at hashed
        · cases hashed
        · cases hashed
          exact remembered
    · cases hashed

theorem TransactionSignatureChecker.dilithiumSighash_execdata {crypto : TransactionCrypto}
    {checker : TransactionSignatureChecker} {scriptCode : Bytes} {nHashType : UInt8}
    {sigversion : SigVersion} {execdata after : ScriptExecutionData} {hash : Option Uint256}
    {state state' : Option SigHashCache}
    (hashed : checker.dilithiumSighash crypto scriptCode nHashType sigversion execdata state =
      .ok (hash, after) state') :
    ∃ outputHash, after = { execdata with outputHash := outputHash } := by
  have unchanged : ∃ outputHash, execdata = { execdata with outputHash := outputHash } :=
    ⟨execdata.outputHash, rfl⟩
  rw [dilithiumSighash] at hashed
  by_cases p2mr : sigversion = .p2mrTapscript
  · rw [if_pos p2mr] at hashed
    by_cases default : nHashType = 0
    · rw [if_pos default] at hashed
      cases hashed
      exact unchanged
    · rw [if_neg default] at hashed
      cases data : checker.txdata with
      | none =>
          rw [data] at hashed
          cases handleMissingData_eq_ok (ofExcept_eq_ok.mp hashed).1
          exact unchanged
      | some cache =>
          rw [data] at hashed
          exact signatureHashSchnorr_execdata (ofExcept_eq_ok.mp hashed).1
  · rw [if_neg p2mr] at hashed
    obtain ⟨sighash, between, -, returned⟩ := bind_eq_ok.mp hashed
    cases returned
    exact unchanged

theorem TransactionSignatureChecker.keepsWeight (crypto : TransactionCrypto)
    (checker : TransactionSignatureChecker) :
    KeepsWeight (checker.toSignatureChecker crypto) where
  schnorr := by
    intro sig pubkey sigversion execdata after state state' checked
    obtain ⟨checked, -⟩ := ofExcept_eq_ok.mp checked
    rw [checkSchnorrSignature] at checked
    obtain ⟨_, -, checked⟩ := except_bind_eq_ok.mp checked
    obtain ⟨_, -, checked⟩ := except_bind_eq_ok.mp checked
    obtain ⟨_, -, checked⟩ := except_bind_eq_ok.mp checked
    obtain ⟨_, -, checked⟩ := except_bind_eq_ok.mp checked
    cases data : checker.txdata with
    | none =>
        rw [data] at checked
        obtain ⟨_, -, checked⟩ := except_bind_eq_ok.mp checked
        cases checked
    | some cache =>
        rw [data] at checked
        obtain ⟨⟨sighash, middle⟩, hashed, checked⟩ := except_bind_eq_ok.mp checked
        obtain ⟨outputHash, rfl⟩ := signatureHashSchnorr_execdata hashed
        cases sighash with
        | none => cases checked
        | some sighash =>
            obtain ⟨_, -, checked⟩ := except_bind_eq_ok.mp checked
            cases checked
            rfl
  dilithium := by
    intro vchSig vchPubKey scriptCode sigversion execdata after state state' checked
    change checker.checkDilithiumSignature crypto vchSig vchPubKey scriptCode sigversion execdata
      state = .ok after state' at checked
    rw [checkDilithiumSignature] at checked
    by_cases invalid : ¬ (vchPubKey.length = dilithiumPubKeySize ∧ vchPubKey.any (· ≠ 0) = true)
    · rw [if_pos invalid] at checked
      cases checked
      rfl
    · rw [if_neg invalid] at checked
      cases last : vchSig.getLast? with
      | none =>
          rw [last] at checked
          cases checked
          rfl
      | some nHashType =>
          rw [last] at checked
          dsimp only at checked
          by_cases negative : sigversion = .witnessV0 ∧ checker.amount < 0
          · rw [if_pos negative] at checked
            cases handleMissingData_eq_ok (ofExcept_eq_ok.mp checked).1
            rfl
          · rw [if_neg negative] at checked
            obtain ⟨⟨sighash, middle⟩, between, hashed, checked⟩ := bind_eq_ok.mp checked
            obtain ⟨outputHash, rfl⟩ := dilithiumSighash_execdata hashed
            cases sighash <;> cases checked <;> rfl

/-! ## The checks of a script -/

/-- What is left in a tapscript is not negative, and nobody pays more than `bound`. -/
def PaysFor (bound : Int) (sigversion : SigVersion) (execdata : ScriptExecutionData)
    (counts : CheckCounts) : Prop :=
  if sigversion.isTapscript then
    ∃ left, execdata.validationWeightLeft = some left ∧ 0 ≤ left ∧ counts.weight + left ≤ bound
  else counts.weight ≤ bound

/-- A check has been paid but not made. -/
def HasPaid (bound weight : Int) (execdata : ScriptExecutionData) (counts : CheckCounts) : Prop :=
  ∃ left, execdata.validationWeightLeft = some left ∧ 0 ≤ left ∧
    counts.weight + weight + left ≤ bound

section Paying

variable {σ : Type} {checker : SignatureChecker σ} {crypto : ScriptCrypto} {flags : UInt32}
  {sigversion : SigVersion} {bound : Int} {execdata : ScriptExecutionData}
  {counts : CheckCounts}

theorem PaysFor.within (pays : PaysFor bound sigversion execdata counts) :
    counts.weight ≤ bound := by
  rw [PaysFor] at pays
  split_ifs at pays
  · obtain ⟨left, -, positive, paid⟩ := pays
    omega
  · exact pays

theorem paysFor_of_tapscript (tapscript : sigversion.isTapscript = true) :
    PaysFor bound sigversion execdata counts ↔
      ∃ left, execdata.validationWeightLeft = some left ∧ 0 ≤ left ∧
        counts.weight + left ≤ bound := by
  rw [PaysFor, if_pos tapscript]

theorem triple_spendWeight (tapscript : sigversion.isTapscript = true) (weight : Int) :
    Triple (fun both : σ × CheckCounts => PaysFor bound sigversion execdata both.2)
      (spendWeight weight execdata) (fun after both => HasPaid bound weight after both.2)
      fun both => both.2.weight ≤ bound := by
  rintro ⟨state, counts⟩ pays
  obtain ⟨left, initialized, positive, paid⟩ := (paysFor_of_tapscript tapscript).mp pays
  have spent : counts.weight + weight + (left - weight) ≤ bound := by
    have paid : counts.weight + left ≤ bound := paid
    omega
  rw [spendWeight, initialized]
  by_cases enough : 0 ≤ left - weight
  · simp only [require_of enough]
    exact ⟨left - weight, rfl, enough, spent⟩
  · simp only [require_of_not enough]
    exact pays.within

theorem weight_addSchnorr (counts : CheckCounts) :
    counts.addSchnorr.weight = counts.weight + validationWeightPerSigopPassed := by
  simp only [CheckCounts.weight, CheckCounts.addSchnorr]
  push_cast
  ring

theorem weight_addDilithium (counts : CheckCounts) (vchSig : Bytes) :
    (counts.addDilithium sigversion vchSig).weight = counts.weight +
      if sigversion = .p2mrTapscript ∧ vchSig ≠ [] then validationWeightPerDilithiumSigopPassed
      else 0 := by
  by_cases empty : vchSig = []
  · simp [CheckCounts.addDilithium, empty]
  · by_cases p2mr : sigversion = .p2mrTapscript
    · simp only [CheckCounts.addDilithium, empty, p2mr, CheckCounts.weight, if_false, if_true,
        ne_eq, not_false_eq_true, and_self]
      push_cast
      ring
    · simp [CheckCounts.addDilithium, empty, p2mr, CheckCounts.weight]

/-- The check of a Schnorr signature is paid. -/
theorem triple_evalChecksigTapscript (keeps : KeepsWeight checker)
    (tapscript : sigversion.isTapscript = true) (sig pubkey : Bytes) :
    Triple (fun both : σ × CheckCounts => PaysFor bound sigversion execdata both.2)
      (evalChecksigTapscript checker.counted flags sigversion sig pubkey execdata)
      (fun result both => PaysFor bound sigversion result.2 both.2)
      fun both => both.2.weight ≤ bound := by
  rw [evalChecksigTapscript]
  by_cases empty : sig = []
  · simp only [empty, ne_eq, not_true_eq_false, if_false, pure_bind]
    split_ifs
    · exact .throw fun _ => PaysFor.within
    · exact .pure fun _ here => here
    · exact (Triple.require fun _ => PaysFor.within).bind fun _ => .assuming fun _ =>
        .pure fun _ here => here
  · simp only [empty, ne_eq, not_false_eq_true, if_true]
    refine (triple_spendWeight tapscript _).bind fun after => ?_
    have paid : ∀ both : σ × CheckCounts,
        HasPaid bound validationWeightPerSigopPassed after both.2 →
          PaysFor bound sigversion after both.2 := by
      rintro both ⟨left, initialized, positive, paid⟩
      refine (paysFor_of_tapscript tapscript).mpr ⟨left, initialized, positive, ?_⟩
      rw [validationWeightPerSigopPassed] at paid
      omega
    split_ifs
    · exact .throw fun both here => (paid both here).within
    · have checked : Triple
          (fun both : σ × CheckCounts => HasPaid bound validationWeightPerSigopPassed after both.2)
          (checker.counted.checkSchnorrSignature sig pubkey sigversion after)
          (fun result both => PaysFor bound sigversion result both.2)
          fun both => both.2.weight ≤ bound := by
        refine triple_counting CheckCounts.addSchnorr
          (HasPaid bound validationWeightPerSigopPassed after) (fun counts => counts.weight ≤ bound)
          (PaysFor bound sigversion) ?_ ?_
        · rintro counts result state state' ⟨left, initialized, positive, paid⟩ returned
          rw [paysFor_of_tapscript tapscript, weight_addSchnorr]
          exact ⟨left, (keeps.schnorr returned).trans initialized, positive, paid⟩
        · rintro counts ⟨left, -, positive, paid⟩
          rw [weight_addSchnorr]
          omega
      exact checked.bind fun _ => .pure fun _ here => here
    · exact (Triple.require fun both here => (paid both here).within).bind fun _ =>
        .assuming fun _ => .pure fun both here => paid both here

/-- The check of a signature of Dilithium is paid in the leaf scripts of P2MR. -/
theorem triple_evalChecksigDilithium (keeps : KeepsWeight checker)
    (sig pubkey scriptCode : Bytes) :
    Triple (fun both : σ × CheckCounts => PaysFor bound sigversion execdata both.2)
      (evalChecksigDilithium checker.counted sigversion sig pubkey scriptCode execdata)
      (fun result both => PaysFor bound sigversion result.2 both.2)
      fun both => both.2.weight ≤ bound := by
  refine (Triple.require fun _ => PaysFor.within).bind fun _ => .assuming fun _ => ?_
  refine (Triple.require fun _ => PaysFor.within).bind fun _ => .assuming fun _ => ?_
  by_cases pays : sigversion = .p2mrTapscript ∧ sig ≠ []
  · have tapscript : sigversion.isTapscript = true := by
      rw [pays.1]
      rfl
    rw [if_pos pays]
    refine (triple_spendWeight tapscript _).bind fun after => ?_
    refine triple_counting (CheckCounts.addDilithium sigversion sig)
      (HasPaid bound validationWeightPerDilithiumSigopPassed after)
      (fun counts => counts.weight ≤ bound)
      (fun (result : Bool × ScriptExecutionData) => PaysFor bound sigversion result.2) ?_ ?_
    · rintro counts result state state' ⟨left, initialized, positive, paid⟩ returned
      rw [paysFor_of_tapscript tapscript, weight_addDilithium, if_pos pays]
      exact ⟨left, (keeps.dilithium returned).trans initialized, positive, paid⟩
    · rintro counts ⟨left, -, positive, paid⟩
      rw [weight_addDilithium, if_pos pays]
      omega
  · rw [if_neg pays, pure_bind]
    refine triple_counting (CheckCounts.addDilithium sigversion sig)
      (PaysFor bound sigversion execdata) (fun counts => counts.weight ≤ bound)
      (fun (result : Bool × ScriptExecutionData) => PaysFor bound sigversion result.2) ?_ ?_
    · intro counts result state state' here returned
      rw [PaysFor, weight_addDilithium, if_neg pays, Int.add_zero, keeps.dilithium returned]
      exact here
    · intro counts here
      rw [weight_addDilithium, if_neg pays, Int.add_zero]
      exact here.within

theorem checkInvariant_weight (keeps : KeepsWeight checker) (bound : Int) :
    CheckInvariant crypto checker.counted flags sigversion
      (fun execdata both => PaysFor bound sigversion execdata both.2)
      (fun both => both.2.weight ≤ bound) where
  raises := PaysFor.within
  separator _ here := here
  ecdsa _ execdata _ _ _ :=
    triple_counting CheckCounts.addEcdsa (PaysFor bound sigversion execdata)
      (fun counts => counts.weight ≤ bound) (fun _ => PaysFor bound sigversion execdata)
      (fun _ _ _ _ here _ => here) fun _ here => here.within
  schnorr tapscript _ _ _ := triple_evalChecksigTapscript keeps tapscript _ _
  dilithium _ _ _ _ := triple_evalChecksigDilithium keeps _ _ _

end Paying

/-! ## The weight of a witness -/

/-- A script of witness version 0, or a leaf script with the weight of its witness. -/
def WitnessExecution.IsWeighed (witness : List Bytes) : WitnessExecution → Prop
  | .witnessV0 _ _ => True
  | .tapscript leaf | .p2mrTapscript leaf => leaf.validationWeightLeft = validationWeight witness

theorem verifyTaprootProgram_isWeighed {hashes : ScriptHashes} {taproot : TaprootChecker}
    {witness : List Bytes} {program : Bytes} {flags : UInt32} {execution : WitnessExecution}
    (executes : verifyTaprootProgram hashes taproot witness program flags = .execute execution) :
    execution.IsWeighed witness := by
  rw [verifyTaprootProgram] at executes
  generalize popAnnex hashes witness = popped at executes
  obtain ⟨annexHash, stack⟩ := popped
  dsimp only at executes
  generalize stack.reverse = reversed at executes
  rcases reversed with _ | ⟨control, _ | ⟨script, rest⟩⟩
  · split_ifs at executes
  · dsimp only at executes
    split_ifs at executes
    all_goals
      split at executes
      · cases executes
      · cases executes
  · dsimp only at executes
    split_ifs at executes
    cases executes
    rfl

theorem verifyP2MRProgram_isWeighed {hashes : ScriptHashes} {flags : VerifyFlags}
    {witness : List Bytes} {program : Bytes} {execution : WitnessExecution}
    (executes : (verifyP2MRProgram hashes flags witness program).toProgramCheck =
      .execute execution) : execution.IsWeighed witness := by
  rw [verifyP2MRProgram] at executes
  generalize popAnnex hashes witness = popped at executes
  obtain ⟨annexHash, stack⟩ := popped
  dsimp only at executes
  generalize stack.reverse = reversed at executes
  rcases reversed with _ | ⟨control, _ | ⟨script, rest⟩⟩
  · split_ifs at executes <;> cases executes
  · split_ifs at executes <;> cases executes
  · dsimp only at executes
    split_ifs at executes <;> cases executes
    rfl

/-- Only witness version 0 is executed behind a script hash. -/
theorem verifyWitnessProgram_isWeighed {hashes : ScriptHashes} {taproot : TaprootChecker}
    {witness : List Bytes} {witversion : Int} {program : Bytes} {flags : UInt32} {isP2sh : Bool}
    {execution : WitnessExecution}
    (executes : verifyWitnessProgram hashes taproot witness witversion program flags isP2sh =
      .execute execution) :
    execution.IsWeighed witness ∧
      (isP2sh = true → execution.arguments.2.1 = .witnessV0) := by
  rw [verifyWitnessProgram] at executes
  split_ifs at executes with zero scripthash keyhash one two
  · rw [verifyScripthashProgram] at executes
    split at executes
    · cases executes
    · split_ifs at executes
      cases executes
      exact ⟨True.intro, fun _ => rfl⟩
  · rcases witness with _ | ⟨vchSig, _ | ⟨vchPubKey, _ | ⟨third, rest⟩⟩⟩
    · cases executes
    · cases executes
    · rw [verifyKeyhashProgram] at executes
      split_ifs at executes <;> cases executes <;> exact ⟨True.intro, fun _ => rfl⟩
    · cases executes
  · have native : isP2sh = false := by simpa using one.2.2
    exact ⟨verifyTaprootProgram_isWeighed executes, fun wrapped =>
      absurd (wrapped.symm.trans native) (by decide)⟩
  · have native : isP2sh = false := by simpa using two.2.2
    exact ⟨verifyP2MRProgram_isWeighed executes, fun wrapped => absurd (wrapped.symm.trans native)
      (by decide)⟩

section Verifier

variable {σ : Type} {checker : SignatureChecker σ} {crypto : ScriptCrypto} {flags : UInt32}

/-- Nobody has paid more than `bound`. -/
def Paid (bound : Int) (both : σ × CheckCounts) : Prop := both.2.weight ≤ bound

theorem Paid.mono {bound bound' : Int} (le : bound ≤ bound') {both : σ × CheckCounts}
    (paid : Paid bound both) : Paid bound' both := le_trans paid le

/-- Before tapscript nothing is paid. -/
theorem keeps_evalScript (keeps : KeepsWeight checker) (bound : Int) (stack : List Bytes)
    (script : Bytes) :
    Keeps (Paid bound) (evalScript crypto checker.counted flags .base stack script .new) := by
  have run : Triple (fun both => PaysFor bound .base .new both.2)
      (evalScript crypto checker.counted flags .base stack script .new) (fun _ => Paid bound)
      (Paid bound) := (checkInvariant_weight keeps bound).evalScript stack script .new
  exact run

theorem keeps_evalTrue (keeps : KeepsWeight checker) (bound : Int) (stack : List Bytes)
    (script : Bytes) :
    Keeps (Paid bound) (evalTrue crypto checker.counted flags stack script) :=
  (keeps_evalScript keeps bound stack script).bind fun _ => Keeps.require.bind fun _ => .pure _

theorem triple_executeWitnessScript (keeps : KeepsWeight checker) {bound : Int}
    {stack : List Bytes} {execScript : Bytes} {sigversion : SigVersion}
    {execdata : ScriptExecutionData} :
    Triple (fun both => PaysFor bound sigversion execdata both.2)
      (executeWitnessScript crypto checker.counted flags stack execScript sigversion execdata)
      (fun _ => Paid bound) (Paid bound) := by
  have runs : Triple (fun both => PaysFor bound sigversion execdata both.2)
      (runWitnessScript crypto checker.counted flags stack execScript sigversion execdata)
      (fun _ => Paid bound) (Paid bound) := by
    refine (Triple.require fun _ => PaysFor.within).bind fun _ => .assuming fun _ => ?_
    refine (Triple.require fun _ => PaysFor.within).bind fun _ => .assuming fun _ => ?_
    refine ((checkInvariant_weight keeps bound).evalScript _ _ _).bind fun _ => ?_
    refine (Triple.require fun _ here => here).bind fun _ => .assuming fun _ => ?_
    exact (Triple.require fun _ here => here).weaken (fun _ here => here) fun _ _ both => both.2
  rw [executeWitnessScript]
  split_ifs
  · refine (Triple.ofExcept fun _ => PaysFor.within).bind fun success => .assuming fun _ => ?_
    split_ifs
    · exact (Triple.require fun _ => PaysFor.within).weaken (fun _ here => here)
        fun _ _ both => both.2.within
    · exact runs
  · exact runs

/-- A leaf script starts with the weight of its witness. -/
theorem paysFor_leaf {witness : List Bytes} {isP2sh : Bool} {both : σ × CheckCounts}
    {sigversion : SigVersion} (leaf : LeafExecution)
    (weighed : leaf.validationWeightLeft = validationWeight witness)
    (tapscript : sigversion.isTapscript = true) (native : isP2sh = true → sigversion = .witnessV0)
    (paid : Paid (if isP2sh then validationWeight witness else 0) both) :
    PaysFor (validationWeight witness) sigversion leaf.execdata both.2 := by
  have unwrapped : isP2sh = false := by
    rw [Bool.eq_false_iff]
    intro wrapped
    rw [native wrapped] at tapscript
    cases tapscript
  refine (paysFor_of_tapscript tapscript).mpr
    ⟨validationWeight witness, congrArg (fun weight : Nat => some (weight : Int)) weighed,
      Int.natCast_nonneg _, ?_⟩
  rw [unwrapped, if_neg Bool.false_ne_true, Paid] at paid
  omega

/-- A witness pays with its own weight. -/
theorem triple_evalWitnessProgram (keeps : KeepsWeight checker) (witness : List Bytes)
    (witversion : Int) (program : Bytes) (isP2sh : Bool) :
    Triple (Paid (if isP2sh then validationWeight witness else 0))
      (evalWitnessProgram crypto checker.counted flags witness witversion program isP2sh)
      (fun _ => Paid (validationWeight witness)) (Paid (validationWeight witness)) := by
  have enough : (if isP2sh = true then (validationWeight witness : Int) else 0) ≤
      validationWeight witness := by
    split_ifs
    · exact le_rfl
    · exact Int.natCast_nonneg _
  rw [evalWitnessProgram]
  have untaxed : checker.counted.taproot = checker.taproot := rfl
  rw [untaxed]
  cases executes : verifyWitnessProgram crypto.toScriptHashes checker.taproot witness witversion
      program flags isP2sh with
  | failed error => exact .throw fun _ => Paid.mono enough
  | succeeded => exact .pure fun _ => Paid.mono enough
  | execute execution =>
      obtain ⟨weighed, wrapped⟩ := verifyWitnessProgram_isWeighed executes
      refine (triple_executeWitnessScript keeps).consequence ?_ (fun _ _ here => here)
        fun _ here => here
      intro both paid
      cases execution with
      | witnessV0 stack script => exact paid.mono enough
      | tapscript leaf => exact paysFor_leaf leaf weighed rfl wrapped paid
      | p2mrTapscript leaf => exact paysFor_leaf leaf weighed rfl wrapped paid

theorem triple_verifyWitness (keeps : KeepsWeight checker) {start bound : Int}
    {scriptSig script expected : Bytes} {malleated : EvalError} {witness : List Bytes}
    {isP2sh hadWitness : Bool} {stack : List Bytes} (weighed : bound = validationWeight witness)
    (started : start = if isP2sh then bound else 0) :
    Triple (Paid start)
      (verifyWitness crypto checker.counted flags scriptSig script expected malleated witness
        isP2sh hadWitness stack)
      (fun _ => Paid bound) (Paid bound) := by
  subst weighed started
  have enough : (if isP2sh = true then (validationWeight witness : Int) else 0) ≤
      validationWeight witness := by
    split_ifs
    · exact le_rfl
    · exact Int.natCast_nonneg _
  rw [verifyWitness]
  cases isWitnessProgram script with
  | none => exact .pure fun _ => Paid.mono enough
  | some found =>
      refine (Triple.require fun _ => Paid.mono enough).bind fun _ => .assuming fun _ => ?_
      exact (triple_evalWitnessProgram keeps witness _ _ isP2sh).bind fun _ =>
        .pure fun _ here => here

theorem keeps_verifyScriptHash (keeps : KeepsWeight checker) (scriptSig : Bytes)
    (witness : List Bytes) (hadWitness : Bool) (stackCopy : List Bytes) :
    Keeps (Paid (validationWeight witness))
      (verifyScriptHash crypto checker.counted flags scriptSig witness hadWitness stackCopy) := by
  refine Keeps.require.bind fun _ => ?_
  cases stackCopy with
  | nil => exact .throw _
  | cons pubKey2 stack =>
      refine (keeps_evalTrue keeps _ stack pubKey2).bind fun stack => ?_
      split_ifs
      · exact triple_verifyWitness keeps rfl rfl
      · exact .pure _

/-- What a run of `VerifyScript` has paid, however it ends. -/
theorem triple_verifyScript (keeps : KeepsWeight checker) (scriptSig scriptPubKey : Bytes)
    (witness : List Bytes) :
    Triple (Paid 0) (verifyScript crypto checker.counted flags scriptSig scriptPubKey witness)
      (fun _ => Paid (validationWeight witness)) (Paid (validationWeight witness)) := by
  have enough : (0 : Int) ≤ validationWeight witness := Int.natCast_nonneg _
  have raises : ∀ both : σ × CheckCounts, Paid 0 both → Paid (validationWeight witness) both :=
    fun _ => Paid.mono enough
  refine (Triple.require raises).bind fun _ => .assuming fun _ => ?_
  refine ((keeps_evalScript keeps 0 [] scriptSig).consequence (fun _ here => here)
    (fun _ _ here => here) raises).bind fun stackCopy => ?_
  refine ((keeps_evalTrue keeps 0 stackCopy scriptPubKey).consequence (fun _ here => here)
    (fun _ _ here => here) raises).bind fun stack => ?_
  have witnessed : Triple (Paid 0)
      (if hasFlag flags scriptVerifyWitness then
        verifyWitness crypto checker.counted flags scriptSig scriptPubKey [] .witnessMalleated
          witness false false stack
      else pure (false, stack))
      (fun _ => Paid (validationWeight witness)) (Paid (validationWeight witness)) := by
    split_ifs
    · exact triple_verifyWitness keeps rfl rfl
    · exact .pure raises
  refine witnessed.bind fun (hadWitness, stack) => ?_
  have hashed : Keeps (Paid (validationWeight witness))
      (if hasFlag flags scriptVerifyP2sh ∧ isPayToScriptHash scriptPubKey then
        verifyScriptHash crypto checker.counted flags scriptSig witness hadWitness stackCopy
      else pure (hadWitness, stack)) := by
    split_ifs
    · exact keeps_verifyScriptHash keeps _ _ _ _
    · exact .pure _
  exact hashed.bind fun _ => Keeps.require.bind fun _ => Keeps.require.bind fun _ =>
    Keeps.require.bind fun _ => Keeps.require

end Verifier

/-- The run that counts its checks ends like any other run, and a witness pays for every
Schnorr signature that a script checks and for every signature of Dilithium that a leaf
script of P2MR checks. -/
theorem verifyScript_validationWeight (crypto : TransactionCrypto)
    (checker : TransactionSignatureChecker) (flags : UInt32) (scriptSig scriptPubKey : Bytes)
    (witness : List Bytes) (cache : Option SigHashCache) :
    returned (verifyScript crypto.toScriptCrypto (checker.toSignatureChecker crypto).counted flags
        scriptSig scriptPubKey witness (cache, .zero)) =
      returned (verifyScript crypto.toScriptCrypto (checker.toSignatureChecker crypto) flags
        scriptSig scriptPubKey witness cache) ∧
    let counts := (finalState (verifyScript crypto.toScriptCrypto
      (checker.toSignatureChecker crypto).counted flags scriptSig scriptPubKey witness
      (cache, .zero))).2
    50 * counts.schnorr + 500 * counts.p2mrDilithium ≤ validationWeight witness := by
  constructor
  · exact ((agree_verifyScript (checker.toSignatureChecker crypto).relatedCheckers_counted scriptSig
      scriptPubKey witness).outcome rfl).symm
  · have unpaid : Paid 0 (cache, CheckCounts.zero) := le_refl (0 : Int)
    intro counts
    have paid : counts.weight ≤ validationWeight witness :=
      (triple_verifyScript (checker.keepsWeight crypto) scriptSig scriptPubKey witness).reaches
        unpaid
    rw [CheckCounts.weight, validationWeightPerSigopPassed,
      validationWeightPerDilithiumSigopPassed] at paid
    exact_mod_cast paid

end QuantyCoin
