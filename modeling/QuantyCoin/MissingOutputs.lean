import QuantyCoin.KeyhashSpends

/-!
# Scripts without the spent outputs

`VerifyScript` for the input that spends a P2MR output, with a checker that may lack the
outputs of the transaction.  Without them no signature is accepted, and a signature that
is refused fails the script.  A witness that is accepted without the outputs holds no
signatures, and it is accepted with them.
-/

namespace QuantyCoin

open ByteDecoder StateTriples

/-! ## The checker without its data -/

namespace TransactionSignatureChecker

variable (crypto : TransactionCrypto) (checker : TransactionSignatureChecker)

/-- The checker without the data of its transaction. -/
def withoutData : TransactionSignatureChecker := { checker with txdata := none, mdb := .fail }

variable {crypto checker}

theorem checkSchnorrSignature_withoutData {sig pubkey : Bytes} {sigversion : SigVersion}
    {execdata value : ScriptExecutionData} :
    checker.withoutData.checkSchnorrSignature crypto sig pubkey sigversion execdata ≠
      .ok value := by
  intro checked
  obtain ⟨_, -, checked⟩ := except_bind_eq_ok.mp checked
  obtain ⟨_, -, checked⟩ := except_bind_eq_ok.mp checked
  obtain ⟨_, -, checked⟩ := except_bind_eq_ok.mp checked
  obtain ⟨_, -, checked⟩ := except_bind_eq_ok.mp checked
  cases checked

/-- A signature has a hash type at its end, but nothing that it signs. -/
theorem refuses_withoutData {vchSig : Bytes} (nonempty : vchSig ≠ []) :
    (checker.withoutData.toSignatureChecker crypto).Refuses .p2mrTapscript vchSig := by
  intro vchPubKey scriptCode execdata state value after checked
  obtain ⟨nHashType, last⟩ := Option.ne_none_iff_exists'.mp
    (mt List.getLast?_eq_none_iff.mp nonempty)
  change checker.withoutData.checkDilithiumSignature crypto vchSig vchPubKey scriptCode
    .p2mrTapscript execdata state = .ok (true, value) after at checked
  rw [checkDilithiumSignature, last] at checked
  by_cases invalid : ¬ (vchPubKey.length = dilithiumPubKeySize ∧ vchPubKey.any (· ≠ 0))
  · rw [if_pos invalid] at checked
    cases checked
  · rw [if_neg invalid] at checked
    by_cases typed : nHashType = 0
    · simp only [dilithiumSighash, typed] at checked
      cases checked
    · simp only [dilithiumSighash, typed] at checked
      cases checked

/-- Scripts that fail with a refused signature gain nothing from the missing data. -/
theorem admits_withoutData (crypto : TransactionCrypto) (checker : TransactionSignatureChecker)
    {flags : UInt32} (nullfail : hasFlag flags scriptVerifyNullfail = true) :
    Admits flags .p2mrTapscript (checker.withoutData.toSignatureChecker crypto)
      (checker.toSignatureChecker crypto) where
  ecdsa legacy := Bool.noConfusion legacy
  schnorr sig pubkey execdata := .of_never fun _ _ _ returned =>
    checkSchnorrSignature_withoutData (ofExcept_eq_ok.mp returned).1
  dilithium vchSig := by
    by_cases empty : vchSig = []
    · subst empty
      exact .inl fun _ _ _ => .refl _
    · exact .inr ⟨nullfail, empty, refuses_withoutData empty⟩
  lockTime := rfl
  sequence := rfl

end TransactionSignatureChecker

/-! ## P2MR outputs -/

section Outputs

variable {σ : Type} {crypto : ScriptCrypto} {checker checker' : SignatureChecker σ}
  {flags : UInt32}

/-- The output script leaves its program on top. -/
theorem evalScript_p2mrScript (program : Uint256) :
    evalScript crypto checker flags .base [] (p2mrScript program) .new =
      pure [program.bytes, [2]] := by
  have sized := program.bytes_length
  have script : p2mrScript program = op2 :: Signing.pushData program.bytes := by
    rw [p2mrScript, Signing.pushData, if_pos (by rw [sized]; decide), sized]
    rfl
  rw [script]
  exact evalScript_native (getScriptOp_cons (by decide) _) (fun _ _ => rfl) sized (by decide)
    (by decide)

theorem verifyWitnessProgram_p2mr {hashes : ScriptHashes} {taproot : TaprootChecker}
    {witness : List Bytes} (program : Uint256) :
    verifyWitnessProgram hashes taproot witness 2 program.bytes flags false =
      (verifyP2MRProgram hashes (.ofFlags flags) witness program.bytes).toProgramCheck := by
  have sized : program.bytes.length = witnessV2P2mrSize := program.bytes_length
  rw [verifyWitnessProgram, if_neg (by decide), if_neg fun both => absurd both.1 (by decide),
    if_pos ⟨rfl, sized, rfl⟩]

theorem permits_evalWitnessProgram_p2mr (admits : Admits flags .p2mrTapscript checker checker')
    (witness : List Bytes) (program : Uint256) :
    Permits (evalWitnessProgram crypto checker flags witness 2 program.bytes false)
      (evalWitnessProgram crypto checker' flags witness 2 program.bytes false) := by
  rw [evalWitnessProgram, evalWitnessProgram, verifyWitnessProgram_p2mr,
    verifyWitnessProgram_p2mr]
  cases verifyP2MRProgram crypto.toScriptHashes (.ofFlags flags) witness program.bytes with
  | failed error => exact .refl _
  | succeeded => exact .refl _
  | execute leaf => exact permits_executeWitnessScript (.refl flags) admits _ _ _

/-- What solves a P2MR output with the one checker solves it with the other. -/
theorem permits_verifyScript_p2mr (admits : Admits flags .p2mrTapscript checker checker')
    (consistent : Consistent flags) (witnessed : hasFlag flags scriptVerifyWitness = true)
    (scriptSig : Bytes) (program : Uint256) (witness : List Bytes) :
    Permits (verifyScript crypto checker flags scriptSig (p2mrScript program) witness)
      (verifyScript crypto checker' flags scriptSig (p2mrScript program) witness) := by
  have native := isWitnessProgram_p2mrScript program
  by_cases empty : scriptSig = []
  · subst empty
    rw [verifyScript_native consistent witnessed native (evalScript_p2mrScript program),
      verifyScript_native consistent witnessed native (evalScript_p2mrScript program)]
    exact .bind (.refl _) fun _ => permits_evalWitnessProgram_p2mr admits witness program
  · exact .of_never fun _ _ _ returned => empty (scriptSig_of_native witnessed native returned)

end Outputs

/-! ## The inputs of a transaction -/

namespace TransactionCrypto

variable (crypto : TransactionCrypto)

/-- `VerifyScript` of an input under the standard flags, with the outputs that the
transaction spends, one for each input, or without them. -/
def verifyInput (tx : CTransaction) (spent : Option (List CTxOut)) (i : Nat) (amount : Int64)
    (scriptSig scriptPubKey : Bytes) (scriptWitness : List Bytes) : Bool :=
  if inside : (UInt32.ofNat i).toNat < tx.vin.length then
    let checker : TransactionSignatureChecker :=
      { txTo := tx
        nIn := UInt32.ofNat i
        amount := amount
        txdata := spent.bind fun outputs =>
          TaprootTransactionData.init crypto.sha256 tx outputs true
        mdb := .fail
        nIn_lt := inside }
    hasReturned (verifyScript crypto.toScriptCrypto (checker.toSignatureChecker crypto)
      standardScriptVerifyFlags scriptSig scriptPubKey scriptWitness (some SlotCache.empty))
  else false

/-- What is accepted without the outputs is accepted with any. -/
theorem verifyInput_of_missing (tx : CTransaction) (spent : List CTxOut) (i : Nat) (amount : Int64)
    (scriptSig : Bytes) (program : Uint256) (scriptWitness : List Bytes)
    (accepted : crypto.verifyInput tx none i amount scriptSig (p2mrScript program) scriptWitness =
      true) :
    crypto.verifyInput tx (some spent) i amount scriptSig (p2mrScript program) scriptWitness =
      true := by
  rw [verifyInput] at accepted ⊢
  split_ifs at accepted ⊢ with inside
  obtain ⟨value, after, returned⟩ := exists_of_hasReturned accepted
  have consistent : Consistent standardScriptVerifyFlags := ⟨fun _ => by decide, fun _ => by decide⟩
  have nullfail : hasFlag standardScriptVerifyFlags scriptVerifyNullfail = true := by decide
  have admits := TransactionSignatureChecker.admits_withoutData crypto
    ⟨tx, UInt32.ofNat i, amount, TaprootTransactionData.init crypto.sha256 tx spent true, .fail,
      inside⟩ nullfail
  have permitted := permits_verifyScript_p2mr admits consistent (by decide) scriptSig program
    scriptWitness _ value after returned
  exact hasReturned_iff.mpr ⟨after, permitted⟩

end TransactionCrypto

end QuantyCoin
