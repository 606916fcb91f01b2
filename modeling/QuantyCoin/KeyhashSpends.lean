import QuantyCoin.KeyhashScripts
import QuantyCoin.PolicyScripts

/-!
# Spending key hashes

What `VerifyScript` asks of the input that spends an output for a key hash, with the two
kinds of keys that such a hash may be of.
-/

namespace QuantyCoin

open ByteDecoder StateTriples

/-- `GetScriptForDestination` for `WitnessV0KeyHash`. -/
def keyhashScript (program : Bytes) : Bytes := 0 :: Signing.pushData program

section Signed

variable {σ : Type} (crypto : ScriptCrypto) (checker : SignatureChecker σ) (flags : UInt32)
  (program vchSig vchPubKey : Bytes) (state : σ)

/-- The signature is one of ECDSA for the hash. -/
structure EcdsaSigned : Prop where
  compressed : hasFlag flags scriptVerifyWitnessPubkeytype = true →
    vchPubKey.length = compressedSize
  sigEncoding : checkSignatureEncoding crypto.checkLowS vchSig flags = .ok ()
  pubKeyEncoding : checkPubKeyEncoding vchPubKey flags .witnessV0 = .ok ()
  checked : ∃ after, checker.checkECDSASignature vchSig vchPubKey (impliedScript opChecksig program)
    .witnessV0 state = .ok true after

/-- The signature is one of Dilithium for the hash. -/
structure DilithiumSigned : Prop where
  allowed : hasFlag flags scriptVerifyDilithium = true
  sigSize : vchSig = [] ∨ vchSig.length = dilithiumSignatureSize + 1
  pubKeyEncoding : isValidDilithiumPubKey vchPubKey = true
  checked : ∃ execdata after, checker.checkDilithiumSignature vchSig vchPubKey
    (impliedScript opChecksigdilithium program) .witnessV0
      { ScriptExecutionData.new with codeseparatorPos := some 0xffffffff } state =
        .ok (true, execdata) after

/-- The signature of the kind of the key. -/
def KeyhashSigned : Prop :=
  if (!hasFlag flags scriptVerifyDilithiumP2mrOnly) ∧ vchPubKey.length = dilithiumPubKeySize then
    DilithiumSigned checker flags program vchSig vchPubKey state
  else EcdsaSigned crypto checker flags program vchSig vchPubKey state

variable {crypto checker flags program vchSig vchPubKey state}

theorem hasReturned_iff {ε : Type} {result : EStateM.Result ε σ Unit} :
    hasReturned result = true ↔ ∃ after, result = .ok () after := by
  cases result with
  | ok value after => exact ⟨fun _ => ⟨after, rfl⟩, fun _ => rfl⟩
  | error error after =>
      constructor
      · intro impossible
        cases impossible
      · rintro ⟨_, ⟨⟩⟩

theorem verifyWitnessProgram_keyhash (sized : program.length = witnessV0KeyhashSize)
    {hashes : ScriptHashes} {taproot : TaprootChecker} {witness : List Bytes} {isP2sh : Bool} :
    verifyWitnessProgram hashes taproot witness 0 program flags isP2sh =
      verifyKeyhashProgram witness program flags := by
  have other : ¬ program.length = witnessV0ScripthashSize := by
    rw [sized]
    decide
  rw [verifyWitnessProgram, if_pos rfl, if_neg other, if_pos sized]

theorem evalWitnessProgram_pair (sized : program.length = witnessV0KeyhashSize) :
    (∃ after, evalWitnessProgram crypto checker flags [vchSig, vchPubKey] 0 program false state =
        .ok () after) ↔
      (vchSig.length ≤ maxScriptElementSize ∧ vchPubKey.length ≤ maxScriptElementSize) ∧
        HashOp.hash160.eval crypto vchPubKey = program ∧
        KeyhashSigned crypto checker flags program vchSig vchPubKey state := by
  rw [evalWitnessProgram, verifyWitnessProgram_keyhash sized, verifyKeyhashProgram, KeyhashSigned]
  by_cases routed : (!hasFlag flags scriptVerifyDilithiumP2mrOnly) = true ∧
      vchPubKey.length = dilithiumPubKeySize
  · rw [if_pos routed, if_pos routed]
    by_cases allowed : hasFlag flags scriptVerifyDilithium = true
    · rw [if_neg (by simp [allowed])]
      have runs (after : σ) := @runWitnessScript_checksigdilithium σ crypto checker flags vchPubKey
        vchSig program .new state after sized
      constructor
      · rintro ⟨after, ran⟩
        obtain ⟨sizes, hashed, -, -, sigSize, pubKeyEncoding, execdata, checked⟩ :=
          (runs after).mp ran
        exact ⟨sizes, hashed, allowed, sigSize, pubKeyEncoding, execdata, after, checked⟩
      · rintro ⟨sizes, hashed, -, sigSize, pubKeyEncoding, execdata, after, checked⟩
        have plain : hasFlag flags scriptVerifyDilithiumP2mrOnly = false := by
          simpa using routed.1
        exact ⟨after, (runs after).mpr
          ⟨sizes, hashed, plain, allowed, sigSize, pubKeyEncoding, execdata, checked⟩⟩
    · rw [if_pos (by simp [allowed])]
      constructor
      · rintro ⟨_, ⟨⟩⟩
      · rintro ⟨-, -, signed⟩
        exact absurd signed.allowed allowed
  · rw [if_neg routed, if_neg routed]
    by_cases uncompressed : hasFlag flags scriptVerifyWitnessPubkeytype = true ∧
        vchPubKey.length ≠ compressedSize
    · rw [if_pos uncompressed]
      constructor
      · rintro ⟨_, ⟨⟩⟩
      · rintro ⟨-, -, signed⟩
        exact absurd (signed.compressed uncompressed.1) uncompressed.2
    · rw [if_neg uncompressed]
      have runs (after : σ) := @runWitnessScript_checksig σ crypto checker flags vchPubKey
        vchSig program .new state after sized
      constructor
      · rintro ⟨after, ran⟩
        obtain ⟨sizes, hashed, sigEncoding, pubKeyEncoding, checked⟩ := (runs after).mp ran
        exact ⟨sizes, hashed, fun set => by_contra fun long => uncompressed ⟨set, long⟩,
          sigEncoding, pubKeyEncoding, after, checked⟩
      · rintro ⟨sizes, hashed, -, sigEncoding, pubKeyEncoding, after, checked⟩
        exact ⟨after, (runs after).mpr ⟨sizes, hashed, sigEncoding, pubKeyEncoding, checked⟩⟩

/-- The witness program of a key hash. -/
theorem evalWitnessProgram_keyhash (sized : program.length = witnessV0KeyhashSize)
    {witness : List Bytes} :
    hasReturned (evalWitnessProgram crypto checker flags witness 0 program false state) = true ↔
      ∃ vchSig vchPubKey, witness = [vchSig, vchPubKey] ∧
        (vchSig.length ≤ maxScriptElementSize ∧ vchPubKey.length ≤ maxScriptElementSize) ∧
        HashOp.hash160.eval crypto vchPubKey = program ∧
        KeyhashSigned crypto checker flags program vchSig vchPubKey state := by
  rw [hasReturned_iff]
  have mismatch (ran : verifyKeyhashProgram witness program flags =
      .failed (.program .witnessProgramMismatch)) :
      ¬ ∃ after, evalWitnessProgram crypto checker flags witness 0 program false state =
        .ok () after := by
    rw [evalWitnessProgram, verifyWitnessProgram_keyhash sized, ran]
    rintro ⟨_, ⟨⟩⟩
  rcases witness with _ | ⟨vchSig, _ | ⟨vchPubKey, _ | ⟨third, rest⟩⟩⟩
  · exact ⟨fun ran => absurd ran (mismatch rfl), by rintro ⟨_, _, ⟨⟩, _⟩⟩
  · exact ⟨fun ran => absurd ran (mismatch rfl), by rintro ⟨_, _, ⟨⟩, _⟩⟩
  · rw [evalWitnessProgram_pair sized]
    constructor
    · intro signed
      exact ⟨vchSig, vchPubKey, rfl, signed⟩
    · rintro ⟨_, _, ⟨⟩, signed⟩
      exact signed
  · exact ⟨fun ran => absurd ran (mismatch rfl), by rintro ⟨_, _, ⟨⟩, _⟩⟩

theorem pushData_keyhash (sized : program.length = witnessV0KeyhashSize) :
    Signing.pushData program = 20 :: program := by
  rw [Signing.pushData, if_pos (by rw [sized]; decide), sized]
  rfl

/-- The output script leaves its hash on top. -/
theorem evalScript_keyhashScript (sized : program.length = witnessV0KeyhashSize) :
    evalScript crypto checker flags .base [] (keyhashScript program) .new =
      pure [program, []] := by
  refine evalScript_native ?_ (fun _ _ => ?_) sized (by decide) (by decide)
  · simp [getScriptOp, opPushdata4, lengthBytes, pushSize, opPushdata1]
  · exact evalInstruction_push (by decide) (by decide) (by decide) (by decide)

theorem isWitnessProgram_keyhashScript (sized : program.length = witnessV0KeyhashSize) :
    isWitnessProgram (keyhashScript program) = some (0, program) := by
  rw [keyhashScript, pushData_keyhash sized, isWitnessProgram, sized, if_neg (by decide),
    if_neg (by decide)]
  rfl

/-- What spends an output for a key hash: a witness of a signature and the key behind the
hash, with nothing in the input itself, and a hash that is not a false value. -/
theorem verifyScript_keyhash (consistent : Consistent flags)
    (witnessed : hasFlag flags scriptVerifyWitness = true)
    (sized : program.length = witnessV0KeyhashSize) (scriptSig : Bytes) (witness : List Bytes) :
    hasReturned (verifyScript crypto checker flags scriptSig (keyhashScript program) witness
        state) = true ↔
      scriptSig = [] ∧ castToBool program = true ∧
        ∃ vchSig vchPubKey, witness = [vchSig, vchPubKey] ∧
          (vchSig.length ≤ maxScriptElementSize ∧ vchPubKey.length ≤ maxScriptElementSize) ∧
          HashOp.hash160.eval crypto vchPubKey = program ∧
          KeyhashSigned crypto checker flags program vchSig vchPubKey state := by
  have native := isWitnessProgram_keyhashScript sized
  by_cases empty : scriptSig = []
  · subst empty
    rw [verifyScript_native consistent witnessed native (evalScript_keyhashScript sized)]
    rw [← evalWitnessProgram_keyhash sized]
    by_cases truth : castToBool program = true
    · rw [require_of truth, pure_bind]
      simp [truth]
    · rw [require_of_not truth]
      constructor
      · intro impossible
        cases impossible
      · rintro ⟨-, holds, -⟩
        exact absurd holds truth
  · constructor
    · intro accepted
      obtain ⟨after, ran⟩ := hasReturned_iff.mp accepted
      exact absurd (scriptSig_of_native witnessed native ran) empty
    · rintro ⟨nothing, -⟩
      exact absurd nothing empty

end Signed

/-! ## A key of each kind -/

def ecdsaSpendKey : Bytes := 0x02 :: List.replicate 32 0x11
def dilithiumSpendKey : Bytes := List.replicate 1312 0x07

/-- A signature in DER form, and one of the size of Dilithium. -/
def ecdsaSpendSig : Bytes := [0x30, 0x06, 0x02, 0x01, 0x01, 0x02, 0x01, 0x01]
def dilithiumSpendSig : Bytes := List.replicate 2420 0x09

/-- Hashes that tell the two keys apart, and checks that accept one signature of each. -/
def twoKeysCrypto : TransactionCrypto :=
  { TransactionCrypto.idle with
    sha256 := fun data =>
      ⟨List.replicate 32 (if data = ecdsaSpendKey then 1 else if data = dilithiumSpendKey then 2
        else 3), List.length_replicate⟩
    ripemd160 := fun data => ⟨List.replicate 20 (data.headD 0), List.length_replicate⟩
    verifyEcdsa := fun pubkey _ vchSig => pubkey = ecdsaSpendKey && vchSig = ecdsaSpendSig
    verifyDilithium := fun pubkey _ vchSig =>
      pubkey = dilithiumSpendKey && vchSig = dilithiumSpendSig }

def twoKeysFlags : UInt32 :=
  scriptVerifyP2sh ||| scriptVerifyWitness ||| scriptVerifyDersig ||| scriptVerifyStrictenc |||
    scriptVerifyWitnessPubkeytype ||| scriptVerifyNullfail ||| scriptVerifyDilithium

/-- Both keys can spend the output for their hash, each with its kind of signature. -/
theorem verifyScript_keyhash_twoKeys :
    EcdsaSigned twoKeysCrypto.toScriptCrypto (spendingOneChecker.toSignatureChecker twoKeysCrypto)
        twoKeysFlags (List.replicate 20 1) (ecdsaSpendSig ++ [0x01]) ecdsaSpendKey none ∧
      DilithiumSigned (spendingOneChecker.toSignatureChecker twoKeysCrypto) twoKeysFlags
        (List.replicate 20 2) (dilithiumSpendSig ++ [0x01]) dilithiumSpendKey none := by
  have consistent : Consistent twoKeysFlags := ⟨by decide, by decide⟩
  constructor
  · obtain ⟨-, -, vchSig, vchPubKey, same, -, -, signed⟩ := (@verifyScript_keyhash _
      twoKeysCrypto.toScriptCrypto (spendingOneChecker.toSignatureChecker twoKeysCrypto)
      twoKeysFlags (List.replicate 20 1) none consistent (by decide) rfl []
      [ecdsaSpendSig ++ [0x01], ecdsaSpendKey]).mp (by decide +kernel)
    obtain ⟨rfl, rfl⟩ : ecdsaSpendSig ++ [0x01] = vchSig ∧ ecdsaSpendKey = vchPubKey := by
      simpa using same
    rwa [KeyhashSigned, if_neg (by decide)] at signed
  · obtain ⟨-, -, vchSig, vchPubKey, same, -, -, signed⟩ := (@verifyScript_keyhash _
      twoKeysCrypto.toScriptCrypto (spendingOneChecker.toSignatureChecker twoKeysCrypto)
      twoKeysFlags (List.replicate 20 2) none consistent (by decide) rfl []
      [dilithiumSpendSig ++ [0x01], dilithiumSpendKey]).mp (by decide +kernel)
    obtain ⟨rfl, rfl⟩ : dilithiumSpendSig ++ [0x01] = vchSig ∧ dilithiumSpendKey = vchPubKey := by
      simpa using same
    rwa [KeyhashSigned, if_pos ⟨by decide, List.length_replicate⟩] at signed

end QuantyCoin
