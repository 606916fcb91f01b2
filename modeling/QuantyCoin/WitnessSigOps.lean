import QuantyCoin.ScriptSigning

/-!
# Signature operations of witnesses

`VerifyWitnessProgram` and `WitnessSigOps` of `script/interpreter.cpp` and
`CScript::GetSigOpCount` of `script/script.cpp`.  The two functions look for the
executed script on their own: one pops the annex, the control block and the script
off the stack, the other computes their indices.
-/

namespace QuantyCoin

/-! ## Counting in a script -/

def opChecksigverify : UInt8 := 0xad
def opCheckmultisigverify : UInt8 := 0xaf
def opChecksigdilithiumverify : UInt8 := 0xbc
def opCheckmultisigdilithiumverify : UInt8 := 0xbe
def opInvalidopcode : UInt8 := 0xff

def dilithiumSigopCost : UInt32 := 50

/-- The number of keys that a multisignature is counted with. -/
def countedKeys (accurate : Bool) (lastOpcode : UInt8) : UInt32 :=
  if accurate ∧ op1 ≤ lastOpcode ∧ lastOpcode ≤ op16 then UInt32.ofNat (decodeOpN lastOpcode)
  else UInt32.ofNat maxPubkeysPerMultisig

/-- What an operation adds to the count. -/
def sigOps (accurate : Bool) (lastOpcode opcode : UInt8) : UInt32 :=
  if opcode = opChecksig ∨ opcode = opChecksigverify then 1
  else if opcode = opChecksigdilithium ∨ opcode = opChecksigdilithiumverify then
    dilithiumSigopCost
  else if opcode = opCheckmultisig ∨ opcode = opCheckmultisigverify then
    countedKeys accurate lastOpcode
  else if opcode = opCheckmultisigdilithium ∨ opcode = opCheckmultisigdilithiumverify then
    countedKeys accurate lastOpcode * dilithiumSigopCost
  else 0

/-- The loop of `CScript::GetSigOpCount`. -/
def sigOpCountFrom (accurate : Bool) (lastOpcode : UInt8) (n : UInt32) (script : Bytes) : UInt32 :=
  match _found : getScriptOp script with
  | none => n
  | some (opcode, _, rest) =>
      sigOpCountFrom accurate opcode (n + sigOps accurate lastOpcode opcode) rest
termination_by script.length
decreasing_by exact getScriptOp_shorter ‹_›

/-- `CScript::GetSigOpCount`. -/
def getSigOpCount (accurate : Bool) (script : Bytes) : UInt32 :=
  sigOpCountFrom accurate opInvalidopcode 0 script

/-! ## The verifier -/

def scriptVerifyDiscourageUpgradableWitnessProgram : UInt32 := (1 : UInt32) <<< 12
def scriptVerifyWitnessPubkeytype : UInt32 := (1 : UInt32) <<< 15
def scriptVerifyTaproot : UInt32 := (1 : UInt32) <<< 17
def scriptVerifyDiscourageUpgradableTaprootVersion : UInt32 := (1 : UInt32) <<< 18
def scriptVerifyDilithium : UInt32 := (1 : UInt32) <<< 21
def scriptVerifyP2mr : UInt32 := (1 : UInt32) <<< 22
def scriptVerifyDilithiumP2mrOnly : UInt32 := (1 : UInt32) <<< 23

def witnessV0ScripthashSize : Nat := 32
def witnessV0KeyhashSize : Nat := 20
def witnessV1TaprootSize : Nat := 32
def witnessV2P2mrSize : Nat := 32
def taprootControlBaseSize : Nat := 33

/-- `CPubKey::COMPRESSED_SIZE`. -/
def compressedSize : Nat := 33

/-- `DilithiumConstants::SIGNATURE_SIZE`. -/
def dilithiumSignatureSize : Nat := 2420

/-- `flags & flag`. -/
def hasFlag (flags flag : UInt32) : Bool := flags &&& flag ≠ 0

inductive SchnorrError
  | sigSize
  | sigHashtype
  | sig

inductive WitnessError
  | program (error : ScriptError)
  | schnorr (error : SchnorrError)
  | witnessProgramWrongLength
  | witnessPubkeytype
  | discourageUpgradablePubkeytype
  | discourageUpgradableWitnessProgram

/-- The arguments of `ExecuteWitnessScript`. -/
inductive WitnessExecution
  | witnessV0 (stack : List Bytes) (script : Bytes)
  | tapscript (leaf : LeafExecution)
  | p2mrTapscript (leaf : LeafExecution)

/-- `exec_script`. -/
def WitnessExecution.execScript : WitnessExecution → Bytes
  | .witnessV0 _ script => script
  | .tapscript leaf => leaf.script
  | .p2mrTapscript leaf => leaf.script

/-- How the checks of a witness program end. -/
inductive ProgramCheck
  | failed (error : WitnessError)
  | succeeded
  | execute (execution : WitnessExecution)

/-- The end of the branch for witness version 2. -/
def WitnessCheck.toProgramCheck : WitnessCheck → ProgramCheck
  | .failed error => .failed (.program error)
  | .succeeded => .succeeded
  | .execute leaf => .execute (.p2mrTapscript leaf)

/-- The script behind a key hash, with the operation that checks the signature. -/
def impliedScript (checker : UInt8) (program : Bytes) : Bytes :=
  opDup :: opHash160 :: (Signing.pushData program ++ [opEqualverify, checker])

/-- The functions outside of the interpreter: the tweak of a key and the check of a
signature against the output key, with the hash of the annex. -/
structure TaprootChecker where
  checkTapTweak : (q p : Bytes) → (merkleRoot : Uint256) → (parity : UInt8) → Bool
  checkSchnorrSignature : (sig program : Bytes) → (annexHash : Option Uint256) →
    Option SchnorrError

section Verifier

variable (hashes : ScriptHashes) (checker : TaprootChecker)

/-- `VerifyTaprootCommitment`. -/
def verifyTaprootCommitment (control program : Bytes) (tapleafHash : Uint256) : Bool :=
  let merkleRoot := BlockHashing.absorb (fun k node => computeTapbranchHash hashes k.bytes node)
    p2mrControlNodeSize tapleafHash (control.drop taprootControlBaseSize)
  checker.checkTapTweak program ((control.drop 1).take 32) merkleRoot (control.headD 0 &&& 1)

/-- `control.size()` is out of bounds or not a number of nodes, for Taproot. -/
def WrongTaprootControlSize (control : Bytes) : Prop :=
  control.length < taprootControlBaseSize ∨
    control.length > taprootControlBaseSize + p2mrControlNodeSize * p2mrControlMaxNodeCount ∨
    (control.length - taprootControlBaseSize) % p2mrControlNodeSize ≠ 0

instance (control : Bytes) : Decidable (WrongTaprootControlSize control) :=
  inferInstanceAs (Decidable (_ ∨ _ ∨ _))

/-- The branch of `VerifyWitnessProgram` for witness version 1. -/
def verifyTaprootProgram (witness : List Bytes) (program : Bytes) (flags : UInt32) :
    ProgramCheck :=
  if !hasFlag flags scriptVerifyTaproot then .succeeded
  else if witness.length = 0 then .failed (.program .witnessProgramWitnessEmpty)
  else
    let (annexHash, stack) := popAnnex hashes witness
    match stack.reverse with
    | [] => .failed (.program .witnessProgramWitnessEmpty)
    | [sig] =>
        match checker.checkSchnorrSignature sig program annexHash with
        | some error => .failed (.schnorr error)
        | none => .succeeded
    | control :: script :: rest =>
        if WrongTaprootControlSize control then .failed (.program .taprootWrongControlSize)
        else
          let tapleafHash := computeTapleafHash hashes (control.headD 0 &&& taprootLeafMask) script
          if !verifyTaprootCommitment hashes checker control program tapleafHash then
            .failed (.program .witnessProgramMismatch)
          else if control.headD 0 &&& taprootLeafMask = taprootLeafTapscript then
            .execute (.tapscript
              ⟨rest.reverse, script, annexHash, tapleafHash, validationWeight witness⟩)
          else if hasFlag flags scriptVerifyDiscourageUpgradableTaprootVersion then
            .failed (.program .discourageUpgradableTaprootVersion)
          else .succeeded

/-- The branch of `VerifyWitnessProgram` for a script hash. -/
def verifyScripthashProgram (witness : List Bytes) (program : Bytes) : ProgramCheck :=
  match witness.getLast? with
  | none => .failed (.program .witnessProgramWitnessEmpty)
  | some execScript =>
      if (hashes.sha256 execScript).bytes ≠ program then
        .failed (.program .witnessProgramMismatch)
      else .execute (.witnessV0 witness.dropLast execScript)

/-- The branch of `VerifyWitnessProgram` for a key hash. -/
def verifyKeyhashProgram (witness : List Bytes) (program : Bytes) (flags : UInt32) :
    ProgramCheck :=
  match witness with
  | [_, vchPubKey] =>
      if !hasFlag flags scriptVerifyDilithiumP2mrOnly ∧ vchPubKey.length = dilithiumPubKeySize then
        if !hasFlag flags scriptVerifyDilithium then .failed .discourageUpgradablePubkeytype
        else .execute (.witnessV0 witness (impliedScript opChecksigdilithium program))
      else if hasFlag flags scriptVerifyWitnessPubkeytype ∧ vchPubKey.length ≠ compressedSize then
        .failed .witnessPubkeytype
      else .execute (.witnessV0 witness (impliedScript opChecksig program))
  | _ => .failed (.program .witnessProgramMismatch)

/-- The flags that the branch for witness version 2 reads. -/
def VerifyFlags.ofFlags (flags : UInt32) : VerifyFlags where
  p2mr := hasFlag flags scriptVerifyP2mr
  discourageUpgradableTaprootVersion :=
    hasFlag flags scriptVerifyDiscourageUpgradableTaprootVersion

/-- `VerifyWitnessProgram`, up to `ExecuteWitnessScript`. -/
def verifyWitnessProgram (witness : List Bytes) (witversion : Int) (program : Bytes)
    (flags : UInt32) (isP2sh : Bool) : ProgramCheck :=
  if witversion = 0 then
    if program.length = witnessV0ScripthashSize then
      verifyScripthashProgram hashes witness program
    else if program.length = witnessV0KeyhashSize then verifyKeyhashProgram witness program flags
    else .failed .witnessProgramWrongLength
  else if witversion = 1 ∧ program.length = witnessV1TaprootSize ∧ !isP2sh then
    verifyTaprootProgram hashes checker witness program flags
  else if witversion = 2 ∧ program.length = witnessV2P2mrSize ∧ !isP2sh then
    (verifyP2MRProgram hashes (.ofFlags flags) witness program).toProgramCheck
  else if hasFlag flags scriptVerifyDiscourageUpgradableWitnessProgram then
    .failed .discourageUpgradableWitnessProgram
  else .succeeded

end Verifier

/-! ## The accounting -/

/-- The branch of `WitnessSigOps` for a key hash. -/
def keyhashSigOps (witness : List Bytes) (flags : UInt32) : UInt32 :=
  if hasFlag flags scriptVerifyDilithiumP2mrOnly then 1
  else if 2 ≤ witness.length ∧ (witness.getD 1 []).length = dilithiumPubKeySize then
    dilithiumSigopCost
  else if witness ≠ [] ∧ dilithiumSignatureSize ≤ (witness.getD 0 []).length then
    dilithiumSigopCost
  else 1

/-- The branch of `WitnessSigOps` for witness version 2. -/
def p2mrSigOps (witness : List Bytes) : UInt32 :=
  let last := witness.length - 1
  let hasAnnex := (witness.getD last []).head? = some annexTag
  let controlIdx := if hasAnnex then last - 1 else last
  if controlIdx < 1 then 0 else getSigOpCount true (witness.getD (controlIdx - 1) [])

/-- `WitnessSigOps`. -/
def witnessSigOps (witversion : Int) (witprogram : Bytes) (witness : List Bytes)
    (flags : UInt32) : UInt32 :=
  if witversion = 0 ∧ witprogram.length = witnessV0KeyhashSize then keyhashSigOps witness flags
  else if witversion = 0 ∧ witprogram.length = witnessV0ScripthashSize ∧ witness.length > 0 then
    getSigOpCount true (witness.getLastD [])
  else if witversion = 2 ∧ witprogram.length = witnessV2P2mrSize ∧ 2 ≤ witness.length then
    p2mrSigOps witness
  else 0

/-! ## Executed scripts and counted scripts -/

/-- One operation of the loop. -/
theorem sigOpCountFrom_of_getScriptOp {accurate : Bool} {script data rest : Bytes}
    {opcode : UInt8} (found : getScriptOp script = some (opcode, data, rest)) (lastOpcode : UInt8)
    (n : UInt32) :
    sigOpCountFrom accurate lastOpcode n script =
      sigOpCountFrom accurate opcode (n + sigOps accurate lastOpcode opcode) rest := by
  rw [sigOpCountFrom]
  split
  · rename_i ended
    rw [ended] at found
    cases found
  · rename_i found'
    rw [found'] at found
    cases found
    rfl

theorem sigOpCountFrom_nil (accurate : Bool) (lastOpcode : UInt8) (n : UInt32) :
    sigOpCountFrom accurate lastOpcode n [] = n := by
  rw [sigOpCountFrom]
  rfl

/-- An operation that pushes nothing is one byte. -/
theorem getScriptOp_cons {opcode : UInt8} (plain : ¬ opcode ≤ opPushdata4) (rest : Bytes) :
    getScriptOp (opcode :: rest) = some (opcode, [], rest) := by
  rw [getScriptOp, if_neg plain]

/-- A short push is read back. -/
theorem getScriptOp_pushData {data : Bytes} (short : data.length < 76) (rest : Bytes) :
    getScriptOp (Signing.pushData data ++ rest) = some (UInt8.ofNat data.length, data, rest) := by
  have size : (UInt8.ofNat data.length).toNat = data.length := 
    UInt8.toNat_ofNat_of_lt' (lt_trans short (by decide))
  have below : UInt8.ofNat data.length < opPushdata1 := by
    rw [UInt8.lt_iff_toNat_lt, size]
    exact short
  have push : UInt8.ofNat data.length ≤ opPushdata4 := by
    rw [UInt8.le_iff_toNat_le, size]
    exact le_trans short.le (by decide)
  have pushed : Signing.pushData data ++ rest = UInt8.ofNat data.length :: (data ++ rest) := by
    rw [Signing.pushData, if_pos (show data.length < opPushdata1.toNat from short), List.cons_append]
  rw [pushed, getScriptOp, if_pos push]
  simp [lengthBytes, pushSize, below, size]

/-- The script behind a key hash counts like its last operation. -/
theorem getSigOpCount_impliedScript {checker : UInt8} (plain : ¬ checker ≤ opPushdata4)
    {program : Bytes} (sized : program.length = witnessV0KeyhashSize) :
    getSigOpCount true (impliedScript checker program) = sigOps true opEqualverify checker := by
  have short : program.length < 76 := by
    rw [sized]
    decide
  have push : sigOps true opHash160 (UInt8.ofNat program.length) = 0 := by
    rw [sized]
    decide
  have verify : sigOps true (UInt8.ofNat program.length) opEqualverify = 0 := by
    rw [sized]
    decide
  rw [getSigOpCount, impliedScript,
    sigOpCountFrom_of_getScriptOp (getScriptOp_cons (by decide) _),
    sigOpCountFrom_of_getScriptOp (getScriptOp_cons (by decide) _),
    sigOpCountFrom_of_getScriptOp (getScriptOp_pushData short _),
    sigOpCountFrom_of_getScriptOp (getScriptOp_cons (by decide) _),
    sigOpCountFrom_of_getScriptOp (getScriptOp_cons plain _), sigOpCountFrom_nil, push, verify,
    show sigOps true opInvalidopcode opDup = 0 by decide,
    show sigOps true opDup opHash160 = 0 by decide]
  simp

/-- A program for a script hash executes the last item of the witness. -/
theorem verifyScripthashProgram_execute {hashes : ScriptHashes} {witness : List Bytes}
    {program : Bytes} {execution : WitnessExecution}
    (executes : verifyScripthashProgram hashes witness program = .execute execution) :
    witness.getLast? = some execution.execScript := by
  rw [verifyScripthashProgram] at executes
  cases last : witness.getLast? with
  | none =>
      rw [last] at executes
      cases executes
  | some script =>
      simp only [last] at executes
      split_ifs at executes
      cases executes
      rfl

/-- A program for a key hash executes the script of its signature scheme, and a key
of the other scheme is counted with its cost. -/
theorem verifyKeyhashProgram_execute {witness : List Bytes} {program : Bytes} {flags : UInt32}
    (sized : program.length = witnessV0KeyhashSize) {execution : WitnessExecution}
    (executes : verifyKeyhashProgram witness program flags = .execute execution) :
    getSigOpCount true execution.execScript ≤ keyhashSigOps witness flags := by
  have ecdsa : getSigOpCount true (impliedScript opChecksig program) = 1 :=
    getSigOpCount_impliedScript (by decide) sized
  have dilithium : getSigOpCount true (impliedScript opChecksigdilithium program) =
      dilithiumSigopCost := getSigOpCount_impliedScript (by decide) sized
  rcases witness with _ | ⟨sig, _ | ⟨vchPubKey, _ | ⟨third, rest⟩⟩⟩
  · cases executes
  · cases executes
  · rw [verifyKeyhashProgram] at executes
    split_ifs at executes with routed
    · cases executes
      have counted : keyhashSigOps [sig, vchPubKey] flags = dilithiumSigopCost := by
        simp at routed
        simp [keyhashSigOps, routed]
      rw [WitnessExecution.execScript, dilithium, counted]
      exact UInt32.le_refl dilithiumSigopCost
    · cases executes
      have positive : 1 ≤ keyhashSigOps [sig, vchPubKey] flags := by
        rw [keyhashSigOps]
        split_ifs <;> decide
      rwa [WitnessExecution.execScript, ecdsa]
  · cases executes

/-- Where the leaf script stands in a witness. -/
theorem popAnnex_cases {hashes : ScriptHashes} {witness rest : List Bytes}
    {control script : Bytes}
    (popped : (popAnnex hashes witness).2.reverse = control :: script :: rest) :
    (witness = rest.reverse ++ [script, control] ∧ control.head? ≠ some annexTag) ∨
      ∃ annex, witness = rest.reverse ++ [script, control, annex] ∧
        annex.head? = some annexTag := by
  rw [popAnnex] at popped
  cases last : witness.getLast? with
  | none =>
      rw [List.getLast?_eq_none_iff] at last
      rw [last] at popped
      cases popped
  | some annex =>
      simp only [last] at popped
      split_ifs at popped with isAnnex
      · right
        have items : witness.dropLast = rest.reverse ++ [script, control] := by
          rw [← List.reverse_reverse witness.dropLast, popped]
          simp
        refine ⟨annex, ?_, isAnnex.2⟩
        rw [← List.dropLast_append_getLast? annex last, items]
        simp
      · left
        have items : witness = rest.reverse ++ [script, control] := by
          rw [← List.reverse_reverse witness, popped]
          simp
        refine ⟨items, fun tagged => isAnnex ⟨by simp [items], ?_⟩⟩
        rw [items] at last
        simp at last
        rwa [← last]

/-- Witness version 2: the verifier and the accounting find the same script. -/
theorem verifyP2MRProgram_execute {hashes : ScriptHashes} {flags : VerifyFlags}
    {witness : List Bytes} {program : Bytes} {leaf : LeafExecution}
    (executes : verifyP2MRProgram hashes flags witness program = .execute leaf) :
    2 ≤ witness.length ∧ p2mrSigOps witness = getSigOpCount true leaf.script := by
  obtain ⟨control, rest, popped⟩ : ∃ control rest,
      (popAnnex hashes witness).2.reverse = control :: leaf.script :: rest := by
    rw [verifyP2MRProgram] at executes
    rcases pop : popAnnex hashes witness with ⟨annexHash, stack⟩
    rcases items : stack.reverse with _ | ⟨control, _ | ⟨script, rest⟩⟩
    · simp only [pop, items] at executes
      split_ifs at executes
    · simp only [pop, items] at executes
      split_ifs at executes
    · simp only [pop, items] at executes
      split_ifs at executes
      cases executes
      exact ⟨control, rest, rfl⟩
  obtain ⟨items, plain⟩ | ⟨annex, items, tagged⟩ := popAnnex_cases popped
  · subst items
    simp [p2mrSigOps, plain]
  · subst items
    simp [p2mrSigOps, tagged]

section Accounting

variable {hashes : ScriptHashes} {checker : TaprootChecker} {witness : List Bytes}
  {witversion : Int} {program : Bytes} {flags : UInt32} {execution : WitnessExecution}

/-- The signature operations of an executed script are counted, and outside of key
hashes nothing else is. -/
theorem witnessSigOps_covers (known : witversion = 0 ∨ witversion = 2)
    (executes : verifyWitnessProgram hashes checker witness witversion program flags false =
      .execute execution) :
    getSigOpCount true execution.execScript ≤ witnessSigOps witversion program witness flags ∧
      (program.length = 32 → witnessSigOps witversion program witness flags =
        getSigOpCount true execution.execScript) := by
  rw [verifyWitnessProgram] at executes
  rcases known with rfl | rfl
  · rw [if_pos rfl] at executes
    split_ifs at executes with scripthash keyhash
    · have last := verifyScripthashProgram_execute executes
      have same : witnessSigOps 0 program witness flags =
          getSigOpCount true execution.execScript := by
        have other : ¬ program.length = witnessV0KeyhashSize := by
          rw [scripthash]
          decide
        have nonempty : witness ≠ [] := by
          rintro rfl
          cases last
        have item : witness.getLastD [] = execution.execScript := by
          rw [List.getLastD_eq_getLast?, last, Option.getD_some]
        rw [witnessSigOps, if_neg fun both => other both.2,
          if_pos ⟨rfl, scripthash, List.length_pos_iff.mpr nonempty⟩, item]
      rw [same]
      exact ⟨UInt32.le_refl _, fun _ => rfl⟩
    · have counted : witnessSigOps 0 program witness flags = keyhashSigOps witness flags :=
        if_pos ⟨rfl, keyhash⟩
      rw [counted]
      exact ⟨verifyKeyhashProgram_execute keyhash executes, fun sized => absurd sized scripthash⟩
  · rw [if_neg (by decide), if_neg fun taproot => absurd taproot.1 (by decide)] at executes
    split_ifs at executes with p2mr
    have same : witnessSigOps 2 program witness flags =
        getSigOpCount true execution.execScript := by
      cases check : verifyP2MRProgram hashes (.ofFlags flags) witness program with
      | failed error =>
          rw [check] at executes
          cases executes
      | succeeded =>
          rw [check] at executes
          cases executes
      | execute leaf =>
          rw [check] at executes
          cases executes
          obtain ⟨long, counted⟩ := verifyP2MRProgram_execute check
          rw [witnessSigOps, if_neg fun both => absurd both.1 (by decide),
            if_neg fun both => absurd both.1 (by decide), if_pos ⟨rfl, p2mr.2.1, long⟩, counted]
          rfl
    rw [same]
    exact ⟨UInt32.le_refl _, fun _ => rfl⟩

end Accounting

/-- The SHA-256 hash of `OP_CHECKSIG`. -/
def checksigHash : Uint256 :=
  ⟨[0xee, 0x6b, 0xb8, 0x6b, 0x44, 0x33, 0x93, 0x92, 0xba, 0xe6, 0x31, 0xc8, 0xf6, 0x1d,
    0xd8, 0xf0, 0x09, 0x24, 0x3c, 0x63, 0x5a, 0xda, 0xb3, 0x3c, 0x0b, 0x20, 0x92, 0x3a,
    0x27, 0x94, 0xbf, 0x22], rfl⟩

/-- Hashes that are right for `OP_CHECKSIG`. -/
def checksigHashes : ScriptHashes where
  sha256 script := if script = [opChecksig] then checksigHash else .null
  hasherTapleaf _ := .null
  hasherTapbranch _ := .null

/-- `OP_CHECKSIG` behind its hash, with a signature and a key that are left to the
interpreter. -/
theorem witnessSigOps_covers_checksig :
    getSigOpCount true [opChecksig] ≤
        witnessSigOps 0 checksigHash.bytes [[0x30], [0x02], [opChecksig]] 0 ∧
      (checksigHash.bytes.length = 32 →
        witnessSigOps 0 checksigHash.bytes [[0x30], [0x02], [opChecksig]] 0 =
          getSigOpCount true [opChecksig]) :=
  @witnessSigOps_covers checksigHashes ⟨fun _ _ _ _ => false, fun _ _ _ => some .sig⟩
    [[0x30], [0x02], [opChecksig]] 0 checksigHash.bytes 0 (.witnessV0 [[0x30], [0x02]] [opChecksig])
    (.inl rfl) rfl

end QuantyCoin
