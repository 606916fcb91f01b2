import QuantyCoin.P2mrTree

/-!
# Standard script templates

`Solver` of `script/solver.cpp` and the readers of `script/script.cpp` and
`script/script.h` that it uses.  A template comes with the data that the source
collects in `vSolutionsRet`.
-/

namespace QuantyCoin

open ByteDecoder

/-! ## Opcodes and numbers -/

def opPushdata1 : UInt8 := 0x4c
def opPushdata2 : UInt8 := 0x4d
def opPushdata4 : UInt8 := 0x4e
def op1Negate : UInt8 := 0x4f
def op1 : UInt8 := 0x51
def op2 : UInt8 := 0x52
def op16 : UInt8 := 0x60
def opReturn : UInt8 := 0x6a
def opDup : UInt8 := 0x76
def opEqual : UInt8 := 0x87
def opEqualverify : UInt8 := 0x88
def opHash160 : UInt8 := 0xa9
def opChecksig : UInt8 := 0xac
def opCheckmultisig : UInt8 := 0xae
def opChecksigdilithium : UInt8 := 0xbb
def opCheckmultisigdilithium : UInt8 := 0xbd

def maxPubkeysPerMultisig : Nat := 20

/-- `CDilithiumPubKey::SIZE`. -/
def dilithiumPubKeySize : Nat := 1312

/-- `CScript::DecodeOP_N`. -/
def decodeOpN (opcode : UInt8) : Nat :=
  if opcode = 0 then 0 else opcode.toNat - 0x50

/-- `IsSmallInteger`. -/
def isSmallInteger (opcode : UInt8) : Bool := op1 ≤ opcode && opcode ≤ op16

/-- `IsPushdataOp`, which leaves out `OP_0`. -/
def isPushdataOp (opcode : UInt8) : Bool := 0 < opcode && opcode ≤ opPushdata4

/-- The number of length bytes after a push opcode. -/
def lengthBytes (opcode : UInt8) : Nat :=
  if opcode < opPushdata1 then 0
  else if opcode = opPushdata1 then 1
  else if opcode = opPushdata2 then 2
  else 4

/-- `nSize`, the number of bytes that a push opcode pushes. -/
def pushSize (opcode : UInt8) (rest : Bytes) : Nat :=
  if opcode < opPushdata1 then opcode.toNat else leValue (rest.take (lengthBytes opcode))

/-- `GetScriptOp`: the next opcode, the data it pushes and what follows. -/
def getScriptOp : Bytes → Option (UInt8 × Bytes × Bytes)
  | [] => none
  | opcode :: rest =>
      if opcode ≤ opPushdata4 then
        if rest.length < lengthBytes opcode + pushSize opcode rest then none
        else
          let pushed := rest.drop (lengthBytes opcode)
          let size := pushSize opcode rest
          some (opcode, pushed.take size, pushed.drop size)
      else some (opcode, [], rest)

theorem getScriptOp_shorter {script data rest : Bytes} {opcode : UInt8}
    (found : getScriptOp script = some (opcode, data, rest)) : rest.length < script.length := by
  cases script with
  | nil => cases found
  | cons first tail =>
      rw [getScriptOp] at found
      split_ifs at found
      · simp only [Option.some.injEq, Prod.mk.injEq] at found
        rw [← found.2.2]
        simp only [List.length_drop, List.length_cons]
        omega
      · simp only [Option.some.injEq, Prod.mk.injEq] at found
        rw [← found.2.2, List.length_cons]
        omega

/-- `CScript::IsPushOnly`. -/
def isPushOnly (script : Bytes) : Bool :=
  match script with
  | [] => true
  | opcode :: rest =>
      match _found : getScriptOp (opcode :: rest) with
      | none => false
      | some (opcode, _, rest) => opcode ≤ op16 && isPushOnly rest
termination_by script.length
decreasing_by exact getScriptOp_shorter ‹_›

/-- `CheckMinimalPush`. -/
def checkMinimalPush (data : Bytes) (opcode : UInt8) : Bool :=
  match data with
  | [] => opcode = 0
  | [byte] =>
      if 1 ≤ byte ∧ byte ≤ 16 then false else if byte = 0x81 then false else opcode = 1
  | data =>
      if data.length ≤ 75 then opcode.toNat = data.length
      else if data.length ≤ 255 then opcode = opPushdata1
      else if data.length ≤ 65535 then opcode = opPushdata2
      else true

/-- `CScriptNum(data, true)`; nothing where the constructor throws. -/
def scriptNum (data : Bytes) : Option Int :=
  if 4 < data.length then none else
    match data.getLast? with
    | none => some 0
    | some last =>
        let previous := data.dropLast.getLast?.getD 0
        if last &&& 0x7f = 0 ∧ (data.length ≤ 1 ∨ previous &&& 0x80 = 0) then none
        else if last &&& 0x80 = 0 then some (leValue data)
        else some (-(leValue data - 0x80 * 256 ^ (data.length - 1) : Nat))

/-- `GetScriptNumber`. -/
def getScriptNumber (opcode : UInt8) (data : Bytes) (min max : Nat) : Option Nat := do
  let count ←
    if isSmallInteger opcode then some (decodeOpN opcode : Int)
    else if isPushdataOp opcode then
      if checkMinimalPush data opcode then scriptNum data else none
    else none
  if count < min ∨ count > max then none else some count.toNat

/-! ## Templates -/

/-- `TxoutType`, with the data of the template. -/
inductive TxoutType
  | nonstandard
  | pubkey (pubkey : Bytes)
  | pubkeyhash (hash : Bytes)
  | scripthash (hash : Bytes)
  | multisig (required : Nat) (pubkeys : List Bytes)
  | nullData
  | witnessV0Keyhash (program : Bytes)
  | witnessV0Scripthash (program : Bytes)
  | witnessV1Taproot (program : Uint256)
  | witnessV2P2mr (program : Uint256)
  | witnessUnknown (version : Nat) (program : Bytes)
  | dilithiumPubkey (pubkey : Bytes)
  | dilithiumPubkeyhash (hash : Bytes)
  | dilithiumScripthash
  | dilithiumMultisig (required : Nat) (pubkeys : List Bytes)
  | dilithiumWitnessV0Keyhash
  | dilithiumWitnessV0Scripthash

/-- `CScript::IsPayToScriptHash`. -/
def isPayToScriptHash (script : Bytes) : Bool :=
  script.length = 23 ∧ script[0]? = some opHash160 ∧ script[1]? = some 0x14 ∧
    script[22]? = some opEqual

/-- `CScript::IsWitnessProgram`: the version and the program. -/
def isWitnessProgram : Bytes → Option (Nat × Bytes)
  | version :: size :: program =>
      if program.length + 2 < 4 ∨ program.length + 2 > 42 then none
      else if version ≠ 0 ∧ (version < op1 ∨ version > op16) then none
      else if size.toNat + 2 = program.length + 2 then some (decodeOpN version, program)
      else none
  | _ => none

/-- `CPubKey::GetLen`. -/
def pubKeyLength (header : UInt8) : Nat :=
  if header = 2 ∨ header = 3 then 33
  else if header = 4 ∨ header = 6 ∨ header = 7 then 65
  else 0

/-- `CPubKey::ValidSize`. -/
def validSize : Bytes → Bool
  | [] => false
  | header :: rest => pubKeyLength header = rest.length + 1

/-- `MatchPayToPubkey`. -/
def matchPayToPubkey (script : Bytes) : Option Bytes :=
  if script.length = 67 ∧ script[0]? = some 65 ∧ script.getLast? = some opChecksig then
    let pubkey := (script.drop 1).take 65
    if validSize pubkey then some pubkey else none
  else if script.length = 35 ∧ script[0]? = some 33 ∧ script.getLast? = some opChecksig then
    let pubkey := (script.drop 1).take 33
    if validSize pubkey then some pubkey else none
  else none

/-- A key hash between `OP_DUP OP_HASH160` and `OP_EQUALVERIFY` with the opcode
that checks the signature. -/
def matchKeyHash (checker : UInt8) (script : Bytes) : Option Bytes :=
  if script.length = 25 ∧ script[0]? = some opDup ∧ script[1]? = some opHash160 ∧
      script[2]? = some 20 ∧ script[23]? = some opEqualverify ∧ script[24]? = some checker then
    some ((script.drop 3).take 20)
  else none

/-- `MatchPayToPubkeyHash`. -/
def matchPayToPubkeyHash : Bytes → Option Bytes := matchKeyHash opChecksig

/-- The loop over the keys: the keys and the first operation that pushes none,
if the script does not end first. -/
def readKeys (valid : Bytes → Bool) (script : Bytes) :
    List Bytes × Option (UInt8 × Bytes × Bytes) :=
  match _found : getScriptOp script with
  | none => ([], none)
  | some (opcode, data, rest) =>
      if valid data then
        let (pubkeys, stop) := readKeys valid rest
        (data :: pubkeys, stop)
      else ([], some (opcode, data, rest))
termination_by script.length
decreasing_by exact getScriptOp_shorter ‹_›

/-- The number of signatures, the keys and their number, then `checker` as the
last byte. -/
def matchKeyList (valid : Bytes → Bool) (checker : UInt8) (script : Bytes) :
    Option (Nat × List Bytes) := do
  if script.getLast? ≠ some checker then none else
    let (opcode, data, rest) ← getScriptOp script
    let required ← getScriptNumber opcode data 1 maxPubkeysPerMultisig
    let (pubkeys, stop) := readKeys valid rest
    let (opcode, data, rest) ← stop
    let count ← getScriptNumber opcode data required maxPubkeysPerMultisig
    if pubkeys.length = count ∧ rest.length = 1 then some (required, pubkeys) else none

/-- `MatchMultisig`. -/
def matchMultisig : Bytes → Option (Nat × List Bytes) := matchKeyList validSize opCheckmultisig

/-- `MatchPayToDilithiumPubkey`.  The second format compares a byte with the size
of a key, so that it never matches. -/
def matchPayToDilithiumPubkey (script : Bytes) : Option Bytes :=
  if script.length = dilithiumPubKeySize + 4 ∧ script[0]? = some opPushdata2 ∧
      script.getLast? = some opChecksigdilithium then
    some ((script.drop 3).take dilithiumPubKeySize)
  else if script.length = dilithiumPubKeySize + 2 ∧
      script[0]?.map UInt8.toNat = some dilithiumPubKeySize ∧
      script.getLast? = some opChecksigdilithium then
    some ((script.drop 1).take dilithiumPubKeySize)
  else none

/-- `MatchPayToDilithiumPubkeyHash`. -/
def matchPayToDilithiumPubkeyHash : Bytes → Option Bytes := matchKeyHash opChecksigdilithium

/-- `MatchDilithiumMultisig`. -/
def matchDilithiumMultisig : Bytes → Option (Nat × List Bytes) :=
  matchKeyList (fun data => data.length = dilithiumPubKeySize) opCheckmultisigdilithium

/-- The templates of `Solver` for a witness program. -/
def solveWitnessProgram (version : Nat) (program : Bytes) : TxoutType :=
  if version = 0 ∧ program.length = 20 then .witnessV0Keyhash program
  else if version = 0 ∧ program.length = 32 then .witnessV0Scripthash program
  else if taproot : version = 1 ∧ program.length = 32 then
    .witnessV1Taproot ⟨program, taproot.2⟩
  else if p2mr : version = 2 ∧ program.length = 32 then .witnessV2P2mr ⟨program, p2mr.2⟩
  else if version ≠ 0 then .witnessUnknown version program
  else .nonstandard

/-- `Solver`. -/
def solver (script : Bytes) : TxoutType :=
  if isPayToScriptHash script then .scripthash ((script.drop 2).take 20)
  else if let some (version, program) := isWitnessProgram script then
    solveWitnessProgram version program
  else if script[0]? = some opReturn ∧ isPushOnly (script.drop 1) then .nullData
  else if let some pubkey := matchPayToPubkey script then .pubkey pubkey
  else if let some hash := matchPayToPubkeyHash script then .pubkeyhash hash
  else if let some (required, pubkeys) := matchMultisig script then .multisig required pubkeys
  else if let some pubkey := matchPayToDilithiumPubkey script then .dilithiumPubkey pubkey
  else if let some hash := matchPayToDilithiumPubkeyHash script then .dilithiumPubkeyhash hash
  else if let some (required, pubkeys) := matchDilithiumMultisig script then
    .dilithiumMultisig required pubkeys
  else .nonstandard

/-! ## Outputs that pay to a script tree -/

/-- The output script of a P2MR destination: the version and the program. -/
def p2mrScript (program : Uint256) : Bytes := op2 :: 32 :: program.bytes

theorem isWitnessProgram_p2mrScript (program : Uint256) :
    isWitnessProgram (p2mrScript program) = some (2, program.bytes) := by
  have size := program.bytes_length
  simp [p2mrScript, isWitnessProgram, size, op1, op2, op16, decodeOpN]

@[simp]
theorem solver_p2mrScript (program : Uint256) :
    solver (p2mrScript program) = .witnessV2P2mr program := by
  have notScriptHash : isPayToScriptHash (p2mrScript program) = false := by
    simp [isPayToScriptHash, p2mrScript, program.bytes_length]
  rw [solver, notScriptHash, isWitnessProgram_p2mrScript]
  simp [solveWitnessProgram, program.bytes_length]

theorem eq_of_solveWitnessProgram {version : Nat} {bytes : Bytes} {program : Uint256}
    (solved : solveWitnessProgram version bytes = .witnessV2P2mr program) :
    version = 2 ∧ bytes = program.bytes := by
  unfold solveWitnessProgram at solved
  split_ifs at solved with _ _ _ p2mr
  · simp only [TxoutType.witnessV2P2mr.injEq] at solved
    exact ⟨p2mr.1, by rw [← solved]⟩

theorem eq_of_isWitnessProgram {script bytes : Bytes}
    (found : isWitnessProgram script = some (2, bytes)) (size : bytes.length = 32) :
    script = op2 :: 32 :: bytes := by
  match script, found with
  | first :: length :: rest, found =>
      simp only [isWitnessProgram] at found
      split_ifs at found with _ _ sized
      simp only [Option.some.injEq, Prod.mk.injEq, decodeOpN] at found
      obtain ⟨decoded, rfl⟩ := found
      have firstByte : first = op2 := by
        split_ifs at decoded
        exact UInt8.toNat_inj.mp (by simp only [op2]; change first.toNat = 82; omega)
      have lengthByte : length = 32 :=
        UInt8.toNat_inj.mp (by change length.toNat = 32; omega)
      rw [firstByte, lengthByte]

/-- The scripts that `Solver` takes for a P2MR output are exactly the output
scripts of programs of 32 bytes. -/
theorem solver_eq_witnessV2P2mr_iff {script : Bytes} {program : Uint256} :
    solver script = .witnessV2P2mr program ↔ script = p2mrScript program := by
  constructor
  · intro solved
    unfold solver at solved
    split at solved
    · cases solved
    · split at solved
      · rename_i version bytes found
        obtain ⟨rfl, rfl⟩ := eq_of_solveWitnessProgram solved
        exact eq_of_isWitnessProgram found program.bytes_length
      · repeat' split at solved
        all_goals cases solved
  · rintro rfl
    exact solver_p2mrScript program

end QuantyCoin
