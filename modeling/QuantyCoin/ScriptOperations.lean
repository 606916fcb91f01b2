import QuantyCoin.ScriptNumbers
import QuantyCoin.SignatureEncodings

/-!
# Operations of the script interpreter

The cases of the `switch` of `EvalScript` in `script/interpreter.cpp`, and the operations
on the stacks and on numbers.  A stack is a list with its top first.
-/

namespace QuantyCoin

open ByteDecoder StateTriples

/-! ## Opcodes -/

inductive HashOp
  | ripemd160 | sha1 | sha256 | hash160 | hash256
  deriving DecidableEq

/-- The operations that only move, compare and test what is on the stacks. -/
inductive StackOp
  | verify | opReturn
  | toaltstack | fromaltstack
  | drop2 | dup2 | dup3 | over2 | rot2 | swap2
  | ifdup | depth | drop | dup | nip | over | rot | swap | tuck
  | size
  | equal (verifies : Bool)
  deriving DecidableEq

inductive UnaryOp
  | add1 | sub1 | negate | abs | not | notequal0
  deriving DecidableEq

inductive BinaryOp
  | add | sub
  | booland | boolor
  | numequal (verifies : Bool) | numnotequal
  | lessthan | greaterthan | lessthanorequal | greaterthanorequal
  | min | max
  deriving DecidableEq

/-- The operations that read numbers. -/
inductive NumericOp
  | pick (roll : Bool)
  | unary (op : UnaryOp)
  | binary (op : BinaryOp)
  | within
  deriving DecidableEq

/-- The cases of the interpreter's `switch`. -/
inductive Opcode
  | pushNumber (n : Int)
  | nop | checklocktimeverify | checksequenceverify | upgradableNop
  | opIf (notif : Bool) | opElse | endif
  | stack (op : StackOp)
  | numeric (op : NumericOp)
  | hash (op : HashOp)
  | codeseparator
  | checksig (verifies : Bool) | checksigadd | checkmultisig (verifies : Bool)
  | checksigdilithium (verifies : Bool) | checkmultisigdilithium (verifies : Bool)
  | dilithiumPubkey
  /-- The `default` case. -/
  | bad
  deriving DecidableEq

def opIf : UInt8 := 0x63
def opEndif : UInt8 := 0x68

/-- The case of an opcode that pushes no data of its own. -/
def Opcode.ofByte (opcode : UInt8) : Opcode :=
  if opcode = op1Negate ∨ (op1 ≤ opcode ∧ opcode ≤ op16) then .pushNumber (opcode.toNat - 0x50)
  else
    match opcode with
    | 0x61 => .nop
    | 0x63 => .opIf false
    | 0x64 => .opIf true
    | 0x67 => .opElse
    | 0x68 => .endif
    | 0x69 => .stack .verify
    | 0x6a => .stack .opReturn
    | 0x6b => .stack .toaltstack
    | 0x6c => .stack .fromaltstack
    | 0x6d => .stack .drop2
    | 0x6e => .stack .dup2
    | 0x6f => .stack .dup3
    | 0x70 => .stack .over2
    | 0x71 => .stack .rot2
    | 0x72 => .stack .swap2
    | 0x73 => .stack .ifdup
    | 0x74 => .stack .depth
    | 0x75 => .stack .drop
    | 0x76 => .stack .dup
    | 0x77 => .stack .nip
    | 0x78 => .stack .over
    | 0x79 => .numeric (.pick false)
    | 0x7a => .numeric (.pick true)
    | 0x7b => .stack .rot
    | 0x7c => .stack .swap
    | 0x7d => .stack .tuck
    | 0x82 => .stack .size
    | 0x87 => .stack (.equal false)
    | 0x88 => .stack (.equal true)
    | 0x8b => .numeric (.unary .add1)
    | 0x8c => .numeric (.unary .sub1)
    | 0x8f => .numeric (.unary .negate)
    | 0x90 => .numeric (.unary .abs)
    | 0x91 => .numeric (.unary .not)
    | 0x92 => .numeric (.unary .notequal0)
    | 0x93 => .numeric (.binary .add)
    | 0x94 => .numeric (.binary .sub)
    | 0x9a => .numeric (.binary .booland)
    | 0x9b => .numeric (.binary .boolor)
    | 0x9c => .numeric (.binary (.numequal false))
    | 0x9d => .numeric (.binary (.numequal true))
    | 0x9e => .numeric (.binary .numnotequal)
    | 0x9f => .numeric (.binary .lessthan)
    | 0xa0 => .numeric (.binary .greaterthan)
    | 0xa1 => .numeric (.binary .lessthanorequal)
    | 0xa2 => .numeric (.binary .greaterthanorequal)
    | 0xa3 => .numeric (.binary .min)
    | 0xa4 => .numeric (.binary .max)
    | 0xa5 => .numeric .within
    | 0xa6 => .hash .ripemd160
    | 0xa7 => .hash .sha1
    | 0xa8 => .hash .sha256
    | 0xa9 => .hash .hash160
    | 0xaa => .hash .hash256
    | 0xab => .codeseparator
    | 0xac => .checksig false
    | 0xad => .checksig true
    | 0xae => .checkmultisig false
    | 0xaf => .checkmultisig true
    | 0xb1 => .checklocktimeverify
    | 0xb2 => .checksequenceverify
    | 0xba => .checksigadd
    | 0xbb => .checksigdilithium false
    | 0xbc => .checksigdilithium true
    | 0xbd => .checkmultisigdilithium false
    | 0xbe => .checkmultisigdilithium true
    | 0xbf => .dilithiumPubkey
    | opcode =>
        if opcode = 0xb0 ∨ (0xb3 ≤ opcode ∧ opcode ≤ 0xb9) then .upgradableNop else .bad

/-- The opcodes that are disabled wherever they stand. -/
def isDisabled (opcode : UInt8) : Bool :=
  opcode ∈ [0x7e, 0x7f, 0x80, 0x81, 0x83, 0x84, 0x85, 0x86, 0x8d, 0x8e, 0x95, 0x96, 0x97, 0x98,
    (0x99 : UInt8)]

/-! ## Operations on the stacks -/

/-- `CastToBool`. -/
def castToBool : Bytes → Bool
  | [] => false
  | [byte] => byte ≠ 0 && byte ≠ 0x80
  | byte :: rest => byte ≠ 0 || castToBool rest

/-- `vchTrue` and `vchFalse`. -/
def boolBytes (value : Bool) : Bytes := if value then [1] else []

/-- `stacktop(-1)` and what is below it. -/
def pop : List Bytes → Except EvalError (Bytes × List Bytes)
  | [] => .error .invalidStackOperation
  | vch :: stack => .ok (vch, stack)

/-- The operation with the stack and the alternative stack. -/
def StackOp.eval (op : StackOp) (stack altstack : List Bytes) :
    Except EvalError (List Bytes × List Bytes) :=
  match op with
  | .verify => do
      let (vch, below) ← pop stack
      demand (castToBool vch) .verify
      .ok (below, altstack)
  | .opReturn => .error .opReturn
  | .toaltstack => do
      let (vch, below) ← pop stack
      .ok (below, vch :: altstack)
  | .fromaltstack =>
      match altstack with
      | [] => .error .invalidAltstackOperation
      | vch :: altstack => .ok (vch :: stack, altstack)
  | .drop2 => do
      let (_, below) ← pop stack
      let (_, below) ← pop below
      .ok (below, altstack)
  | .dup2 => do
      let (vch2, below) ← pop stack
      let (vch1, _) ← pop below
      .ok (vch2 :: vch1 :: stack, altstack)
  | .dup3 => do
      let (vch3, below) ← pop stack
      let (vch2, below) ← pop below
      let (vch1, _) ← pop below
      .ok (vch3 :: vch2 :: vch1 :: stack, altstack)
  | .over2 => do
      let (_, below) ← pop stack
      let (_, below) ← pop below
      let (vch2, below) ← pop below
      let (vch1, _) ← pop below
      .ok (vch2 :: vch1 :: stack, altstack)
  | .rot2 => do
      let (x6, below) ← pop stack
      let (x5, below) ← pop below
      let (x4, below) ← pop below
      let (x3, below) ← pop below
      let (x2, below) ← pop below
      let (x1, below) ← pop below
      .ok (x2 :: x1 :: x6 :: x5 :: x4 :: x3 :: below, altstack)
  | .swap2 => do
      let (x4, below) ← pop stack
      let (x3, below) ← pop below
      let (x2, below) ← pop below
      let (x1, below) ← pop below
      .ok (x2 :: x1 :: x4 :: x3 :: below, altstack)
  | .ifdup => do
      let (vch, _) ← pop stack
      .ok (if castToBool vch then vch :: stack else stack, altstack)
  | .depth => .ok (CScriptNum.serialize stack.length :: stack, altstack)
  | .drop => do
      let (_, below) ← pop stack
      .ok (below, altstack)
  | .dup => do
      let (vch, _) ← pop stack
      .ok (vch :: stack, altstack)
  | .nip => do
      let (x2, below) ← pop stack
      let (_, below) ← pop below
      .ok (x2 :: below, altstack)
  | .over => do
      let (_, below) ← pop stack
      let (vch, _) ← pop below
      .ok (vch :: stack, altstack)
  | .rot => do
      let (x3, below) ← pop stack
      let (x2, below) ← pop below
      let (x1, below) ← pop below
      .ok (x1 :: x3 :: x2 :: below, altstack)
  | .swap => do
      let (x2, below) ← pop stack
      let (x1, below) ← pop below
      .ok (x1 :: x2 :: below, altstack)
  | .tuck => do
      let (vch, below) ← pop stack
      let (x1, below) ← pop below
      .ok (vch :: x1 :: vch :: below, altstack)
  | .size => do
      let (vch, _) ← pop stack
      .ok (CScriptNum.serialize vch.length :: stack, altstack)
  | .equal verifies => do
      let (vch2, below) ← pop stack
      let (vch1, below) ← pop below
      if verifies then
        demand (vch1 = vch2) .equalverify
        .ok (below, altstack)
      else .ok (boolBytes (vch1 = vch2) :: below, altstack)

/-! ## Operations on numbers -/

/-- `CScriptNum(vch, fRequireMinimal, nMaxNumSize)`, whose exception is caught at the end
of the interpreter. -/
def readNumber (fRequireMinimal : Bool) (nMaxNumSize : Nat) (vch : Bytes) : Except EvalError Int :=
  match CScriptNum.ofBytes vch fRequireMinimal nMaxNumSize with
  | some value => .ok value
  | none => .error .unknownError

/-- `CScriptNum::getint`. -/
def getint (value : Int) : Int := max (-2 ^ 31) (min value (2 ^ 31 - 1))

/-- The number of a truth value. -/
def boolNumber (value : Bool) : Int := if value then 1 else 0

def UnaryOp.eval (op : UnaryOp) (bn : Int) : Int :=
  match op with
  | .add1 => bn + 1
  | .sub1 => bn - 1
  | .negate => -bn
  | .abs => if bn < 0 then -bn else bn
  | .not => boolNumber (bn = 0)
  | .notequal0 => boolNumber (bn ≠ 0)

def BinaryOp.eval (op : BinaryOp) (bn1 bn2 : Int) : Int :=
  match op with
  | .add => bn1 + bn2
  | .sub => bn1 - bn2
  | .booland => boolNumber (bn1 ≠ 0 ∧ bn2 ≠ 0)
  | .boolor => boolNumber (bn1 ≠ 0 ∨ bn2 ≠ 0)
  | .numequal _ => boolNumber (bn1 = bn2)
  | .numnotequal => boolNumber (bn1 ≠ bn2)
  | .lessthan => boolNumber (bn1 < bn2)
  | .greaterthan => boolNumber (bn1 > bn2)
  | .lessthanorequal => boolNumber (bn1 ≤ bn2)
  | .greaterthanorequal => boolNumber (bn1 ≥ bn2)
  | .min => if bn1 < bn2 then bn1 else bn2
  | .max => if bn1 > bn2 then bn1 else bn2

/-- The operation with the stack. -/
def NumericOp.eval (fRequireMinimal : Bool) (op : NumericOp) (stack : List Bytes) :
    Except EvalError (List Bytes) :=
  match op with
  | .pick roll => do
      let (top, below) ← pop stack
      demand (below ≠ []) .invalidStackOperation
      let n := getint (← readNumber fRequireMinimal 4 top)
      demand (0 ≤ n ∧ n < below.length) .invalidStackOperation
      let vch := below.getD n.toNat []
      .ok (vch :: if roll then below.eraseIdx n.toNat else below)
  | .unary op => do
      let (top, below) ← pop stack
      let bn ← readNumber fRequireMinimal 4 top
      .ok (CScriptNum.serialize (op.eval bn) :: below)
  | .binary op => do
      let (vch2, below) ← pop stack
      let (vch1, below) ← pop below
      let bn1 ← readNumber fRequireMinimal 4 vch1
      let bn2 ← readNumber fRequireMinimal 4 vch2
      let result := CScriptNum.serialize (op.eval bn1 bn2)
      if op = .numequal true then
        demand (castToBool result) .numequalverify
        .ok below
      else .ok (result :: below)
  | .within => do
      let (vch3, below) ← pop stack
      let (vch2, below) ← pop below
      let (vch1, below) ← pop below
      let bn1 ← readNumber fRequireMinimal 4 vch1
      let bn2 ← readNumber fRequireMinimal 4 vch2
      let bn3 ← readNumber fRequireMinimal 4 vch3
      .ok (boolBytes (bn2 ≤ bn1 ∧ bn1 < bn3) :: below)

end QuantyCoin
