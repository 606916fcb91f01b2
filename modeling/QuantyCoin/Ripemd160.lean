import QuantyCoin.Primitives
import QuantyCoin.BlockHashing

/-!
# The RIPEMD-160 hasher of the native node

`CRIPEMD160` from `src/crypto/ripemd160.cpp`.  `Transform` is a straight line
of round calls that alternate between two lines of five variables; the five
roles of the variables move by one place from call to call.  `Write` keeps the
bytes of an incomplete block in a buffer and `Finalize` pads.  The digest is
that of the padded message, cut into blocks, in whatever pieces it was written.
-/

namespace QuantyCoin

open ByteDecoder BlockHashing

namespace Ripemd160

/-- `uint32_t`. -/
abbrev Word := BitVec 32

/-- The five variables of a line, and the five words of a state. -/
@[ext]
structure Registers (α : Type) where
  a : α
  b : α
  c : α
  d : α
  e : α
  deriving DecidableEq

inductive Register
  | a | b | c | d | e
  deriving DecidableEq

namespace Registers

variable {α : Type}

def get (registers : Registers α) : Register → α
  | .a => registers.a
  | .b => registers.b
  | .c => registers.c
  | .d => registers.d
  | .e => registers.e

def set (registers : Registers α) (value : α) : Register → Registers α
  | .a => { registers with a := value }
  | .b => { registers with b := value }
  | .c => { registers with c := value }
  | .d => { registers with d := value }
  | .e => { registers with e := value }

end Registers

/-! ## Rounds -/

def f1 (x y z : Word) : Word := x ^^^ y ^^^ z
def f2 (x y z : Word) : Word := (x &&& y) ||| (~~~x &&& z)
def f3 (x y z : Word) : Word := (x ||| ~~~y) ^^^ z
def f4 (x y z : Word) : Word := (x &&& z) ||| (y &&& ~~~z)
def f5 (x y z : Word) : Word := x ^^^ (y ||| ~~~z)

/-- The state set by `Initialize`. -/
def initialState : Registers Word :=
  ⟨0x67452301, 0xEFCDAB89, 0x98BADCFE, 0x10325476, 0xC3D2E1F0⟩

def rol (x : Word) (i : Nat) : Word := (x <<< i) ||| (x >>> (32 - i))

/-- `Round`: the new values of `a` and `c`. -/
def round (a c e f x k : Word) (r : Nat) : Word × Word :=
  (rol (a + f + x + k) r + e, rol c 10)

/-- The functions `R11` to `R52`: of `a`, `b`, `c`, `d`, `e`, `x` and `r` they
return the new values of `a` and `c`. -/
abbrev RoundFunction := (a b c d e x : Word) → (r : Nat) → Word × Word

def R11 : RoundFunction := fun a b c d e x r => round a c e (f1 b c d) x 0 r
def R21 : RoundFunction := fun a b c d e x r => round a c e (f2 b c d) x 0x5A827999 r
def R31 : RoundFunction := fun a b c d e x r => round a c e (f3 b c d) x 0x6ED9EBA1 r
def R41 : RoundFunction := fun a b c d e x r => round a c e (f4 b c d) x 0x8F1BBCDC r
def R51 : RoundFunction := fun a b c d e x r => round a c e (f5 b c d) x 0xA953FD4E r

def R12 : RoundFunction := fun a b c d e x r => round a c e (f5 b c d) x 0x50A28BE6 r
def R22 : RoundFunction := fun a b c d e x r => round a c e (f4 b c d) x 0x5C4DD124 r
def R32 : RoundFunction := fun a b c d e x r => round a c e (f3 b c d) x 0x6D703EF3 r
def R42 : RoundFunction := fun a b c d e x r => round a c e (f2 b c d) x 0x7A6D76E9 r
def R52 : RoundFunction := fun a b c d e x r => round a c e (f1 b c d) x 0 r

/-- A round call of `Transform`: the function, the variables in the places of
`a` to `e`, the index of the message word, and the rotation. -/
structure RoundCall where
  function : RoundFunction
  a : Register
  b : Register
  c : Register
  d : Register
  e : Register
  x : Nat
  r : Nat

def RoundCall.run (w : Nat → Word) (call : RoundCall) (line : Registers Word) :
    Registers Word :=
  let result := call.function (line.get call.a) (line.get call.b) (line.get call.c)
    (line.get call.d) (line.get call.e) (w call.x) call.r
  (line.set result.1 call.a).set result.2 call.c

/-- The calls of `Transform` in order; the first of a pair is on the variables
`a1` to `e1`, the second on `a2` to `e2`. -/
def roundCalls : List (RoundCall × RoundCall) := [
  (⟨R11, .a, .b, .c, .d, .e, 0, 11⟩, ⟨R12, .a, .b, .c, .d, .e, 5, 8⟩),
  (⟨R11, .e, .a, .b, .c, .d, 1, 14⟩, ⟨R12, .e, .a, .b, .c, .d, 14, 9⟩),
  (⟨R11, .d, .e, .a, .b, .c, 2, 15⟩, ⟨R12, .d, .e, .a, .b, .c, 7, 9⟩),
  (⟨R11, .c, .d, .e, .a, .b, 3, 12⟩, ⟨R12, .c, .d, .e, .a, .b, 0, 11⟩),
  (⟨R11, .b, .c, .d, .e, .a, 4, 5⟩, ⟨R12, .b, .c, .d, .e, .a, 9, 13⟩),
  (⟨R11, .a, .b, .c, .d, .e, 5, 8⟩, ⟨R12, .a, .b, .c, .d, .e, 2, 15⟩),
  (⟨R11, .e, .a, .b, .c, .d, 6, 7⟩, ⟨R12, .e, .a, .b, .c, .d, 11, 15⟩),
  (⟨R11, .d, .e, .a, .b, .c, 7, 9⟩, ⟨R12, .d, .e, .a, .b, .c, 4, 5⟩),
  (⟨R11, .c, .d, .e, .a, .b, 8, 11⟩, ⟨R12, .c, .d, .e, .a, .b, 13, 7⟩),
  (⟨R11, .b, .c, .d, .e, .a, 9, 13⟩, ⟨R12, .b, .c, .d, .e, .a, 6, 7⟩),
  (⟨R11, .a, .b, .c, .d, .e, 10, 14⟩, ⟨R12, .a, .b, .c, .d, .e, 15, 8⟩),
  (⟨R11, .e, .a, .b, .c, .d, 11, 15⟩, ⟨R12, .e, .a, .b, .c, .d, 8, 11⟩),
  (⟨R11, .d, .e, .a, .b, .c, 12, 6⟩, ⟨R12, .d, .e, .a, .b, .c, 1, 14⟩),
  (⟨R11, .c, .d, .e, .a, .b, 13, 7⟩, ⟨R12, .c, .d, .e, .a, .b, 10, 14⟩),
  (⟨R11, .b, .c, .d, .e, .a, 14, 9⟩, ⟨R12, .b, .c, .d, .e, .a, 3, 12⟩),
  (⟨R11, .a, .b, .c, .d, .e, 15, 8⟩, ⟨R12, .a, .b, .c, .d, .e, 12, 6⟩),
  (⟨R21, .e, .a, .b, .c, .d, 7, 7⟩, ⟨R22, .e, .a, .b, .c, .d, 6, 9⟩),
  (⟨R21, .d, .e, .a, .b, .c, 4, 6⟩, ⟨R22, .d, .e, .a, .b, .c, 11, 13⟩),
  (⟨R21, .c, .d, .e, .a, .b, 13, 8⟩, ⟨R22, .c, .d, .e, .a, .b, 3, 15⟩),
  (⟨R21, .b, .c, .d, .e, .a, 1, 13⟩, ⟨R22, .b, .c, .d, .e, .a, 7, 7⟩),
  (⟨R21, .a, .b, .c, .d, .e, 10, 11⟩, ⟨R22, .a, .b, .c, .d, .e, 0, 12⟩),
  (⟨R21, .e, .a, .b, .c, .d, 6, 9⟩, ⟨R22, .e, .a, .b, .c, .d, 13, 8⟩),
  (⟨R21, .d, .e, .a, .b, .c, 15, 7⟩, ⟨R22, .d, .e, .a, .b, .c, 5, 9⟩),
  (⟨R21, .c, .d, .e, .a, .b, 3, 15⟩, ⟨R22, .c, .d, .e, .a, .b, 10, 11⟩),
  (⟨R21, .b, .c, .d, .e, .a, 12, 7⟩, ⟨R22, .b, .c, .d, .e, .a, 14, 7⟩),
  (⟨R21, .a, .b, .c, .d, .e, 0, 12⟩, ⟨R22, .a, .b, .c, .d, .e, 15, 7⟩),
  (⟨R21, .e, .a, .b, .c, .d, 9, 15⟩, ⟨R22, .e, .a, .b, .c, .d, 8, 12⟩),
  (⟨R21, .d, .e, .a, .b, .c, 5, 9⟩, ⟨R22, .d, .e, .a, .b, .c, 12, 7⟩),
  (⟨R21, .c, .d, .e, .a, .b, 2, 11⟩, ⟨R22, .c, .d, .e, .a, .b, 4, 6⟩),
  (⟨R21, .b, .c, .d, .e, .a, 14, 7⟩, ⟨R22, .b, .c, .d, .e, .a, 9, 15⟩),
  (⟨R21, .a, .b, .c, .d, .e, 11, 13⟩, ⟨R22, .a, .b, .c, .d, .e, 1, 13⟩),
  (⟨R21, .e, .a, .b, .c, .d, 8, 12⟩, ⟨R22, .e, .a, .b, .c, .d, 2, 11⟩),
  (⟨R31, .d, .e, .a, .b, .c, 3, 11⟩, ⟨R32, .d, .e, .a, .b, .c, 15, 9⟩),
  (⟨R31, .c, .d, .e, .a, .b, 10, 13⟩, ⟨R32, .c, .d, .e, .a, .b, 5, 7⟩),
  (⟨R31, .b, .c, .d, .e, .a, 14, 6⟩, ⟨R32, .b, .c, .d, .e, .a, 1, 15⟩),
  (⟨R31, .a, .b, .c, .d, .e, 4, 7⟩, ⟨R32, .a, .b, .c, .d, .e, 3, 11⟩),
  (⟨R31, .e, .a, .b, .c, .d, 9, 14⟩, ⟨R32, .e, .a, .b, .c, .d, 7, 8⟩),
  (⟨R31, .d, .e, .a, .b, .c, 15, 9⟩, ⟨R32, .d, .e, .a, .b, .c, 14, 6⟩),
  (⟨R31, .c, .d, .e, .a, .b, 8, 13⟩, ⟨R32, .c, .d, .e, .a, .b, 6, 6⟩),
  (⟨R31, .b, .c, .d, .e, .a, 1, 15⟩, ⟨R32, .b, .c, .d, .e, .a, 9, 14⟩),
  (⟨R31, .a, .b, .c, .d, .e, 2, 14⟩, ⟨R32, .a, .b, .c, .d, .e, 11, 12⟩),
  (⟨R31, .e, .a, .b, .c, .d, 7, 8⟩, ⟨R32, .e, .a, .b, .c, .d, 8, 13⟩),
  (⟨R31, .d, .e, .a, .b, .c, 0, 13⟩, ⟨R32, .d, .e, .a, .b, .c, 12, 5⟩),
  (⟨R31, .c, .d, .e, .a, .b, 6, 6⟩, ⟨R32, .c, .d, .e, .a, .b, 2, 14⟩),
  (⟨R31, .b, .c, .d, .e, .a, 13, 5⟩, ⟨R32, .b, .c, .d, .e, .a, 10, 13⟩),
  (⟨R31, .a, .b, .c, .d, .e, 11, 12⟩, ⟨R32, .a, .b, .c, .d, .e, 0, 13⟩),
  (⟨R31, .e, .a, .b, .c, .d, 5, 7⟩, ⟨R32, .e, .a, .b, .c, .d, 4, 7⟩),
  (⟨R31, .d, .e, .a, .b, .c, 12, 5⟩, ⟨R32, .d, .e, .a, .b, .c, 13, 5⟩),
  (⟨R41, .c, .d, .e, .a, .b, 1, 11⟩, ⟨R42, .c, .d, .e, .a, .b, 8, 15⟩),
  (⟨R41, .b, .c, .d, .e, .a, 9, 12⟩, ⟨R42, .b, .c, .d, .e, .a, 6, 5⟩),
  (⟨R41, .a, .b, .c, .d, .e, 11, 14⟩, ⟨R42, .a, .b, .c, .d, .e, 4, 8⟩),
  (⟨R41, .e, .a, .b, .c, .d, 10, 15⟩, ⟨R42, .e, .a, .b, .c, .d, 1, 11⟩),
  (⟨R41, .d, .e, .a, .b, .c, 0, 14⟩, ⟨R42, .d, .e, .a, .b, .c, 3, 14⟩),
  (⟨R41, .c, .d, .e, .a, .b, 8, 15⟩, ⟨R42, .c, .d, .e, .a, .b, 11, 14⟩),
  (⟨R41, .b, .c, .d, .e, .a, 12, 9⟩, ⟨R42, .b, .c, .d, .e, .a, 15, 6⟩),
  (⟨R41, .a, .b, .c, .d, .e, 4, 8⟩, ⟨R42, .a, .b, .c, .d, .e, 0, 14⟩),
  (⟨R41, .e, .a, .b, .c, .d, 13, 9⟩, ⟨R42, .e, .a, .b, .c, .d, 5, 6⟩),
  (⟨R41, .d, .e, .a, .b, .c, 3, 14⟩, ⟨R42, .d, .e, .a, .b, .c, 12, 9⟩),
  (⟨R41, .c, .d, .e, .a, .b, 7, 5⟩, ⟨R42, .c, .d, .e, .a, .b, 2, 12⟩),
  (⟨R41, .b, .c, .d, .e, .a, 15, 6⟩, ⟨R42, .b, .c, .d, .e, .a, 13, 9⟩),
  (⟨R41, .a, .b, .c, .d, .e, 14, 8⟩, ⟨R42, .a, .b, .c, .d, .e, 9, 12⟩),
  (⟨R41, .e, .a, .b, .c, .d, 5, 6⟩, ⟨R42, .e, .a, .b, .c, .d, 7, 5⟩),
  (⟨R41, .d, .e, .a, .b, .c, 6, 5⟩, ⟨R42, .d, .e, .a, .b, .c, 10, 15⟩),
  (⟨R41, .c, .d, .e, .a, .b, 2, 12⟩, ⟨R42, .c, .d, .e, .a, .b, 14, 8⟩),
  (⟨R51, .b, .c, .d, .e, .a, 4, 9⟩, ⟨R52, .b, .c, .d, .e, .a, 12, 8⟩),
  (⟨R51, .a, .b, .c, .d, .e, 0, 15⟩, ⟨R52, .a, .b, .c, .d, .e, 15, 5⟩),
  (⟨R51, .e, .a, .b, .c, .d, 5, 5⟩, ⟨R52, .e, .a, .b, .c, .d, 10, 12⟩),
  (⟨R51, .d, .e, .a, .b, .c, 9, 11⟩, ⟨R52, .d, .e, .a, .b, .c, 4, 9⟩),
  (⟨R51, .c, .d, .e, .a, .b, 7, 6⟩, ⟨R52, .c, .d, .e, .a, .b, 1, 12⟩),
  (⟨R51, .b, .c, .d, .e, .a, 12, 8⟩, ⟨R52, .b, .c, .d, .e, .a, 5, 5⟩),
  (⟨R51, .a, .b, .c, .d, .e, 2, 13⟩, ⟨R52, .a, .b, .c, .d, .e, 8, 14⟩),
  (⟨R51, .e, .a, .b, .c, .d, 10, 12⟩, ⟨R52, .e, .a, .b, .c, .d, 7, 6⟩),
  (⟨R51, .d, .e, .a, .b, .c, 14, 5⟩, ⟨R52, .d, .e, .a, .b, .c, 6, 8⟩),
  (⟨R51, .c, .d, .e, .a, .b, 1, 12⟩, ⟨R52, .c, .d, .e, .a, .b, 2, 13⟩),
  (⟨R51, .b, .c, .d, .e, .a, 3, 13⟩, ⟨R52, .b, .c, .d, .e, .a, 13, 6⟩),
  (⟨R51, .a, .b, .c, .d, .e, 8, 14⟩, ⟨R52, .a, .b, .c, .d, .e, 14, 5⟩),
  (⟨R51, .e, .a, .b, .c, .d, 11, 11⟩, ⟨R52, .e, .a, .b, .c, .d, 0, 15⟩),
  (⟨R51, .d, .e, .a, .b, .c, 6, 8⟩, ⟨R52, .d, .e, .a, .b, .c, 3, 13⟩),
  (⟨R51, .c, .d, .e, .a, .b, 15, 5⟩, ⟨R52, .c, .d, .e, .a, .b, 9, 11⟩),
  (⟨R51, .b, .c, .d, .e, .a, 13, 6⟩, ⟨R52, .b, .c, .d, .e, .a, 11, 11⟩)]

/-- `ReadLE32(chunk + 4 * i)`. -/
def chunkWord (chunk : Bytes) (i : Nat) : Word :=
  BitVec.ofNat 32 (leValue ((chunk.drop (4 * i)).take 4))

/-- The assignments to `s` at the end of `Transform`. -/
def combine (s first second : Registers Word) : Registers Word :=
  ⟨s.b + first.c + second.d, s.c + first.d + second.e, s.d + first.e + second.a,
    s.e + first.a + second.b, s.a + first.b + second.c⟩

def transform (s : Registers Word) (chunk : Bytes) : Registers Word :=
  let lines := roundCalls.foldl
    (fun lines calls => (calls.1.run (chunkWord chunk) lines.1,
      calls.2.run (chunkWord chunk) lines.2))
    (s, s)
  combine s lines.1 lines.2

/-! ## The lines of a transformation -/

namespace Registers

variable {α : Type}

theorem get_set (registers : Registers α) (value : α) (written read : Register) :
    (registers.set value written).get read =
      if read = written then value else registers.get read := by
  cases written <;> cases read <;> rfl

/-- The roles move by one place: the variable in the place of `e` is the next
one in the place of `a`. -/
def turn (registers : Registers α) : Registers α :=
  ⟨registers.e, registers.a, registers.b, registers.c, registers.d⟩

/-- The values in the places that the names say. -/
def view (line : Registers α) (names : Registers Register) : Registers α :=
  ⟨line.get names.a, line.get names.b, line.get names.c, line.get names.d, line.get names.e⟩

def Distinct (names : Registers Register) : Prop :=
  [names.a, names.b, names.c, names.d, names.e].Nodup

theorem Distinct.turn {names : Registers Register} (distinct : names.Distinct) :
    names.turn.Distinct := by
  unfold Distinct at distinct ⊢
  have perm : ([names.a, names.b, names.c, names.d] ++ [names.e]).Perm
      ([names.e] ++ [names.a, names.b, names.c, names.d]) := List.perm_append_comm
  exact perm.nodup distinct

end Registers

/-- A call in the places of its own variables, after which the roles move. -/
def step (function : RoundFunction) (x : Word) (r : Nat) (line : Registers Word) :
    Registers Word :=
  let result := function line.a line.b line.c line.d line.e x r
  ⟨line.e, result.1, line.b, result.2, line.d⟩

def RoundCall.names (call : RoundCall) : Registers Register :=
  ⟨call.a, call.b, call.c, call.d, call.e⟩

theorem RoundCall.view_run (w : Nat → Word) {call : RoundCall} (line : Registers Word)
    (distinct : call.names.Distinct) :
    (call.run w line).view call.names.turn =
      step call.function (w call.x) call.r (line.view call.names) := by
  simp only [Registers.Distinct, RoundCall.names, List.nodup_cons, List.mem_cons, not_or,
    List.not_mem_nil, not_false_eq_true, and_true] at distinct
  obtain ⟨⟨ab, ac, ad, ae⟩, ⟨bc, bd, be⟩, ⟨cd, ce⟩, de, -⟩ := distinct
  simp [RoundCall.run, Registers.view, Registers.turn, RoundCall.names, step,
    Registers.get_set, ac, bc, Ne.symm ab, Ne.symm ad, Ne.symm ae, Ne.symm cd, Ne.symm ce]

/-- The calls name the variables in the roles that the calls before them
leave, and the last one leaves the roles `last`. -/
def Chained (last : Registers Register) : Registers Register → List RoundCall → Prop
  | names, [] => names = last
  | names, call :: rest => call.names = names ∧ Chained last names.turn rest

instance (last : Registers Register) : ∀ names calls, Decidable (Chained last names calls)
  | names, [] => inferInstanceAs (Decidable (names = last))
  | names, call :: rest =>
      haveI := instDecidableChained last names.turn rest
      inferInstanceAs (Decidable (call.names = names ∧ Chained last names.turn rest))

theorem Chained.foldl_run (w : Nat → Word) {last names : Registers Register}
    {calls : List RoundCall} (chained : Chained last names calls) (distinct : names.Distinct)
    (line : Registers Word) :
    (calls.foldl (fun line call => call.run w line) line).view last =
      calls.foldl (fun line call => step call.function (w call.x) call.r line)
        (line.view names) := by
  induction calls generalizing names line with
  | nil =>
      cases chained
      rfl
  | cons call rest ih =>
      obtain ⟨rfl, tail⟩ := chained
      rw [List.foldl_cons, List.foldl_cons, ← call.view_run w line distinct]
      exact ih tail distinct.turn (call.run w line)

/-- The names of the variables in their own places. -/
def ownNames : Registers Register := ⟨.a, .b, .c, .d, .e⟩

theorem view_ownNames (line : Registers Word) : line.view ownNames = line := rfl

theorem roundCalls_chained :
    Chained ownNames ownNames (roundCalls.map Prod.fst) ∧
      Chained ownNames ownNames (roundCalls.map Prod.snd) := by
  decide +kernel

/-- `Transform` runs two lines that never meet. -/
theorem transform_eq_steps (s : Registers Word) (chunk : Bytes) :
    transform s chunk =
      combine s
        ((roundCalls.map Prod.fst).foldl
          (fun line call => step call.function (chunkWord chunk call.x) call.r line) s)
        ((roundCalls.map Prod.snd).foldl
          (fun line call => step call.function (chunkWord chunk call.x) call.r line) s) := by
  have lines (calls : List (RoundCall × RoundCall)) (first second : Registers Word) :
      calls.foldl (fun lines calls => (calls.1.run (chunkWord chunk) lines.1,
          calls.2.run (chunkWord chunk) lines.2)) (first, second) =
        ((calls.map Prod.fst).foldl (fun line call => call.run (chunkWord chunk) line) first,
          (calls.map Prod.snd).foldl (fun line call => call.run (chunkWord chunk) line)
            second) := by
    induction calls generalizing first second with
    | nil => rfl
    | cons calls rest ih => exact ih _ _
  have distinct : ownNames.Distinct := by
    unfold Registers.Distinct
    decide
  have first := roundCalls_chained.1.foldl_run (chunkWord chunk) distinct s
  have second := roundCalls_chained.2.foldl_run (chunkWord chunk) distinct s
  rw [view_ownNames, view_ownNames] at first second
  simp only [transform, lines, first, second]

/-! ## Buffering -/

/-- The array `buf`. -/
abbrev Buffer := { buf : Bytes // buf.length = 64 }

/-- `memcpy(buf + offset, data, len)`; what does not fit into the array is cut
off, but `Write` never copies that much. -/
def memcpy (buf : Buffer) (offset : Nat) (data : Bytes) : Buffer :=
  ⟨(buf.1.take offset ++ data ++ buf.1.drop (offset + data.length)).take 64, by
    have length := buf.2
    simp only [List.length_take, List.length_append, List.length_drop]
    omega⟩

end Ripemd160

open Ripemd160

structure CRIPEMD160 where
  s : Registers Word
  buf : Buffer
  bytes : UInt64

namespace CRIPEMD160

/-- The constructor, which leaves `buf` as it finds it. -/
def create (buf : Buffer) : CRIPEMD160 := ⟨initialState, buf, 0⟩

/-- The `while (end - data >= 64)` loop: the hasher and the bytes from `data`
to `end` after it. -/
def writeChunks (hasher : CRIPEMD160) (data : Bytes) : CRIPEMD160 × Bytes :=
  if data.length ≥ 64 then
    writeChunks { hasher with
        s := transform hasher.s (data.take 64), bytes := hasher.bytes + 64 } (data.drop 64)
  else (hasher, data)
termination_by data.length

/-- `Write` from the loop on. -/
def writeRest (hasher : CRIPEMD160) (bufsize : Nat) (data : Bytes) : CRIPEMD160 :=
  let (hasher, data) := hasher.writeChunks data
  if data.length > 0 then
    { hasher with
      buf := memcpy hasher.buf bufsize data
      bytes := hasher.bytes + UInt64.ofNat data.length }
  else hasher

def write (hasher : CRIPEMD160) (data : Bytes) : CRIPEMD160 :=
  let bufsize := (hasher.bytes % 64).toNat
  if bufsize ≠ 0 ∧ bufsize + data.length ≥ 64 then
    let buf := memcpy hasher.buf bufsize (data.take (64 - bufsize))
    writeRest ⟨transform hasher.s buf.1, buf, hasher.bytes + UInt64.ofNat (64 - bufsize)⟩ 0
      (data.drop (64 - bufsize))
  else hasher.writeRest bufsize data

/-- `static const unsigned char pad[64] = {0x80}`. -/
def pad : Bytes := 0x80 :: List.replicate 63 0

/-- `Finalize`: the 20 bytes of `hash`. -/
def finalize (hasher : CRIPEMD160) : Bytes :=
  let sizedesc := leBytes 8 (hasher.bytes <<< 3).toNat
  let padded := hasher.write (pad.take (1 + (119 - hasher.bytes.toNat % 64) % 64))
  let s := (padded.write sizedesc).s
  leBytes 4 s.a.toNat ++ leBytes 4 s.b.toNat ++ leBytes 4 s.c.toNat ++ leBytes 4 s.d.toNat ++
    leBytes 4 s.e.toNat

/-- The digest of a message that is written in pieces. -/
def digest (buf : Buffer) (pieces : List Bytes) : Bytes :=
  (pieces.foldl write (create buf)).finalize

/-! ## What a hasher has been given -/

/-- The hasher after the complete blocks `aligned` and a beginning `rest` of
another one. -/
structure Holds (hasher : CRIPEMD160) (aligned rest : Bytes) : Prop where
  aligned_dvd : 64 ∣ aligned.length
  rest_lt : rest.length < 64
  s_eq : hasher.s = absorb transform 64 initialState aligned
  buf_take : hasher.buf.1.take rest.length = rest
  bytes_eq : hasher.bytes = UInt64.ofNat (aligned.length + rest.length)

theorem create_holds (buf : Buffer) : (create buf).Holds [] [] where
  aligned_dvd := by simp
  rest_lt := by simp
  s_eq := (absorb_of_lt (by simp)).symm
  buf_take := rfl
  bytes_eq := rfl

theorem Holds.bufsize {hasher : CRIPEMD160} {aligned rest : Bytes}
    (holds : hasher.Holds aligned rest) : (hasher.bytes % 64).toNat = rest.length := by
  have remainder := Nat.mod_eq_of_lt holds.rest_lt
  have aligned_mod := Nat.mod_eq_zero_of_dvd holds.aligned_dvd
  rw [holds.bytes_eq, UInt64.toNat_mod, UInt64.toNat_ofNat']
  change (aligned.length + rest.length) % 2 ^ 64 % 64 = rest.length
  omega

theorem memcpy_take (buf : Buffer) {offset : Nat} {data : Bytes}
    (fits : offset + data.length ≤ 64) :
    (memcpy buf offset data).1.take (offset + data.length) = buf.1.take offset ++ data := by
  have length := buf.2
  have written : (buf.1.take offset ++ data).length = offset + data.length := by
    rw [List.length_append, List.length_take]
    omega
  rw [memcpy, List.take_take, Nat.min_eq_left fits, ← written, List.take_left']
  rfl

theorem writeChunks_eq (hasher : CRIPEMD160) (data : Bytes) :
    hasher.writeChunks data =
      ({ hasher with
          s := absorb transform 64 hasher.s data
          bytes := hasher.bytes + UInt64.ofNat (64 * (data.length / 64)) },
        data.drop (64 * (data.length / 64))) := by
  fun_induction writeChunks hasher data with
  | case1 hasher data full ih =>
      have quotient : data.length / 64 = (data.length - 64) / 64 + 1 := by omega
      have head : (data.take 64).length = 64 := by
        rw [List.length_take]
        omega
      have absorbed : absorb transform 64 hasher.s data =
          absorb transform 64 (transform hasher.s (data.take 64)) (data.drop 64) := by
        conv_lhs => rw [← List.take_append_drop 64 data]
        exact absorb_block_append head (by decide)
      rw [ih, absorbed, List.length_drop, List.drop_drop, quotient, Nat.mul_succ,
        Nat.add_comm (64 * _) 64, UInt64.ofNat_add, ← UInt64.add_assoc]
      rfl
  | case2 hasher data short =>
      have quotient : data.length / 64 = 0 := Nat.div_eq_of_lt (by omega)
      rw [quotient, absorb_of_lt (by omega), Nat.mul_zero, List.drop_zero]
      change (hasher, data) = ({ hasher with bytes := hasher.bytes + 0 }, data)
      rw [UInt64.add_zero]

/-- The last step of `Write` adds to the incomplete block. -/
theorem Holds.keep {hasher : CRIPEMD160} {aligned rest : Bytes}
    (holds : hasher.Holds aligned rest) {data : Bytes} (fits : rest.length + data.length < 64) :
    (if data.length > 0 then
        { hasher with
          buf := memcpy hasher.buf rest.length data
          bytes := hasher.bytes + UInt64.ofNat data.length }
      else hasher).Holds aligned (rest ++ data) := by
  split
  · exact
      { aligned_dvd := holds.aligned_dvd
        rest_lt := by rw [List.length_append]; exact fits
        s_eq := holds.s_eq
        buf_take := by
          rw [List.length_append, memcpy_take hasher.buf (by omega), holds.buf_take]
        bytes_eq := by
          rw [holds.bytes_eq, List.length_append, ← UInt64.ofNat_add, Nat.add_assoc] }
  case isFalse empty =>
    have nil : data = [] := List.eq_nil_of_length_eq_zero (by omega)
    rw [nil, List.append_nil]
    exact holds

/-- With an empty buffer the complete blocks are absorbed from the source. -/
theorem Holds.absorb_chunks {hasher : CRIPEMD160} {aligned : Bytes}
    (holds : hasher.Holds aligned []) {chunks data : Bytes} (chunks_dvd : 64 ∣ chunks.length)
    (short : data.length < 64) :
    CRIPEMD160.Holds
      { hasher with
        s := absorb transform 64 hasher.s (chunks ++ data)
        bytes := hasher.bytes + UInt64.ofNat chunks.length } (aligned ++ chunks) [] where
  aligned_dvd := by
    rw [List.length_append]
    exact Nat.dvd_add holds.aligned_dvd chunks_dvd
  rest_lt := by decide
  s_eq := by
    rw [absorb_append chunks_dvd (by decide), absorb_of_lt short, holds.s_eq,
      ← absorb_append holds.aligned_dvd (by decide)]
  buf_take := rfl
  bytes_eq := by
    rw [holds.bytes_eq, List.length_append, ← UInt64.ofNat_add]
    rfl

theorem Holds.writeRest_of_empty {hasher : CRIPEMD160} {aligned : Bytes}
    (holds : hasher.Holds aligned []) (data : Bytes) :
    (hasher.writeRest 0 data).Holds (aligned ++ data.take (64 * (data.length / 64)))
      (data.drop (64 * (data.length / 64))) := by
  have takeLength : (data.take (64 * (data.length / 64))).length = 64 * (data.length / 64) := by
    rw [List.length_take]
    omega
  have short : (data.drop (64 * (data.length / 64))).length < 64 := by
    rw [List.length_drop]
    omega
  have absorbed := holds.absorb_chunks (takeLength ▸ Nat.dvd_mul_right 64 _) short
  rw [List.take_append_drop, takeLength] at absorbed
  rw [writeRest, writeChunks_eq]
  exact absorbed.keep (by simpa using short)

theorem Holds.writeRest_of_lt {hasher : CRIPEMD160} {aligned rest : Bytes}
    (holds : hasher.Holds aligned rest) {data : Bytes} (fits : rest.length + data.length < 64) :
    (hasher.writeRest rest.length data).Holds aligned (rest ++ data) := by
  rw [writeRest, writeChunks, if_neg (by omega)]
  exact holds.keep fits

/-- The incomplete block is completed and absorbed from the buffer. -/
theorem Holds.fill {hasher : CRIPEMD160} {aligned rest : Bytes}
    (holds : hasher.Holds aligned rest) {head : Bytes} (complete : rest.length + head.length = 64) :
    CRIPEMD160.Holds
      ⟨transform hasher.s (memcpy hasher.buf rest.length head).1,
        memcpy hasher.buf rest.length head, hasher.bytes + UInt64.ofNat head.length⟩
      (aligned ++ (rest ++ head)) [] := by
  have blockLength : (rest ++ head).length = 64 := by rw [List.length_append, complete]
  have block : (memcpy hasher.buf rest.length head).1 = rest ++ head := by
    have copied := memcpy_take hasher.buf (Nat.le_of_eq complete)
    rw [complete, holds.buf_take] at copied
    rw [← copied, List.take_of_length_le (Nat.le_of_eq (memcpy hasher.buf rest.length head).2)]
  have absorbed : absorb transform 64 initialState (aligned ++ (rest ++ head)) =
      transform hasher.s (rest ++ head) := by
    rw [absorb_append holds.aligned_dvd (by decide), ← holds.s_eq,
      absorb_block blockLength (by decide)]
  exact
    { aligned_dvd := by
        rw [List.length_append, blockLength]
        exact Nat.dvd_add holds.aligned_dvd (Nat.dvd_refl 64)
      rest_lt := by decide
      s_eq := by rw [block, absorbed]
      buf_take := rfl
      bytes_eq := by
        rw [holds.bytes_eq, ← UInt64.ofNat_add, List.length_append, List.length_append,
          Nat.add_assoc]
        rfl }

/-- One call of `Write`. -/
theorem Holds.write {hasher : CRIPEMD160} {aligned rest : Bytes}
    (holds : hasher.Holds aligned rest) (data : Bytes) :
    ∃ aligned' rest', (hasher.write data).Holds aligned' rest' ∧
      aligned' ++ rest' = aligned ++ rest ++ data := by
  rw [CRIPEMD160.write, holds.bufsize]
  by_cases fill : rest.length ≠ 0 ∧ rest.length + data.length ≥ 64
  · have short := holds.rest_lt
    have headLength : (data.take (64 - rest.length)).length = 64 - rest.length := by
      rw [List.length_take]
      omega
    have complete : rest.length + (data.take (64 - rest.length)).length = 64 := by omega
    have emptied := holds.fill complete
    rw [headLength] at emptied
    rw [if_pos fill]
    refine ⟨_, _, emptied.writeRest_of_empty (data.drop (64 - rest.length)), ?_⟩
    simp only [List.append_assoc, List.take_append_drop]
  · rw [if_neg fill]
    by_cases empty : rest.length = 0
    · have nil : rest = [] := List.eq_nil_of_length_eq_zero empty
      subst nil
      refine ⟨_, _, holds.writeRest_of_empty data, ?_⟩
      rw [List.append_nil, List.append_assoc, List.take_append_drop]
    · refine ⟨_, _, holds.writeRest_of_lt (by omega), ?_⟩
      rw [List.append_assoc]

/-- Any number of calls of `Write`. -/
theorem Holds.write_pieces {hasher : CRIPEMD160} {aligned rest : Bytes}
    (holds : hasher.Holds aligned rest) (pieces : List Bytes) :
    ∃ aligned' rest', (pieces.foldl CRIPEMD160.write hasher).Holds aligned' rest' ∧
      aligned' ++ rest' = aligned ++ rest ++ pieces.flatten := by
  induction pieces generalizing hasher aligned rest with
  | nil => exact ⟨aligned, rest, holds, by simp⟩
  | cons piece pieces ih =>
      obtain ⟨aligned₁, rest₁, holds₁, joined₁⟩ := holds.write piece
      obtain ⟨aligned₂, rest₂, holds₂, joined₂⟩ := ih holds₁
      refine ⟨aligned₂, rest₂, holds₂, ?_⟩
      rw [joined₂, joined₁, List.flatten_cons, List.append_assoc]

theorem Holds.s_eq_of_dvd {hasher : CRIPEMD160} {aligned rest data : Bytes}
    (holds : hasher.Holds aligned rest) (joined : aligned ++ rest = data)
    (complete : 64 ∣ data.length) : hasher.s = absorb transform 64 initialState data := by
  have short := holds.rest_lt
  have aligned_dvd := holds.aligned_dvd
  have lengths : aligned.length + rest.length = data.length := by
    rw [← List.length_append, joined]
  have nil : rest = [] := List.eq_nil_of_length_eq_zero (by omega)
  rw [holds.s_eq, ← joined, nil, List.append_nil]

end CRIPEMD160

/-! ## The digest of a message -/

namespace Ripemd160

/-- A message with its padding: one bit, zeros, and the length in bits. -/
def padded (message : Bytes) : Bytes :=
  message ++ 0x80 :: List.replicate ((119 - message.length % 64) % 64) 0 ++
    leBytes 8 (8 * message.length)

theorem padded_length (message : Bytes) : 64 ∣ (padded message).length := by
  simp only [padded, List.length_append, List.length_cons, List.length_replicate,
    leBytes_length]
  omega

theorem padded_length_of_lt {message : Bytes} (short : message.length < 56) :
    (padded message).length = 64 := by
  simp only [padded, List.length_append, List.length_cons, List.length_replicate,
    leBytes_length]
  omega

def digestBytes (s : Registers Word) : Bytes :=
  leBytes 4 s.a.toNat ++ leBytes 4 s.b.toNat ++ leBytes 4 s.c.toNat ++ leBytes 4 s.d.toNat ++
    leBytes 4 s.e.toNat

end Ripemd160

/-- However a message is split, and whatever the buffer held before, the digest
is that of the padded message. -/
theorem CRIPEMD160.digest_eq (buf : Buffer) {pieces : List Bytes}
    (short : pieces.flatten.length < 2 ^ 61) :
    digest buf pieces =
      digestBytes (absorb transform 64 initialState (padded pieces.flatten)) := by
  obtain ⟨aligned, rest, holds, joined⟩ := (create_holds buf).write_pieces pieces
  rw [List.nil_append, List.nil_append] at joined
  have length : aligned.length + rest.length = pieces.flatten.length := by
    rw [← List.length_append, joined]
  have bytes : (pieces.foldl write (create buf)).bytes.toNat = pieces.flatten.length := by
    rw [holds.bytes_eq, UInt64.toNat_ofNat', length]
    omega
  have bits : ((pieces.foldl write (create buf)).bytes <<< 3).toNat =
      8 * pieces.flatten.length := by
    rw [UInt64.toNat_shiftLeft, bytes]
    change pieces.flatten.length <<< 3 % 2 ^ 64 = _
    rw [Nat.shiftLeft_eq]
    omega
  have padding (count : Nat) (bound : count < 64) :
      pad.take (1 + count) = 0x80 :: List.replicate count 0 := by
    rw [pad, Nat.add_comm, List.take_succ_cons, List.take_replicate]
    congr 2
    omega
  obtain ⟨aligned₁, rest₁, holds₁, joined₁⟩ :=
    holds.write (0x80 :: List.replicate ((119 - pieces.flatten.length % 64) % 64) 0)
  obtain ⟨aligned₂, rest₂, holds₂, joined₂⟩ :=
    holds₁.write (leBytes 8 (8 * pieces.flatten.length))
  rw [joined₁, joined] at joined₂
  have state := holds₂.s_eq_of_dvd joined₂ (padded_length pieces.flatten)
  unfold digest finalize
  simp only [bits, bytes, padding _ (Nat.mod_lt _ (by decide : 0 < 64)), state]
  rfl

end QuantyCoin
