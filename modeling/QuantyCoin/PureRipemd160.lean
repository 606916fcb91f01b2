import QuantyCoin.Ripemd160
import QuantyCoin.Transaction
import QuantyCoin.TwosComplement

/-!
# The RIPEMD-160 fallback of the Python node

`_pure_ripemd160` from `crypto/hash.py`, which runs where OpenSSL does not
offer the digest: two lines of 80 steps driven by tables, on unbounded integers
that are masked to 32 bits.  Its right line rotates `CC` before the round
function sees it, which neither its left line nor the rounds of `CRIPEMD160`
do.  The two digests are equal when this makes no difference to the five
registers of the right line in any block.
-/

namespace QuantyCoin

open ByteDecoder BlockHashing Ripemd160 TwosComplement

namespace PureRipemd160

def tableK : List Nat := [0x00000000, 0x5A827999, 0x6ED9EBA1, 0x8F1BBCDC, 0xA953FD4E]

def tableKK : List Nat := [0x50A28BE6, 0x5C4DD124, 0x6D703EF3, 0x7A6D76E9, 0x00000000]

def tableR : List Nat := [
  0, 1, 2, 3, 4, 5, 6, 7, 8, 9, 10, 11, 12, 13, 14, 15,
  7, 4, 13, 1, 10, 6, 15, 3, 12, 0, 9, 5, 2, 14, 11, 8,
  3, 10, 14, 4, 9, 15, 8, 1, 2, 7, 0, 6, 13, 11, 5, 12,
  1, 9, 11, 10, 0, 8, 12, 4, 13, 3, 7, 15, 14, 5, 6, 2,
  4, 0, 5, 9, 7, 12, 2, 10, 14, 1, 3, 8, 11, 6, 15, 13]

def tableRR : List Nat := [
  5, 14, 7, 0, 9, 2, 11, 4, 13, 6, 15, 8, 1, 10, 3, 12,
  6, 11, 3, 7, 0, 13, 5, 10, 14, 15, 8, 12, 4, 9, 1, 2,
  15, 5, 1, 3, 7, 14, 6, 9, 11, 8, 12, 2, 10, 0, 4, 13,
  8, 6, 4, 1, 3, 11, 15, 0, 5, 12, 2, 13, 9, 7, 10, 14,
  12, 15, 10, 4, 1, 5, 8, 7, 6, 2, 13, 14, 0, 3, 9, 11]

def tableS : List Nat := [
  11, 14, 15, 12, 5, 8, 7, 9, 11, 13, 14, 15, 6, 7, 9, 8,
  7, 6, 8, 13, 11, 9, 7, 15, 7, 12, 15, 9, 11, 7, 13, 12,
  11, 13, 6, 7, 14, 9, 13, 15, 14, 8, 13, 6, 5, 12, 7, 5,
  11, 12, 14, 15, 14, 15, 9, 8, 9, 14, 5, 6, 8, 6, 5, 12,
  9, 15, 5, 11, 6, 8, 13, 12, 5, 12, 13, 14, 11, 8, 5, 6]

def tableSS : List Nat := [
  8, 9, 9, 11, 13, 15, 15, 5, 7, 7, 8, 11, 14, 14, 12, 6,
  9, 13, 15, 7, 12, 8, 9, 11, 7, 7, 12, 7, 6, 15, 13, 11,
  9, 7, 15, 11, 8, 6, 6, 14, 12, 13, 5, 14, 13, 13, 7, 5,
  15, 5, 8, 11, 14, 14, 6, 14, 6, 9, 12, 9, 12, 5, 15, 8,
  8, 5, 12, 9, 12, 5, 14, 6, 8, 13, 6, 5, 15, 13, 11, 11]

/-- `_rol`. -/
def rol (x : Int) (n : Nat) : Int :=
  Int.land (Int.lor (x <<< n) (x >>> (32 - n))) 0xFFFFFFFF

/-- `_f`. -/
def f (j : Nat) (x y z : Int) : Int :=
  if j = 0 then Int.xor (Int.xor x y) z
  else if j = 1 then Int.lor (Int.land x y) (Int.land (Int.lnot x) z)
  else if j = 2 then Int.xor (Int.lor x (Int.lnot y)) z
  else if j = 3 then Int.lor (Int.land x z) (Int.land y (Int.lnot z))
  else if j = 4 then Int.xor x (Int.lor y (Int.lnot z))
  else 0

/-- The assignments to `A` to `E` in the loop over `i`. -/
def leftStep (X : List Nat) (line : Registers Int) (i : Nat) : Registers Int :=
  let group := i / 16
  let T := Int.land (line.a + f group line.b line.c line.d + X.getD (tableR.getD i 0) 0 +
    tableK.getD group 0) 0xFFFFFFFF
  let T := Int.land (rol T (tableS.getD i 0) + line.e) 0xFFFFFFFF
  ⟨line.e, T, line.b, rol line.c 10, line.d⟩

/-- The assignments to `AA` to `EE` in the loop over `i`. -/
def rightStep (X : List Nat) (line : Registers Int) (i : Nat) : Registers Int :=
  let group := i / 16
  let groupR := 4 - group
  let TT := Int.land (line.a + f groupR line.b (rol line.c 10) line.d +
    X.getD (tableRR.getD i 0) 0 + tableKK.getD group 0) 0xFFFFFFFF
  let TT := Int.land (rol TT (tableSS.getD i 0) + line.e) 0xFFFFFFFF
  ⟨line.e, TT, line.b, rol line.c 10, line.d⟩

/-- `struct.unpack('<16I', chunk)`. -/
def unpackChunk (chunk : Bytes) : Except PyException (List Nat) :=
  if chunk.length = 64 then
    .ok ((List.range 16).map fun i => leValue ((chunk.drop (4 * i)).take 4))
  else .error (unpackError 64)

/-- The body of the loop over the chunks. -/
def processChunk (h : Registers Int) (chunk : Bytes) : Except PyException (Registers Int) := do
  let X ← unpackChunk chunk
  let lines := (List.range 80).foldl
    (fun lines i => (leftStep X lines.1 i, rightStep X lines.2 i)) (h, h)
  .ok ⟨Int.land (h.b + lines.1.c + lines.2.d) 0xFFFFFFFF,
    Int.land (h.c + lines.1.d + lines.2.e) 0xFFFFFFFF,
    Int.land (h.d + lines.1.e + lines.2.a) 0xFFFFFFFF,
    Int.land (h.e + lines.1.a + lines.2.b) 0xFFFFFFFF,
    Int.land (h.a + lines.1.b + lines.2.c) 0xFFFFFFFF⟩

/-- The `while (len(msg) % 64) != 56` loop; fewer than 64 zeros lead to the
next such length, so the fuel never runs out. -/
def appendZeros : Nat → Bytes → Bytes
  | 0, msg => msg
  | fuel + 1, msg => if msg.length % 64 = 56 then msg else appendZeros fuel (msg ++ [0x00])

/-- `struct.pack('<I', value)` of an integer. -/
def packWord (value : Int) : Except PyException Bytes :=
  if 0 ≤ value ∧ value < 2 ^ 32 then .ok (leBytes 4 value.toNat)
  else .error (.structError "'I' format requires 0 <= number <= 4294967295")

def packRegisters (h : Registers Int) : Except PyException Bytes := do
  let first ← packWord h.a
  let second ← packWord h.b
  let third ← packWord h.c
  let fourth ← packWord h.d
  let fifth ← packWord h.e
  .ok (first ++ second ++ third ++ fourth ++ fifth)

end PureRipemd160

open PureRipemd160

/-- `_pure_ripemd160`. -/
def pureRipemd160 (data : Bytes) : Except PyException Bytes :=
  let origLenBits := data.length * 8
  let msg := appendZeros 64 (data ++ [0x80])
  if origLenBits ≥ 2 ^ 64 then .error (.structError "argument out of range")
  else do
    let msg := msg ++ leBytes 8 origLenBits
    let h ← (List.range' 0 ((msg.length + 63) / 64) 64).foldlM
      (fun h offset => processChunk h ((msg.drop offset).take 64))
      ⟨0x67452301, 0xEFCDAB89, 0x98BADCFE, 0x10325476, 0xC3D2E1F0⟩
    packRegisters h

namespace PureRipemd160

/-! ## Steps on words -/

/-- The round functions by number. -/
def roundF : Nat → Word → Word → Word → Word
  | 0 => f1
  | 1 => f2
  | 2 => f3
  | 3 => f4
  | 4 => f5
  | _ => fun _ _ _ => 0

/-- A step of a line with the function `f` and the constant `k`. -/
def lineStep (f : Word → Word → Word → Word) (k x : Word) (r : Nat) (line : Registers Word) :
    Registers Word :=
  ⟨line.e, Ripemd160.rol (line.a + f line.b line.c line.d + x + k) r + line.e, line.b,
    Ripemd160.rol line.c 10, line.d⟩

def leftWordStep (w : Nat → Word) (line : Registers Word) (i : Nat) : Registers Word :=
  lineStep (roundF (i / 16)) (BitVec.ofNat 32 (tableK.getD (i / 16) 0))
    (w (tableR.getD i 0)) (tableS.getD i 0) line

/-- A step of the right line whose round function sees `CC` through `seen`. -/
def rightWordStep (seen : Word → Word) (w : Nat → Word) (line : Registers Word) (i : Nat) :
    Registers Word :=
  lineStep (fun x y z => roundF (4 - i / 16) x (seen y) z)
    (BitVec.ofNat 32 (tableKK.getD (i / 16) 0)) (w (tableRR.getD i 0)) (tableSS.getD i 0) line

/-- The right line of a block, whose round function sees `CC` through `seen`. -/
def rightLine (seen : Word → Word) (s : Registers Word) (chunk : Bytes) : Registers Word :=
  (List.range 80).foldl (rightWordStep seen (chunkWord chunk)) s

/-- A transformation whose right line sees `CC` through `seen`. -/
def compress (seen : Word → Word) (s : Registers Word) (chunk : Bytes) : Registers Word :=
  combine s ((List.range 80).foldl (leftWordStep (chunkWord chunk)) s) (rightLine seen s chunk)

/-- What the fallback's right line sees. -/
def rotated (x : Word) : Word := Ripemd160.rol x 10

/-- The right line of a block ends in the same registers whether or not its
round function sees `CC` rotated. -/
def RightLinesAgree (s : Registers Word) (chunk : Bytes) : Prop :=
  rightLine id s chunk = rightLine rotated s chunk

instance (s : Registers Word) (chunk : Bytes) : Decidable (RightLinesAgree s chunk) :=
  inferInstanceAs (Decidable (_ = _))

theorem rightLinesAgree_iff (s : Registers Word) (chunk : Bytes) :
    RightLinesAgree s chunk ↔ compress id s chunk = compress rotated s chunk := by
  unfold RightLinesAgree compress
  constructor
  · intro same
    rw [same]
  · intro same
    simp only [combine, Registers.mk.injEq, BitVec.add_right_inj] at same
    obtain ⟨d, e, a, b, c⟩ := same
    exact Registers.ext a b c d e

/-- The rounds of `CRIPEMD160` follow the tables of the fallback. -/
theorem roundCalls_eq_tables :
    (roundCalls.map Prod.fst).map (fun call => (call.function, call.x, call.r)) =
        (List.range 80).map (fun i => ([R11, R21, R31, R41, R51].getD (i / 16) R11,
          tableR.getD i 0, tableS.getD i 0)) ∧
      (roundCalls.map Prod.snd).map (fun call => (call.function, call.x, call.r)) =
        (List.range 80).map (fun i => ([R12, R22, R32, R42, R52].getD (i / 16) R12,
          tableRR.getD i 0, tableSS.getD i 0)) :=
  ⟨rfl, rfl⟩

theorem step_left {group : Nat} (inside : group < 5) (x : Word) (r : Nat)
    (line : Registers Word) :
    step ([R11, R21, R31, R41, R51].getD group R11) x r line =
      lineStep (roundF group) (BitVec.ofNat 32 (tableK.getD group 0)) x r line := by
  match group, inside with
  | 0, _ | 1, _ | 2, _ | 3, _ | 4, _ => rfl

theorem step_right {group : Nat} (inside : group < 5) (x : Word) (r : Nat)
    (line : Registers Word) :
    step ([R12, R22, R32, R42, R52].getD group R12) x r line =
      lineStep (roundF (4 - group)) (BitVec.ofNat 32 (tableKK.getD group 0)) x r line := by
  match group, inside with
  | 0, _ | 1, _ | 2, _ | 3, _ | 4, _ => rfl

theorem foldl_step_eq {calls : List RoundCall} {rows : List (RoundFunction × Nat × Nat)}
    (same : calls.map (fun call => (call.function, call.x, call.r)) = rows)
    (w : Nat → Word) (s : Registers Word) :
    calls.foldl (fun line call => step call.function (w call.x) call.r line) s =
      rows.foldl (fun line row => step row.1 (w row.2.1) row.2.2 line) s := by
  rw [← same, List.foldl_map]

theorem leftCalls_eq (w : Nat → Word) (s : Registers Word) :
    (roundCalls.map Prod.fst).foldl
        (fun line call => step call.function (w call.x) call.r line) s =
      (List.range 80).foldl (leftWordStep w) s := by
  rw [foldl_step_eq roundCalls_eq_tables.1, List.foldl_map]
  apply List.foldl_ext
  intro line i inside
  have group : i / 16 < 5 := by
    have bound := List.mem_range.mp inside
    omega
  exact step_left group _ _ line

theorem rightCalls_eq (w : Nat → Word) (s : Registers Word) :
    (roundCalls.map Prod.snd).foldl
        (fun line call => step call.function (w call.x) call.r line) s =
      (List.range 80).foldl (rightWordStep id w) s := by
  rw [foldl_step_eq roundCalls_eq_tables.2, List.foldl_map]
  apply List.foldl_ext
  intro line i inside
  have group : i / 16 < 5 := by
    have bound := List.mem_range.mp inside
    omega
  exact step_right group _ _ line

/-- `CRIPEMD160` sees `CC` as it is. -/
theorem transform_eq_compress : transform = compress id := by
  funext s chunk
  have steps := transform_eq_steps s chunk
  rw [leftCalls_eq, rightCalls_eq] at steps
  exact steps

/-! ## Steps on unbounded integers -/

/-- Words as integers. -/
def lift (line : Registers Word) : Registers Int :=
  ⟨line.a.toNat, line.b.toNat, line.c.toNat, line.d.toNat, line.e.toNat⟩

theorem mask_eq (x : Int) : Int.land x 0xFFFFFFFF = (BitVec.ofInt 32 x).toNat :=
  land_mask x (by rfl)

theorem rol_toNat (x : Word) (n : Nat) : rol x.toNat n = (Ripemd160.rol x n).toNat := by
  rw [rol, mask_eq, ofInt_lor, ofInt_shiftLeft, ofInt_shiftRight, Ripemd160.rol]

theorem ofInt_f (j : Nat) (x y z : Word) :
    BitVec.ofInt 32 (f j x.toNat y.toNat z.toNat) = roundF j x y z := by
  match j with
  | 0 => simp [f, roundF, f1]
  | 1 => simp [f, roundF, f2]
  | 2 => simp [f, roundF, f3]
  | 3 => simp [f, roundF, f4]
  | 4 => simp [f, roundF, f5]
  | j + 5 => simp [f, roundF]

/-- One step of a line on integers, as both lines of the fallback make it. -/
theorem step_lift (fValue : Int) (word constant : Nat) (r : Nat) (line : Registers Word) :
    Int.land (rol (Int.land (line.a.toNat + fValue + word + constant) 0xFFFFFFFF) r +
        line.e.toNat) 0xFFFFFFFF =
      (Ripemd160.rol (line.a + BitVec.ofInt 32 fValue + BitVec.ofNat 32 word +
        BitVec.ofNat 32 constant) r + line.e).toNat := by
  rw [mask_eq, mask_eq, rol_toNat, BitVec.ofInt_add, BitVec.ofInt_add, BitVec.ofInt_add,
    BitVec.ofInt_add, ofInt_toNat, ofInt_toNat, ofInt_toNat, BitVec.ofInt_natCast,
    BitVec.ofInt_natCast]

section Lines

variable {X : List Nat} {w : Nat → Word} (words : ∀ i, BitVec.ofNat 32 (X.getD i 0) = w i)

include words

theorem leftStep_lift (line : Registers Word) (i : Nat) :
    leftStep X (lift line) i = lift (leftWordStep w line i) := by
  simp only [leftStep, lift, step_lift, ofInt_f, words, rol_toNat, leftWordStep, lineStep]

theorem rightStep_lift (line : Registers Word) (i : Nat) :
    rightStep X (lift line) i = lift (rightWordStep rotated w line i) := by
  simp only [rightStep, lift, rol_toNat, step_lift, ofInt_f, words, rightWordStep, lineStep,
    rotated]

/-- The loop over `i`. -/
theorem steps_lift (steps : List Nat) (first second : Registers Word) :
    steps.foldl (fun lines i => (leftStep X lines.1 i, rightStep X lines.2 i))
        (lift first, lift second) =
      (lift (steps.foldl (leftWordStep w) first),
        lift (steps.foldl (rightWordStep rotated w) second)) := by
  induction steps generalizing first second with
  | nil => rfl
  | cons i steps ih =>
      simp only [List.foldl_cons, leftStep_lift words, rightStep_lift words, ih]

end Lines

theorem unpackChunk_words {chunk : Bytes} (length : chunk.length = 64) (i : Nat) :
    BitVec.ofNat 32 (((List.range 16).map
      fun i => leValue ((chunk.drop (4 * i)).take 4)).getD i 0) = chunkWord chunk i := by
  rw [chunkWord]
  congr 1
  rcases Nat.lt_or_ge i 16 with inside | outside
  · simp [List.getD_eq_getElem?_getD, inside]
  · have empty : chunk.drop (4 * i) = [] := List.drop_eq_nil_of_le (by omega)
    simp [List.getD_eq_getElem?_getD, outside, empty, leValue]

/-- The body of the loop over the chunks. -/
theorem processChunk_lift (h : Registers Word) {chunk : Bytes} (length : chunk.length = 64) :
    processChunk (lift h) chunk = .ok (lift (compress rotated h chunk)) := by
  have lines := steps_lift (unpackChunk_words length) (List.range 80) h h
  simp only [processChunk, unpackChunk, if_pos length, bind, Except.bind, lines]
  simp only [lift, mask_eq, BitVec.ofInt_add, ofInt_toNat, compress, combine, rightLine]

/-! ## Padding and chunks -/

theorem appendZeros_eq {fuel : Nat} {msg : Bytes} {count : Nat} (enough : count < fuel)
    (reached : (msg.length + count) % 64 = 56)
    (notBefore : ∀ earlier < count, (msg.length + earlier) % 64 ≠ 56) :
    appendZeros fuel msg = msg ++ List.replicate count 0 := by
  induction count generalizing fuel msg with
  | zero =>
      obtain ⟨fuel, rfl⟩ := Nat.exists_eq_succ_of_ne_zero (by omega : fuel ≠ 0)
      rw [appendZeros, if_pos (by simpa using reached)]
      simp
  | succ count ih =>
      obtain ⟨fuel, rfl⟩ := Nat.exists_eq_succ_of_ne_zero (by omega : fuel ≠ 0)
      have notYet : msg.length % 64 ≠ 56 := notBefore 0 (by omega)
      have tail : appendZeros fuel (msg ++ [0x00]) =
          msg ++ [0x00] ++ List.replicate count 0 := by
        apply ih (by omega)
        · rw [List.length_append, List.length_singleton]
          omega
        · intro earlier before
          have := notBefore (earlier + 1) (by omega)
          rw [List.length_append, List.length_singleton]
          omega
      rw [appendZeros, if_neg notYet, tail, List.append_assoc, List.replicate_succ]
      rfl

/-- The message as the fallback pads it. -/
theorem appendZeros_padded (data : Bytes) :
    appendZeros 64 (data ++ [0x80]) ++ leBytes 8 (data.length * 8) = padded data := by
  rw [padded, @appendZeros_eq _ _ ((119 - data.length % 64) % 64), Nat.mul_comm]
  · simp
  · exact Nat.mod_lt _ (by decide)
  · rw [List.length_append, List.length_singleton]
    omega
  · intro earlier before
    rw [List.length_append, List.length_singleton]
    omega

/-- The loop over the chunks of a message of complete blocks. -/
theorem chunks_lift (blocks : List Bytes) (lengths : ∀ block ∈ blocks, block.length = 64)
    (h : Registers Word) :
    blocks.foldlM processChunk (lift h) =
      .ok (lift (blocks.foldl (compress rotated) h)) := by
  induction blocks generalizing h with
  | nil => rfl
  | cons block blocks ih =>
      rw [List.foldlM_cons, processChunk_lift h (lengths block (by simp))]
      exact ih (fun other member => lengths other (by simp [member])) _

theorem offsets_foldlM {msg : Bytes} (aligned : 64 ∣ msg.length) (h : Registers Int) :
    (List.range' 0 ((msg.length + 63) / 64) 64).foldlM
        (fun h offset => processChunk h ((msg.drop offset).take 64)) h =
      (blocks 64 msg).foldlM processChunk h := by
  have count : (msg.length + 63) / 64 = msg.length / 64 := by omega
  have offsets : List.range' 0 (msg.length / 64) 64 =
      (List.range (msg.length / 64)).map (64 * ·) :=
    List.ext_getElem (by simp) (by simp)
  rw [count, offsets, blocks, List.foldlM_map, List.foldlM_map]

theorem packWord_toNat (word : Word) : packWord word.toNat = .ok (leBytes 4 word.toNat) := by
  have bound := word.isLt
  rw [packWord, if_pos (by omega), Int.toNat_natCast]

theorem packRegisters_lift (h : Registers Word) : packRegisters (lift h) = .ok (digestBytes h) := by
  simp only [packRegisters, lift, packWord_toNat]
  rfl

end PureRipemd160

/-- The fallback hashes the padded message with a right line that sees `CC`
rotated. -/
theorem pureRipemd160_eq {data : Bytes} (short : data.length < 2 ^ 61) :
    pureRipemd160 data =
      .ok (digestBytes
        (absorb (PureRipemd160.compress rotated) 64 initialState (padded data))) := by
  have start : (⟨0x67452301, 0xEFCDAB89, 0x98BADCFE, 0x10325476, 0xC3D2E1F0⟩ : Registers Int) =
      lift initialState := rfl
  have loop := chunks_lift (blocks 64 (padded data))
    (fun block member => length_of_mem_blocks member) initialState
  simp only [pureRipemd160, if_neg (by omega : ¬ data.length * 8 ≥ 2 ^ 64), appendZeros_padded,
    start, offsets_foldlM (padded_length data), loop, bind, Except.bind, packRegisters_lift,
    absorb]

namespace Ripemd160

theorem digestBytes_injective {first second : Registers Word}
    (same : digestBytes first = digestBytes second) : first = second := by
  have word {x y : Word} (bytes : leBytes 4 x.toNat = leBytes 4 y.toNat) : x = y := by
    have values := congrArg leValue bytes
    rw [leValue_leBytes x.isLt, leValue_leBytes y.isLt] at values
    exact BitVec.eq_of_toNat_eq values
  unfold digestBytes at same
  obtain ⟨same, e⟩ := List.append_inj' same (by simp)
  obtain ⟨same, d⟩ := List.append_inj' same (by simp)
  obtain ⟨same, c⟩ := List.append_inj' same (by simp)
  obtain ⟨a, b⟩ := List.append_inj' same (by simp)
  exact Registers.ext (word a) (word b) (word c) (word d) (word e)

end Ripemd160

/-- The right lines agree in every block of a padded message, from the state
that `CRIPEMD160` has reached there. -/
def RightLinesAgreeAlong (blocks : List Bytes) : Prop :=
  Along transform RightLinesAgree initialState blocks

theorem rightLinesAgree_iff_transform (s : Registers Word) (block : Bytes) :
    RightLinesAgree s block ↔ transform s block = PureRipemd160.compress rotated s block := by
  rw [transform_eq_compress]
  exact rightLinesAgree_iff s block

theorem digests_eq_iff_states (buf : Buffer) {pieces : List Bytes}
    (short : pieces.flatten.length < 2 ^ 61) :
    pureRipemd160 pieces.flatten = .ok (CRIPEMD160.digest buf pieces) ↔
      (blocks 64 (padded pieces.flatten)).foldl transform initialState =
        (blocks 64 (padded pieces.flatten)).foldl (PureRipemd160.compress rotated)
          initialState := by
  rw [pureRipemd160_eq short, CRIPEMD160.digest_eq buf short, Except.ok.injEq]
  constructor
  · intro same
    exact (digestBytes_injective same).symm
  · intro same
    exact congrArg digestBytes same.symm

/-- Messages of one block. -/
theorem digests_eq_iff_of_lt (buf : Buffer) {pieces : List Bytes}
    (oneBlock : pieces.flatten.length < 56) :
    pureRipemd160 pieces.flatten = .ok (CRIPEMD160.digest buf pieces) ↔
      RightLinesAgree initialState (padded pieces.flatten) := by
  rw [digests_eq_iff_states buf (by omega),
    blocks_eq_singleton (padded_length_of_lt oneBlock) (by decide)]
  exact (rightLinesAgree_iff_transform initialState (padded pieces.flatten)).symm

/-- The fallback computes the digest of `CRIPEMD160`, for every split of the
message, when the rotation of `CC` makes no difference in any block; when it
makes none before the last block, in particular for a message of one block,
only then. -/
theorem pureRipemd160_eq_digest {message : Bytes} {pieces : List Bytes} (buf : Buffer)
    (short : message.length < 2 ^ 61) (split : pieces.flatten = message) :
    (RightLinesAgreeAlong (blocks 64 (padded message)) →
      pureRipemd160 message = .ok (CRIPEMD160.digest buf pieces)) ∧
    (RightLinesAgreeAlong (blocks 64 (padded message)).dropLast →
      (pureRipemd160 message = .ok (CRIPEMD160.digest buf pieces) ↔
        RightLinesAgreeAlong (blocks 64 (padded message)))) ∧
    (message.length < 56 →
      (pureRipemd160 message = .ok (CRIPEMD160.digest buf pieces) ↔
        RightLinesAgree initialState (padded message))) := by
  subst split
  refine ⟨?_, ?_, digests_eq_iff_of_lt buf⟩
  · intro along
    exact (digests_eq_iff_states buf short).mpr
      (foldl_eq_of_along rightLinesAgree_iff_transform along)
  · intro before
    rw [digests_eq_iff_states buf short]
    exact foldl_eq_iff_along rightLinesAgree_iff_transform before

/-- A hasher whose buffer starts with zeros. -/
def zeroBuffer : Buffer := ⟨List.replicate 64 0, List.length_replicate⟩

/-- A message of 32 bytes, as `hash160` hashes them, in two pieces. -/
example :
    [zeroHash.take 10, zeroHash.drop 10].flatten = zeroHash ∧
      (pureRipemd160 zeroHash =
          .ok (CRIPEMD160.digest zeroBuffer [zeroHash.take 10, zeroHash.drop 10]) ↔
        RightLinesAgree initialState (padded zeroHash)) ∧
      ¬ RightLinesAgree initialState (padded zeroHash) :=
  ⟨by decide,
    (pureRipemd160_eq_digest zeroBuffer (by decide) (by decide)).2.2 (by decide),
    by decide +kernel⟩

/-- The digests of the empty message. -/
theorem emptyMessage_digests :
    CRIPEMD160.digest zeroBuffer [] =
        [0x9c, 0x11, 0x85, 0xa5, 0xc5, 0xe9, 0xfc, 0x54, 0x61, 0x28, 0x08, 0x97, 0x7e, 0xe8,
          0xf5, 0x48, 0xb2, 0x25, 0x8d, 0x31] ∧
      pureRipemd160 [] =
        .ok [0xcc, 0x58, 0xac, 0x65, 0xb1, 0x8d, 0x67, 0xf1, 0x84, 0xcf, 0x33, 0x06, 0x1f,
          0xa0, 0x5b, 0xe3, 0x7a, 0x79, 0x6e, 0x64] ∧
      ¬ ∀ (message : Bytes) (pieces : List Bytes) (buf : Buffer), message.length < 2 ^ 61 →
        pieces.flatten = message →
        pureRipemd160 message = .ok (CRIPEMD160.digest buf pieces) := by
  have native : CRIPEMD160.digest zeroBuffer [] =
      [0x9c, 0x11, 0x85, 0xa5, 0xc5, 0xe9, 0xfc, 0x54, 0x61, 0x28, 0x08, 0x97, 0x7e, 0xe8,
        0xf5, 0x48, 0xb2, 0x25, 0x8d, 0x31] := by
    rw [CRIPEMD160.digest_eq zeroBuffer (by decide), transform_eq_compress]
    decide +kernel
  have fallback : pureRipemd160 [] =
      .ok [0xcc, 0x58, 0xac, 0x65, 0xb1, 0x8d, 0x67, 0xf1, 0x84, 0xcf, 0x33, 0x06, 0x1f,
        0xa0, 0x5b, 0xe3, 0x7a, 0x79, 0x6e, 0x64] := by
    rw [pureRipemd160_eq (by decide)]
    decide +kernel
  refine ⟨native, fallback, ?_⟩
  intro claim
  have same := claim [] [] zeroBuffer (by decide) rfl
  rw [native, fallback] at same
  exact absurd same (by decide)

/-! ## Hashes of public keys -/

/-- `ripemd160`, given the digest of OpenSSL where it offers one. -/
def ripemd160 (openssl : Option (Bytes → Bytes)) (data : Bytes) : Except PyException Bytes :=
  match openssl with
  | some digest => .ok (digest data)
  | none => pureRipemd160 data

/-- `hash160`. -/
def hash160 (sha256 : Bytes → Bytes) (openssl : Option (Bytes → Bytes)) (data : Bytes) :
    Except PyException Bytes :=
  ripemd160 openssl (sha256 data)

/-- A node with the digest of `CRIPEMD160` and one with the fallback derive the
same key hash exactly when the right lines agree on the one block of the inner
hash. -/
theorem hash160_backend_iff {sha256 : Bytes → Bytes}
    (sha256_length : ∀ data, (sha256 data).length = 32) (buf : Buffer) (data : Bytes) :
    hash160 sha256 none data =
        hash160 sha256 (some fun message => CRIPEMD160.digest buf [message]) data ↔
      RightLinesAgree initialState (padded (sha256 data)) := by
  have split : [sha256 data].flatten = sha256 data := List.append_nil _
  have short : [sha256 data].flatten.length < 56 := by
    rw [split, sha256_length]
    decide
  have equal := digests_eq_iff_of_lt buf short
  rw [split] at equal
  exact equal

end QuantyCoin
