import Mathlib.Data.Int.Bitwise
import Mathlib.Tactic.Linarith

/-!
# Words inside unbounded integers

A language with unbounded integers computes on machine words by masking: the
bits of an integer below the width are those of a word, and the rest is cut
off from time to time.  A negative integer has infinitely many leading ones.
`BitVec.ofInt` reads the word off an integer and commutes with every operation
that does not move bits downwards.
-/

namespace TwosComplement

variable {w : Nat}

@[simp]
theorem getElem_ofInt (x : Int) {i : Nat} (inside : i < w) :
    (BitVec.ofInt w x)[i] = x.testBit i := by
  cases x with
  | ofNat n =>
      change (BitVec.ofInt w (n : Int))[i] = n.testBit i
      rw [BitVec.ofInt_natCast, ← BitVec.getLsbD_eq_getElem, BitVec.getLsbD_ofNat,
        decide_eq_true inside, Bool.true_and]
  | negSucc n =>
      change (BitVec.ofInt w (Int.negSucc n))[i] = !n.testBit i
      rw [BitVec.ofInt_negSucc_eq_not_ofNat, BitVec.getElem_not, ← BitVec.getLsbD_eq_getElem,
        BitVec.getLsbD_ofNat, decide_eq_true inside, Bool.true_and]

@[simp]
theorem ofInt_land (x y : Int) :
    BitVec.ofInt w (Int.land x y) = BitVec.ofInt w x &&& BitVec.ofInt w y := by
  ext i inside
  simp [Int.testBit_land]

@[simp]
theorem ofInt_lor (x y : Int) :
    BitVec.ofInt w (Int.lor x y) = BitVec.ofInt w x ||| BitVec.ofInt w y := by
  ext i inside
  simp [Int.testBit_lor]

@[simp]
theorem ofInt_xor (x y : Int) :
    BitVec.ofInt w (Int.xor x y) = BitVec.ofInt w x ^^^ BitVec.ofInt w y := by
  ext i inside
  simp [Int.testBit_lxor]

@[simp]
theorem ofInt_lnot (x : Int) : BitVec.ofInt w (Int.lnot x) = ~~~BitVec.ofInt w x := by
  ext i inside
  simp [Int.testBit_lnot]

@[simp]
theorem ofInt_toNat (word : BitVec w) : BitVec.ofInt w (word.toNat : Int) = word := by
  rw [BitVec.ofInt_natCast, BitVec.ofNat_toNat, BitVec.setWidth_eq]

@[simp]
theorem ofInt_shiftLeft (word : BitVec w) (n : Nat) :
    BitVec.ofInt w ((word.toNat : Int) <<< n) = word <<< n := by
  have value : (word.toNat : Int) <<< n = ((word.toNat <<< n : Nat) : Int) := by
    rw [Int.shiftLeft_eq, Nat.shiftLeft_eq]
    push_cast
    rfl
  apply BitVec.eq_of_toNat_eq
  rw [value, BitVec.ofInt_natCast, BitVec.toNat_ofNat, BitVec.toNat_shiftLeft]

@[simp]
theorem ofInt_shiftRight (word : BitVec w) (n : Nat) :
    BitVec.ofInt w ((word.toNat : Int) >>> n) = word >>> n := by
  have value : (word.toNat : Int) >>> n = ((word.toNat >>> n : Nat) : Int) := rfl
  rw [value, ← BitVec.toNat_ushiftRight, ofInt_toNat]

/-- Masking reads a word off an integer. -/
theorem land_mask (x : Int) {mask : Nat} (allOnes : mask = 2 ^ w - 1) :
    Int.land x mask = (BitVec.ofInt w x).toNat := by
  subst mask
  cases x with
  | ofNat n =>
      change ((n &&& (2 ^ w - 1) : Nat) : Int) = (BitVec.ofInt w (n : Int)).toNat
      rw [BitVec.ofInt_natCast, BitVec.toNat_ofNat, Nat.and_two_pow_sub_one_eq_mod]
  | negSucc n =>
      change ((Nat.ldiff (2 ^ w - 1) n : Nat) : Int) = (BitVec.ofInt w (Int.negSucc n)).toNat
      congr 1
      apply Nat.eq_of_testBit_eq
      intro i
      rw [BitVec.ofInt_negSucc_eq_not_ofNat, BitVec.testBit_toNat, BitVec.getLsbD_not,
        BitVec.getLsbD_ofNat, Nat.testBit_ldiff, Nat.testBit_two_pow_sub_one]
      cases decide (i < w) <;> simp

end TwosComplement
