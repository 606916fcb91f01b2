import Mathlib.Data.ZMod.Basic
import QuantyCoin.InputSignature

/-!
# Elliptic curve arithmetic

The point arithmetic of `crypto/secp256k1.py` on integer coordinates, `None`
being the point at infinity, and the public key of a private one.
-/

namespace QuantyCoin

open ByteDecoder

namespace Secp256k1

/-- `_P`. -/
def P : Nat := 0xFFFFFFFFFFFFFFFFFFFFFFFFFFFFFFFFFFFFFFFFFFFFFFFFFFFFFFFEFFFFFC2F

/-- `_A`. -/
def A : Int := 0

/-- `_B`. -/
def B : Int := 7

/-- `_N`. -/
def N : Nat := 0xFFFFFFFFFFFFFFFFFFFFFFFFFFFFFFFEBAAEDCE6AF48A03BBFD25E8CD0364141

def Gx : Int := 0x79BE667EF9DCBBAC55A06295CE870B07029BFCDB2DCE28D959F2815B16F81798
def Gy : Int := 0x483ADA7726A3C4655DA4FBFC0E1108A8FD17B448A68554199C47D08FFB10D4B8

/-- `_G`. -/
def G : Int × Int := (Gx, Gy)

/-- The `while r != 0` loop of `_mod_inverse`, returning `prev_x`.  The remainders
decrease, so the fuel never runs out. -/
def euclidLoop : Nat → Int → Int → Int → Int → Int
  | 0, _, _, prevX, _ => prevX
  | fuel + 1, prevR, r, prevX, x =>
      if r = 0 then prevX
      else
        let q := prevR / r
        euclidLoop fuel r (prevR - q * r) x (prevX - q * x)

/-- `_mod_inverse`. -/
def modInverse (a : Int) (m : Nat) : Int :=
  let a := if a < 0 then (a % m + m) % m else a
  let prevX := euclidLoop (m + 1) a m 1 0
  (prevX % m + m) % m

/-- `_point_add`. -/
def pointAdd : Option (Int × Int) → Option (Int × Int) → Option (Int × Int)
  | none, p2 => p2
  | some p1, none => some p1
  | some (x1, y1), some (x2, y2) =>
      if x1 = x2 ∧ y1 ≠ y2 then none
      else
        let lam :=
          if x1 = x2 then (3 * x1 * x1 + A) * modInverse (2 * y1) P % P
          else (y2 - y1) * modInverse (x2 - x1) P % P
        let x3 := (lam * lam - x1 - x2) % P
        let y3 := (lam * (x1 - x3) - y1) % P
        some (x3, y3)

/-- The `while k > 0` loop of `_point_mul`. -/
def pointMulLoop : Nat → Nat → Option (Int × Int) → Option (Int × Int) → Option (Int × Int)
  | 0, _, res, _ => res
  | fuel + 1, k, res, addend =>
      if k = 0 then res
      else
        pointMulLoop fuel (k / 2) (if k % 2 = 1 then pointAdd res addend else res)
          (pointAdd addend addend)

/-- `_point_mul`: every round halves the scalar. -/
def pointMul (k : Nat) (p : Int × Int) : Option (Int × Int) :=
  let k := k % N
  if k = 0 then none else pointMulLoop (k.log2 + 1) k none (some p)

/-- `value.to_bytes(width, 'big')` of a number that fits. -/
def toBytesBig (width value : Nat) : Bytes := (leBytes width value).reverse

theorem toBytesBig_length (width value : Nat) : (toBytesBig width value).length = width := by
  rw [toBytesBig, List.length_reverse, leBytes_length]

theorem beValue_toBytesBig {width value : Nat} (fits : value < 256 ^ width) :
    beValue (toBytesBig width value) = value := by
  rw [beValue, toBytesBig, List.reverse_reverse, leValue_leBytes fits]

/-- `b'\x02' if (y % 2 == 0) else b'\x03'`. -/
def parityPrefix (y : Int) : UInt8 := if y % 2 = 0 then 0x02 else 0x03

def privkeyToPubkey (privkeyBytes : Bytes) (compressed : Bool) : Except PyException Bytes :=
  if privkeyBytes.length ≠ 32 then
    .error (.valueError "Private key must be exactly 32 bytes")
  else
    let privNum := beValue privkeyBytes
    if privNum ≤ 0 ∨ privNum ≥ N then
      .error (.valueError "Private key scalar out of valid range (1 .. N-1)")
    else
      match pointMul privNum G with
      | none => .error (.assertionError "")
      | some (x, y) =>
          if compressed then .ok (parityPrefix y :: toBytesBig 32 x.toNat)
          else .ok (0x04 :: (toBytesBig 32 x.toNat ++ toBytesBig 32 y.toNat))

/-! ## Modular inverses -/

/-- The remainders stay multiples of the number, and their divisor stays. -/
theorem euclidLoop_mul {m fuel : Nat} {a : ZMod m} {prevR r prevX x : Int}
    (prevNonneg : 0 ≤ prevR) (nonneg : 0 ≤ r) (enough : r < fuel)
    (prevEq : (prevR : ZMod m) = prevX * a) (eq : (r : ZMod m) = x * a)
    (coprime : Int.gcd prevR r = 1) :
    (euclidLoop fuel prevR r prevX x : ZMod m) * a = 1 := by
  induction fuel generalizing prevR r prevX x with
  | zero => omega
  | succ fuel ih =>
      rw [euclidLoop]
      split_ifs with done
      · have unit : prevR = 1 := by
          rw [done, Int.gcd_zero_right] at coprime
          omega
        rw [← prevEq, unit, Int.cast_one]
      · have remainder : prevR - prevR / r * r = prevR % r := by
          rw [Int.emod_def, Int.mul_comm]
        have positive : 0 < r := lt_of_le_of_ne nonneg (Ne.symm done)
        have smaller : prevR % r < r := Int.emod_lt_of_pos _ positive
        dsimp only
        rw [remainder]
        apply ih nonneg (Int.emod_nonneg _ done) (by omega) eq
        · rw [← remainder]
          push_cast
          rw [prevEq, eq]
          ring
        · rw [Int.gcd_comm, Int.gcd_emod, coprime]

theorem cast_emod_add_emod {m : Nat} (a : Int) :
    (((a % m + m) % m : Int) : ZMod m) = a := by
  rw [ZMod.intCast_mod, Int.cast_add, ZMod.intCast_mod, Int.cast_natCast, ZMod.natCast_self,
    add_zero]

theorem modInverse_mul {a : Int} {m : Nat} (positive : 0 < m) (coprime : Int.gcd a m = 1) :
    (modInverse a m : ZMod m) * a = 1 := by
  have loop {a : Int} (nonneg : 0 ≤ a) (coprime : Int.gcd a m = 1) :
      (euclidLoop (m + 1) a m 1 0 : ZMod m) * a = 1 := by
    apply euclidLoop_mul nonneg (Int.natCast_nonneg m) (by omega) _ _ coprime
    · rw [Int.cast_one, one_mul]
    · rw [Int.cast_natCast, ZMod.natCast_self, Int.cast_zero, zero_mul]
  rw [modInverse, cast_emod_add_emod]
  split_ifs with negative
  · rw [← cast_emod_add_emod a]
    apply loop (Int.emod_nonneg _ (by omega))
    rw [Int.gcd_emod, Int.gcd_add_self_left, Int.gcd_emod, coprime]
  · exact loop (by omega) coprime

end Secp256k1

end QuantyCoin
