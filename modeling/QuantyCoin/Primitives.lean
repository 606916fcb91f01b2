import QuantyCoin.ByteDecoder

/-!
# Exceptions and cryptographic primitives of the node

The node is Python code over a handful of cryptographic functions.  They are
parameters of the model: every statement holds for all choices of them, the
node's own being those of `hashlib`, `crypto/secp256k1.py` and the native
ML-DSA library.
-/

namespace QuantyCoin

open ByteDecoder

/-! ## Text -/

def hexDigit (digit : Nat) : Char :=
  if digit < 10 then Char.ofNat (48 + digit) else Char.ofNat (87 + digit)

/-- `data.hex()`. -/
def hex (data : Bytes) : String :=
  String.ofList (data.flatMap fun byte =>
    [hexDigit (byte.toNat / 16), hexDigit (byte.toNat % 16)])

/-- `data[::-1].hex()`, the display order of hashes. -/
def reversedHex (data : Bytes) : String := hex data.reverse

/-- The hexadecimal format of an integer, padded with zeros to a width. -/
def hexNat (width value : Nat) : String :=
  let digits := (Nat.toDigits 16 value)
  String.ofList (List.replicate (width - digits.length) '0' ++ digits)

/-- `repr(data)` of a byte string: printable characters as they are and the others
escaped, in double quotes if only single ones occur. -/
def bytesRepr (data : Bytes) : String :=
  let quote : UInt8 := if 0x27 ∈ data ∧ 0x22 ∉ data then 0x22 else 0x27
  let printed (byte : UInt8) : String := (Char.ofNat byte.toNat).toString
  let escaped (byte : UInt8) : String :=
    if byte = 0x5c ∨ byte = quote then printed 0x5c ++ printed byte
    else if byte = 0x09 then printed 0x5c ++ "t"
    else if byte = 0x0a then printed 0x5c ++ "n"
    else if byte = 0x0d then printed 0x5c ++ "r"
    else if 0x20 ≤ byte ∧ byte < 0x7f then printed byte
    else printed 0x5c ++ "x" ++ hexNat 2 byte.toNat
  "b" ++ printed quote ++ String.join (data.map escaped) ++ printed quote

/-! ## Exceptions -/

/-- The exceptions the modelled code raises, with their messages. -/
inductive PyException
  | valueError (message : String)
  | structError (message : String)
  | indexError (message : String)
  | zeroDivisionError (message : String)
  | runtimeError (message : String)
  | overflowError (message : String)
  | assertionError (message : String)
  | attributeError (message : String)
  /-- The message is the `repr` of the key. -/
  | keyError (message : String)
  deriving DecidableEq

/-- `str(e)`. -/
def PyException.message : PyException → String
  | .valueError message | .structError message | .indexError message
  | .zeroDivisionError message | .runtimeError message | .overflowError message
  | .assertionError message | .attributeError message | .keyError message => message

/-! ## Cryptographic functions -/

/-- The cryptographic functions the node calls. -/
structure Primitives where
  hash256 : Bytes → Bytes
  hash256_length : ∀ data, (hash256 data).length = 32
  sha256 : Bytes → Bytes
  hash160 : Bytes → Bytes
  /-- `hashlib.scrypt` with the salt and cost parameters of Lane B. -/
  scrypt : Bytes → Bytes
  ecdsaVerify : (msgHash pubkey : Bytes) → (r s : Nat) → Bool
  /-- `qty_dilithium_verify(sig, msg, ctx, pk) == 0`. -/
  dilithiumVerify : (signature message context publicKey : Bytes) → Bool

/-- `b'\x00' * 32`. -/
def zeroHash : Bytes := List.replicate 32 0

/-- Primitives whose double hash is known at finitely many arguments, enough to
execute the node on concrete blocks that carry no signatures.  Digests are
written as numbers in display order. -/
def Primitives.ofDigests (digests : List (Bytes × Nat)) : Primitives where
  hash256 data := leBytes 32 ((digests.lookup data).getD 1)
  hash256_length _ := leBytes_length 32 _
  sha256 _ := leBytes 32 1
  hash160 _ := leBytes 20 1
  scrypt _ := leBytes 32 1
  ecdsaVerify _ _ _ _ := false
  dilithiumVerify _ _ _ _ := false

theorem Primitives.ofDigests_hash256_ne_zeroHash {digests : List (Bytes × Nat)}
    (nonzero : ∀ entry ∈ digests, leBytes 32 entry.2 ≠ zeroHash) (data : Bytes) :
    (Primitives.ofDigests digests).hash256 data ≠ zeroHash := by
  simp only [Primitives.ofDigests]
  cases found : digests.lookup data with
  | none => decide
  | some digest =>
      obtain ⟨before, after, rfl, -⟩ := List.lookup_eq_some_iff.mp found
      exact nonzero (data, digest) (by simp)

/-! ## Merkle roots -/

/-- Hash consecutive pairs of a level of even length. -/
def hashPairs (hash256 : Bytes → Bytes) : List Bytes → List Bytes
  | first :: second :: rest => hash256 (first ++ second) :: hashPairs hash256 rest
  | _ => []

/-- The next level: an odd level first repeats its last element. -/
def nextLevel (hash256 : Bytes → Bytes) (level : List Bytes) : List Bytes :=
  hashPairs hash256
    (if level.length % 2 = 1 then level ++ level.getLast?.toList else level)

/-- The `while len(current_level) > 1` loop; a level is at most half as long,
rounded up, as the one below it, so the fuel never runs out. -/
def reduceLevels (hash256 : Bytes → Bytes) : Nat → List Bytes → Bytes
  | 0, level => level.headD []
  | fuel + 1, level =>
      if level.length ≤ 1 then level.headD []
      else reduceLevels hash256 fuel (nextLevel hash256 level)

/-- `compute_merkle_root`. -/
def computeMerkleRoot (hash256 : Bytes → Bytes) (hashes : List Bytes) : Bytes :=
  if hashes = [] then zeroHash else reduceLevels hash256 hashes.length hashes

end QuantyCoin
