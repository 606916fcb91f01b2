import QuantyCoin.Transaction

/-!
# Blocks

Headers, proof of work, the block format and the stateless block checks of
`core/block.py`.
-/

namespace QuantyCoin

open ByteDecoder

structure BlockHeader where
  version : Int32
  prevBlock : Bytes
  merkleRoot : Bytes
  timestamp : UInt32
  bits : UInt32
  nonce : UInt32
  deriving DecidableEq

structure Block where
  header : BlockHeader
  transactions : List Transaction
  deriving DecidableEq

namespace BlockHeader

/-- `(self.version >> 16) & 0xFFFF`, the mining lane. -/
def powType (header : BlockHeader) : Nat :=
  (header.version.toInt / 2 ^ 16 % 2 ^ 16).toNat

def serialize (header : BlockHeader) : Bytes :=
  packI32 header.version ++ (header.prevBlock ++ (header.merkleRoot ++
    (packU32 header.timestamp ++ (packU32 header.bits ++ packU32 header.nonce))))

/-- The block identifier. -/
def hash (prim : Primitives) (header : BlockHeader) : Bytes :=
  prim.hash256 header.serialize

/-- The hash compared with the target, by lane. -/
def powHash (prim : Primitives) (header : BlockHeader) : Bytes :=
  if header.powType = powTypeGeneralPurpose then prim.scrypt header.serialize
  else header.hash prim

/-- The compact target decoder of `verify_pow`, which checks nothing. -/
def getTarget (header : BlockHeader) : Nat :=
  let exponent := header.bits.toNat >>> 24
  let coefficient := header.bits.toNat &&& 0x00FFFFFF
  if exponent ≤ 3 then coefficient >>> (8 * (3 - exponent))
  else coefficient <<< (8 * (exponent - 3))

/-- `int.from_bytes(self.pow_hash[::-1], 'big') <= target`. -/
def verifyPow (prim : Primitives) (header : BlockHeader) : Bool :=
  leValue (header.powHash prim) ≤ header.getTarget

end BlockHeader

/-- No header hashes to the parent hash that genesis names. -/
def Primitives.HashNonzero (prim : Primitives) : Prop :=
  ∀ header : BlockHeader, header.hash prim ≠ zeroHash

def readHeaderFields : Decoder PyException BlockHeader := do
  let version ← readI32
  let prevBlock ← Decoder.slice 32
  let merkleRoot ← Decoder.slice 32
  let timestamp ← readU32
  let bits ← readU32
  let nonce ← readU32
  pure ⟨version, prevBlock, merkleRoot, timestamp, bits, nonce⟩

/-- `BlockHeader.deserialize`, which reads nothing from short data. -/
def readBlockHeader : Decoder PyException BlockHeader := fun data offset =>
  if (data.drop offset).length < 80 then
    .error (.valueError "Data too short for BlockHeader")
  else readHeaderFields data offset

def readBlock : Decoder PyException Block := do
  let header ← readBlockHeader
  let txCount ← readVarint
  let transactions ← Decoder.times (Decoder.onRest Transaction.deserialize) txCount
  pure ⟨header, transactions⟩

namespace Block

def hash (prim : Primitives) (block : Block) : Bytes := block.header.hash prim

def calculateMerkleRoot (prim : Primitives) (block : Block) : Bytes :=
  computeMerkleRoot prim.hash256 (block.transactions.map (Transaction.txid prim))

def verifyMerkleRoot (prim : Primitives) (block : Block) : Bool :=
  block.calculateMerkleRoot prim = block.header.merkleRoot

def serialize (block : Block) : Bytes :=
  block.header.serialize ++ (encodeVarint block.transactions.length ++
    block.transactions.flatMap fun tx => tx.serialize true)

/-- `Block.deserialize`: the block and the number of bytes read. -/
def deserialize (data : Bytes) : Except PyException (Block × Nat) :=
  readBlock data 0

/-- The index and message of the first transaction that is structurally
invalid. -/
def findInvalidTransaction : Nat → List Transaction → Option (Nat × String)
  | _, [] => none
  | index, tx :: rest =>
      match tx.validateStructure with
      | (true, _) => findInvalidTransaction (index + 1) rest
      | (false, message) => some (index, message)

/-- `Block.validate_structure`. -/
def validateStructure (prim : Primitives) (block : Block) : Bool × String :=
  if !block.header.verifyPow prim then (false, "Invalid Proof-of-Work")
  else
    match block.transactions with
    | [] => (false, "Block has no transactions")
    | coinbase :: rest =>
        if !coinbase.isCoinbase then (false, "First transaction is not coinbase")
        else
          match rest.findIdx? Transaction.isCoinbase with
          | some index =>
              (false, "Transaction " ++ toString (index + 1) ++
                " is an illegal additional coinbase")
          | none =>
              match findInvalidTransaction 0 block.transactions with
              | some (index, message) =>
                  (false, "Transaction " ++ toString index ++
                    " structural validation failed: " ++ message)
              | none =>
                  if !block.verifyMerkleRoot prim then (false, "Merkle root mismatch")
                  else if block.serialize.length > 32 * 1024 * 1024 then
                    (false, "Block size exceeds 32 MB limit")
                  else (true, "Valid")

theorem findInvalidTransaction_eq_none {index : Nat} {transactions : List Transaction} :
    findInvalidTransaction index transactions = none ↔
      ∀ tx ∈ transactions, tx.validateStructure.1 = true := by
  induction transactions generalizing index with
  | nil => simp [findInvalidTransaction]
  | cons tx rest ih =>
      rcases valid : tx.validateStructure with ⟨result, message⟩
      cases result <;> simp [findInvalidTransaction, valid, ih]

/-- What a structurally valid block satisfies. -/
structure Structured (prim : Primitives) (block : Block) : Prop where
  pow : block.header.verifyPow prim = true
  coinbase_first : ∃ coinbase rest, block.transactions = coinbase :: rest ∧
    coinbase.isCoinbase = true ∧ ∀ tx ∈ rest, tx.isCoinbase = false
  transactions : ∀ tx ∈ block.transactions, tx.validateStructure.1 = true
  merkle : block.verifyMerkleRoot prim = true
  size : block.serialize.length ≤ 32 * 1024 * 1024

theorem validateStructure_eq_true {prim : Primitives} {block : Block} :
    (block.validateStructure prim).1 = true ↔ block.Structured prim := by
  constructor
  · intro valid
    unfold validateStructure at valid
    split at valid
    · cases valid
    rename_i pow
    split at valid
    · cases valid
    rename_i coinbase rest listed
    split at valid
    · cases valid
    rename_i first
    split at valid
    · cases valid
    rename_i noOther
    split at valid
    · cases valid
    rename_i noInvalid
    split at valid
    · cases valid
    rename_i merkle
    split at valid
    · cases valid
    rename_i size
    refine ⟨by simpa using pow, ⟨coinbase, rest, listed, by simpa using first, ?_⟩,
      findInvalidTransaction_eq_none.mp noInvalid, by simpa using merkle, by omega⟩
    simpa [List.findIdx?_eq_none_iff] using noOther
  · rintro ⟨pow, ⟨coinbase, rest, listed, first, others⟩, transactions, merkle, size⟩
    have noOther : rest.findIdx? Transaction.isCoinbase = none := by
      simpa [List.findIdx?_eq_none_iff] using others
    have noInvalid : findInvalidTransaction 0 (coinbase :: rest) = none := by
      rw [findInvalidTransaction_eq_none, ← listed]
      exact transactions
    simp [validateStructure, pow, listed, first, noOther, noInvalid, merkle,
      Nat.not_lt.mpr size]

end Block

end QuantyCoin
