import QuantyCoin.ConsensusParameters

/-!
# Transactions

The data model, binary format and stateless checks of `core/transaction.py`.
Fields that are packed with a fixed-width format code have the corresponding
fixed-width type, and an output carries the monetary range its constructor
enforces.
-/

namespace QuantyCoin

open ByteDecoder

/-- A transaction output is named by the id of its transaction and its
index. -/
abbrev Outpoint := Bytes × Nat

structure TxIn where
  prevTxid : Bytes
  prevVout : UInt32
  scriptSig : Bytes
  sequence : UInt32
  witness : List Bytes
  deriving DecidableEq

/-- `TxOut.__init__` raises unless the value is in the monetary range. -/
structure TxOut where
  value : Nat
  scriptPubkey : Bytes
  value_le : value ≤ maxMoneySatoshis
  deriving DecidableEq

structure Transaction where
  version : Int32
  vin : List TxIn
  vout : List TxOut
  locktime : UInt32
  deriving DecidableEq

/-- `TxOut(value, script_pubkey)`. -/
def TxOut.new (value : Nat) (scriptPubkey : Bytes) : Except PyException TxOut :=
  if inRange : value ≤ maxMoneySatoshis then
    .ok ⟨value, scriptPubkey, inRange⟩
  else
    .error (.valueError
      ("TxOut value " ++ toString value ++
        " out of consensus monetary range [0, " ++ toString maxMoneySatoshis ++ "]"))

namespace TxIn

/-- `(inp.prev_txid, inp.prev_vout)`. -/
def outpoint (inp : TxIn) : Outpoint := (inp.prevTxid, inp.prevVout.toNat)

def isCoinbase (inp : TxIn) : Bool :=
  inp.prevTxid = zeroHash && inp.prevVout = 0xFFFFFFFF

end TxIn

namespace Transaction

def hasWitness (tx : Transaction) : Bool :=
  tx.vin.any fun inp => !inp.witness.isEmpty

def isCoinbase (tx : Transaction) : Bool :=
  match tx.vin with
  | [inp] => inp.isCoinbase
  | _ => false

/-- `sum(out.value for out in tx.vout)`. -/
def totalOut (tx : Transaction) : Nat := (tx.vout.map TxOut.value).sum

end Transaction

/-! ## Serialization -/

/-- `struct.pack('<I', value)`. -/
def packU32 (value : UInt32) : Bytes := leBytes 4 value.toNat

/-- `struct.pack('<i', value)`. -/
def packI32 (value : Int32) : Bytes := leBytes 4 value.toUInt32.toNat

/-- `struct.pack('<Q', value)`. -/
def packU64 (value : Nat) : Bytes := leBytes 8 value

/-- `_encode_varint`.  It only receives lengths, which in Python stay below
`2 ^ 63`. -/
def encodeVarint (value : Nat) : Bytes :=
  if value < 0xFD then [UInt8.ofNat value]
  else if value ≤ 0xFFFF then 0xFD :: leBytes 2 value
  else if value ≤ 0xFFFFFFFF then 0xFE :: leBytes 4 value
  else 0xFF :: leBytes 8 value

/-- A byte string behind its length. -/
def encodeBytes (data : Bytes) : Bytes := encodeVarint data.length ++ data

def TxIn.serialize (inp : TxIn) : Bytes :=
  inp.prevTxid ++ (packU32 inp.prevVout ++
    (encodeBytes inp.scriptSig ++ packU32 inp.sequence))

def TxOut.serialize (out : TxOut) : Bytes :=
  packU64 out.value ++ encodeBytes out.scriptPubkey

/-- The witness stack of one input, as it stands behind the outputs. -/
def TxIn.serializeWitness (inp : TxIn) : Bytes :=
  encodeVarint inp.witness.length ++ inp.witness.flatMap encodeBytes

def Transaction.serialize (tx : Transaction) (includeWitness : Bool) : Bytes :=
  let useWitness := includeWitness && tx.hasWitness
  packI32 tx.version ++
    ((if useWitness then [0x00, 0x01] else []) ++
      (encodeVarint tx.vin.length ++
        (tx.vin.flatMap TxIn.serialize ++
          (encodeVarint tx.vout.length ++
            (tx.vout.flatMap TxOut.serialize ++
              ((if useWitness then tx.vin.flatMap TxIn.serializeWitness else []) ++
                packU32 tx.locktime))))))

/-- The transaction hash without witnesses. -/
def Transaction.txid (prim : Primitives) (tx : Transaction) : Bytes :=
  prim.hash256 (tx.serialize false)

/-! ## Deserialization -/

def unpackError (width : Nat) : PyException :=
  .structError ("unpack requires a buffer of " ++ toString width ++ " bytes")

/-- `struct.unpack` of one unsigned integer. -/
def unpack (width : Nat) (data : Bytes) : Except PyException Nat :=
  if data.length = width then .ok (leValue data) else .error (unpackError width)

/-- `_decode_varint`: the value and the number of bytes it takes. -/
def decodeVarint (data : Bytes) : Except PyException (Nat × Nat) :=
  match data with
  | [] => .error (.valueError "Buffer empty for varint")
  | first :: rest =>
      if first < 0xFD then .ok (first.toNat, 1)
      else if first = 0xFD then (unpack 2 (rest.take 2)).map fun value => (value, 3)
      else if first = 0xFE then (unpack 4 (rest.take 4)).map fun value => (value, 5)
      else (unpack 8 (rest.take 8)).map fun value => (value, 9)

def readVarint : Decoder PyException Nat := Decoder.onRest decodeVarint

def readU32 : Decoder PyException UInt32 := do
  let value ← Decoder.fixed 4 (unpackError 4)
  pure (UInt32.ofNat value)

def readI32 : Decoder PyException Int32 := do
  let value ← Decoder.fixed 4 (unpackError 4)
  pure (UInt32.ofNat value).toInt32

/-- A length and a slice of that length, which the end of the data may
shorten. -/
def readBytes : Decoder PyException Bytes := do
  let length ← readVarint
  Decoder.slice length

def readTxIn : Decoder PyException TxIn := do
  let prevTxid ← Decoder.slice 32
  let prevVout ← readU32
  let scriptSig ← readBytes
  let sequence ← readU32
  pure ⟨prevTxid, prevVout, scriptSig, sequence, []⟩

def readTxOut : Decoder PyException TxOut := do
  let value ← Decoder.fixed 8 (unpackError 8)
  let scriptPubkey ← readBytes
  Decoder.lift (TxOut.new value scriptPubkey)

/-- `inp.witness = witness` for the stack read next. -/
def readWitness (inp : TxIn) : Decoder PyException TxIn := do
  let witCount ← readVarint
  let witness ← Decoder.times readBytes witCount
  pure { inp with witness := witness }

/-- The loop over the witness stacks, present only behind the marker. -/
def readWitnesses (hasWitness : Bool) (vin : List TxIn) :
    Decoder PyException (List TxIn) :=
  if hasWitness then Decoder.each readWitness vin else pure vin

def readTransaction : Decoder PyException Transaction := do
  let version ← readI32
  let marker ← Decoder.peek 2
  let hasWitness := decide (marker = [0x00, 0x01])
  let _ ← Decoder.slice (if hasWitness then 2 else 0)
  let vinCount ← readVarint
  let vin ← Decoder.times readTxIn vinCount
  let voutCount ← readVarint
  let vout ← Decoder.times readTxOut voutCount
  let vin ← readWitnesses hasWitness vin
  let locktime ← readU32
  pure ⟨version, vin, vout, locktime⟩

/-- `Transaction.deserialize`: the transaction and the number of bytes read. -/
def Transaction.deserialize (data : Bytes) : Except PyException (Transaction × Nat) :=
  readTransaction data 0

/-! ## Structural validation -/

/-- The output loop of `validate_structure`.  Values cannot be negative
here, so the first of its three tests is left out. -/
def checkOutputs : Nat → Nat → List TxOut → Option String
  | _, _, [] => none
  | index, totalOut, out :: rest =>
      if out.value > maxMoneySatoshis then
        some ("Output " ++ toString index ++ " exceeds MAX_MONEY_SATOSHIS: " ++
          toString out.value)
      else if totalOut + out.value > maxMoneySatoshis then
        some "Total transaction output value exceeds MAX_MONEY_SATOSHIS"
      else checkOutputs (index + 1) (totalOut + out.value) rest

/-- The index of the first input that repeats an earlier outpoint. -/
def findDuplicateInput : Nat → List Outpoint → List TxIn → Option Nat
  | _, _, [] => none
  | index, seenInputs, inp :: rest =>
      if inp.outpoint ∈ seenInputs then some index
      else findDuplicateInput (index + 1) (inp.outpoint :: seenInputs) rest

/-- The last check of `validate_structure`: script length of a coinbase, no
coinbase input elsewhere. -/
def checkCoinbaseStructure (tx : Transaction) : Option String :=
  if tx.isCoinbase then
    match tx.vin with
    | [inp] =>
        if inp.scriptSig.length < 2 ∨ inp.scriptSig.length > 100 then
          some ("Coinbase scriptSig length " ++ toString inp.scriptSig.length ++
            " out of bounds [2, 100]")
        else none
    | _ => some "Coinbase transaction must have exactly 1 input"
  else
    (tx.vin.findIdx? TxIn.isCoinbase).map fun index =>
      "Non-coinbase transaction contains coinbase input at index " ++ toString index

/-- `Transaction.validate_structure`. -/
def Transaction.validateStructure (tx : Transaction) : Bool × String :=
  if tx.vin = [] then (false, "Transaction has no inputs")
  else if tx.vout = [] then (false, "Transaction has no outputs")
  else if (tx.serialize true).length > 1000000 then
    (false, "Transaction size exceeds 1,000,000 bytes limit")
  else
    match checkOutputs 0 0 tx.vout with
    | some message => (false, message)
    | none =>
        match findDuplicateInput 0 [] tx.vin with
        | some index => (false, "Duplicate input detected at index " ++ toString index)
        | none =>
            match checkCoinbaseStructure tx with
            | some message => (false, message)
            | none => (true, "Valid")

theorem Transaction.vin_ne_nil_of_valid {tx : Transaction}
    (valid : tx.validateStructure.1 = true) : tx.vin ≠ [] := by
  intro empty
  simp [Transaction.validateStructure, empty] at valid

end QuantyCoin
