import QuantyCoin.BlockCodec

/-!
# Payloads of the wire protocol

`network/protocol.py`: building and parsing the payloads of the handshake and
of inventories.  The text of the user agent stays undecoded, and the clock is
an argument.
-/

namespace QuantyCoin

open ByteDecoder Decoder

/-- The commands that `P2PManager` handles. -/
inductive Command
  | version
  | verack
  | getblocks
  | inv
  | getdata
  | block
  | tx
  deriving DecidableEq

/-- A message between its framing and its handler. -/
structure Message where
  command : Command
  payload : Bytes
  deriving DecidableEq

/-! ## Integers and single bytes -/

/-- `struct.pack('<i', height)`; heights are not negative. -/
def packHeight (height : Nat) : Except PyException Bytes :=
  if height < 2147483648 then .ok (packI32 (Int32.ofNat height))
  else
    .error (.structError "'i' format requires -2147483648 <= number <= 2147483647")

/-- `struct.pack('<q', value)`. -/
def packI64 (value : Int64) : Bytes := leBytes 8 value.toUInt64.toNat

def readI64 : Decoder PyException Int64 := do
  let value ← Decoder.fixed 8 (unpackError 8)
  pure (UInt64.ofNat value).toInt64

/-- `payload[offset]`. -/
def readByte : Decoder PyException UInt8 := fun data offset =>
  match data[offset]? with
  | none => .error (.indexError "index out of range")
  | some byte => .ok (byte, offset + 1)

theorem readByte_reads (byte : UInt8) : Reads readByte [byte] byte := by
  intro before after
  simp [readByte]

theorem readI64_reads (value : Int64) : Reads readI64 (packI64 value) value := by
  have fits : value.toUInt64.toNat < 256 ^ 8 := value.toUInt64.toNat_lt
  have back : (UInt64.ofNat value.toUInt64.toNat).toInt64 = value := by
    rw [UInt64.ofNat_toNat]
    rfl
  exact (Reads.fixed fits).bind_pure (by rw [back]; exact Reads.pure value)

theorem packHeight_eq_ok {height : Nat} {packed : Bytes} :
    packHeight height = .ok packed ↔
      height < 2147483648 ∧ packed = packI32 (Int32.ofNat height) := by
  rw [packHeight]
  split_ifs with inRange
  · rw [Except.ok.injEq, eq_comm]
    exact (and_iff_right inRange).symm
  · constructor
    · intro impossible
      cases impossible
    · rintro ⟨fits, -⟩
      exact (inRange fits).elim

/-! ## The version message -/

/-- `"/QuantyCoin:4.0.0/".encode('utf-8')`. -/
def defaultUserAgent : Bytes :=
  [0x2f, 0x51, 0x75, 0x61, 0x6e, 0x74, 0x79, 0x43, 0x6f, 0x69, 0x6e, 0x3a, 0x34, 0x2e,
    0x30, 0x2e, 0x30, 0x2f]

/-- `build_version_payload(best_height)` at a time. -/
def buildVersionPayload (bestHeight : Nat) (now : Int64) : Except PyException Bytes :=
  (packHeight bestHeight).map fun height =>
    packI32 70040 ++ (packU64 1 ++ (packI64 now ++
      (List.replicate 26 0 ++ (List.replicate 26 0 ++ (packU64 12345678 ++
        ([UInt8.ofNat defaultUserAgent.length] ++ (defaultUserAgent ++
          (height ++ [0x01]))))))))

structure VersionInfo where
  version : Int32
  services : Nat
  timestamp : Int64
  nonce : Nat
  userAgent : Bytes
  startHeight : Int32
  deriving DecidableEq

def readVersion : Decoder PyException VersionInfo := do
  let version ← readI32
  let services ← Decoder.fixed 8 (unpackError 8)
  let timestamp ← readI64
  let _ ← Decoder.slice 26
  let _ ← Decoder.slice 26
  let nonce ← Decoder.fixed 8 (unpackError 8)
  let uaLen ← readByte
  let userAgent ← Decoder.slice uaLen.toNat
  let startHeight ← readI32
  pure ⟨version, services, timestamp, nonce, userAgent, startHeight⟩

/-- `parse_version_payload`. -/
def parseVersionPayload (payload : Bytes) : Except PyException VersionInfo :=
  (readVersion payload 0).map Prod.fst

theorem readVersion_reads (height : Int32) (now : Int64) :
    Reads readVersion
      (packI32 70040 ++ (packU64 1 ++ (packI64 now ++
        (List.replicate 26 0 ++ (List.replicate 26 0 ++ (packU64 12345678 ++
          ([UInt8.ofNat defaultUserAgent.length] ++ (defaultUserAgent ++
            packI32 height))))))))
      ⟨70040, 1, now, 12345678, defaultUserAgent, height⟩ :=
  (readI32_reads 70040).bind ((Reads.fixed (by decide)).bind ((readI64_reads now).bind
    ((Reads.slice (by decide)).bind ((Reads.slice (by decide)).bind
      ((Reads.fixed (by decide)).bind ((readByte_reads _).bind
        ((Reads.slice (by decide)).bind
          ((readI32_reads height).bind_pure (Reads.pure _)))))))))

/-- What a peer reads out of a version message of this software. -/
def ownVersionInfo (height : Nat) (now : Int64) : VersionInfo :=
  ⟨70040, 1, now, 12345678, defaultUserAgent, Int32.ofNat height⟩

theorem ownVersionInfo_startHeight {height : Nat} (fits : height < 2147483648) (now : Int64) :
    (ownVersionInfo height now).startHeight.toInt = height :=
  Int32.toInt_ofNat_of_lt fits

theorem parseVersionPayload_build {bestHeight : Nat} {now : Int64} {payload : Bytes}
    (built : buildVersionPayload bestHeight now = .ok payload) :
    bestHeight < 2147483648 ∧
      parseVersionPayload payload = .ok (ownVersionInfo bestHeight now) := by
  rw [buildVersionPayload] at built
  cases packed : packHeight bestHeight with
  | error error => simp [packed, Except.map] at built
  | ok height =>
      obtain ⟨fits, rfl⟩ := packHeight_eq_ok.mp packed
      simp only [packed, Except.map, Except.ok.injEq] at built
      have read := readVersion_reads (Int32.ofNat bestHeight) now [] [0x01]
      simp only [List.nil_append, List.append_assoc, List.length_nil] at read
      refine ⟨fits, ?_⟩
      rw [parseVersionPayload, ← built, read]
      rfl

/-! ## Inventories -/

/-- A type and a hash. -/
abbrev InvItem := UInt32 × Bytes

def invTypeTx : UInt32 := 1
def invTypeBlock : UInt32 := 2

def packInvItem (item : InvItem) : Bytes := packU32 item.1 ++ item.2

/-- `build_inv_payload`: the number of items is a single byte. -/
def buildInvPayload (items : List InvItem) : Except PyException Bytes :=
  if items.length > 255 then .error (.valueError "bytes must be in range(0, 256)")
  else .ok ([UInt8.ofNat items.length] ++ items.flatMap packInvItem)

def readInvItem : Decoder PyException InvItem := do
  let invType ← readU32
  let invHash ← Decoder.slice 32
  pure (invType, invHash)

def readInv : Decoder PyException (List InvItem) := do
  let count ← readByte
  Decoder.times readInvItem count.toNat

/-- `parse_inv_payload`. -/
def parseInvPayload (payload : Bytes) : Except PyException (List InvItem) :=
  (readInv payload 0).map Prod.fst

theorem readInvItem_reads {item : InvItem} (length : item.2.length = 32) :
    Reads readInvItem (packInvItem item) item :=
  (readU32_reads item.1).bind ((Reads.slice length).bind_pure (Reads.pure _))

/-- Up to 255 items are read back as they were. -/
theorem parseInvPayload_build {items : List InvItem} (short : items.length ≤ 255)
    (lengths : ∀ item ∈ items, item.2.length = 32) :
    ∃ payload, buildInvPayload items = .ok payload ∧ parseInvPayload payload = .ok items := by
  refine ⟨_, if_neg (Nat.not_lt.mpr short), ?_⟩
  have count : (UInt8.ofNat items.length).toNat = items.length := by
    simp only [UInt8.toNat_ofNat']
    omega
  have all : Reads (times readInvItem items.length) (items.flatMap packInvItem)
      (items.map id) :=
    Reads.times fun item member => readInvItem_reads (lengths item member)
  rw [List.map_id] at all
  have whole : Reads readInv ([UInt8.ofNat items.length] ++ items.flatMap packInvItem)
      items :=
    (readByte_reads _).bind (by rw [count]; exact all)
  have read := whole [] []
  simp only [List.nil_append, List.append_nil, List.length_nil] at read
  rw [parseInvPayload, read]
  rfl

theorem packInvItems_length {items : List InvItem}
    (lengths : ∀ item ∈ items, item.2.length = 32) :
    (items.flatMap packInvItem).length = 36 * items.length := by
  induction items with
  | nil => rfl
  | cons item items ih =>
      have length := lengths item (by simp)
      have rest := ih fun other member => lengths other (by simp [member])
      rw [List.flatMap_cons, List.length_append, rest, packInvItem, List.length_append,
        length, packU32, leBytes_length, List.length_cons]
      omega

theorem buildInvPayload_length {items : List InvItem} {payload : Bytes}
    (built : buildInvPayload items = .ok payload)
    (lengths : ∀ item ∈ items, item.2.length = 32) :
    payload.length = 1 + 36 * items.length := by
  rw [buildInvPayload] at built
  split_ifs at built
  cases built
  rw [List.length_append, List.length_singleton, packInvItems_length lengths]

theorem buildInvPayload_of_long {items : List InvItem} (long : 255 < items.length) :
    buildInvPayload items = .error (.valueError "bytes must be in range(0, 256)") :=
  if_pos long

end QuantyCoin
