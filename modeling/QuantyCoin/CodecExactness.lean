import QuantyCoin.BlockCodec
import QuantyCoin.DecoderExactness

/-!
# Prefix-exact and canonical decoding

The decoders of `core/transaction.py` and `core/block.py` with the points they
are lenient at as parameters: how a length is read, whether a slice may be cut
short, and which transactions may carry the witness marker.  Python's choice
gives back the decoders of the node.  A policy that refuses short slices reads
everything the node reads, so nothing accepted was cut; a policy that refuses
redundant forms accepts exactly the byte strings that serialization writes.
-/

namespace QuantyCoin

open ByteDecoder Decoder

/-! ## Reading policies -/

structure ReadPolicy where
  varint : Decoder PyException Nat
  slice : Nat → Decoder PyException Bytes
  /-- Whether a transaction may stand behind the witness marker. -/
  marked : Transaction → Bool

namespace ReadPolicy

def readBytes (policy : ReadPolicy) : Decoder PyException Bytes := do
  let length ← policy.varint
  policy.slice length

def readTxIn (policy : ReadPolicy) : Decoder PyException TxIn := do
  let prevTxid ← policy.slice 32
  let prevVout ← readU32
  let scriptSig ← policy.readBytes
  let sequence ← readU32
  pure ⟨prevTxid, prevVout, scriptSig, sequence, []⟩

def readTxOut (policy : ReadPolicy) : Decoder PyException TxOut := do
  let value ← Decoder.fixed 8 (unpackError 8)
  let scriptPubkey ← policy.readBytes
  Decoder.lift (TxOut.new value scriptPubkey)

def readWitness (policy : ReadPolicy) (inp : TxIn) : Decoder PyException TxIn := do
  let witCount ← policy.varint
  let witness ← Decoder.times policy.readBytes witCount
  pure { inp with witness := witness }

def readWitnesses (policy : ReadPolicy) (hasWitness : Bool) (vin : List TxIn) :
    Decoder PyException (List TxIn) :=
  if hasWitness then Decoder.each policy.readWitness vin else pure vin

/-- Everything behind the version and the marker. -/
def readContents (policy : ReadPolicy) (version : Int32) (hasWitness : Bool) :
    Decoder PyException Transaction := do
  let vinCount ← policy.varint
  let vin ← Decoder.times policy.readTxIn vinCount
  let voutCount ← policy.varint
  let vout ← Decoder.times policy.readTxOut voutCount
  let vin ← policy.readWitnesses hasWitness vin
  let locktime ← readU32
  pure ⟨version, vin, vout, locktime⟩

/-- A transaction behind the marker must be allowed to stand there. -/
def checkMarker (policy : ReadPolicy) (hasWitness : Bool) (tx : Transaction) :
    Except PyException Transaction :=
  if hasWitness && !policy.marked tx then
    .error (.valueError "Witness marker without witness")
  else .ok tx

def readBehindVersion (policy : ReadPolicy) (version : Int32) :
    Decoder PyException Transaction := do
  let marker ← Decoder.peek 2
  let hasWitness := decide (marker = [0x00, 0x01])
  let _ ← policy.slice (if hasWitness then 2 else 0)
  let tx ← policy.readContents version hasWitness
  Decoder.lift (policy.checkMarker hasWitness tx)

def readTransaction (policy : ReadPolicy) : Decoder PyException Transaction := do
  let version ← readI32
  policy.readBehindVersion version

def readHeaderFields (policy : ReadPolicy) : Decoder PyException BlockHeader := do
  let version ← readI32
  let prevBlock ← policy.slice 32
  let merkleRoot ← policy.slice 32
  let timestamp ← readU32
  let bits ← readU32
  let nonce ← readU32
  pure ⟨version, prevBlock, merkleRoot, timestamp, bits, nonce⟩

def readBlockHeader (policy : ReadPolicy) : Decoder PyException BlockHeader :=
  fun data offset =>
    if (data.drop offset).length < 80 then
      .error (.valueError "Data too short for BlockHeader")
    else policy.readHeaderFields data offset

def readBlock (policy : ReadPolicy) : Decoder PyException Block := do
  let header ← policy.readBlockHeader
  let txCount ← policy.varint
  let transactions ← Decoder.times
    (Decoder.onRest fun rest => policy.readTransaction rest 0) txCount
  pure ⟨header, transactions⟩

/-- Python's slices are cut at the end of the data, and nothing is asked of
lengths and markers. -/
def python : ReadPolicy := ⟨readVarint, Decoder.slice, fun _ => true⟩

theorem python_readTransaction : python.readTransaction = QuantyCoin.readTransaction := by
  have unchecked : ∀ hasWitness tx, python.checkMarker hasWitness tx = .ok tx := by
    intro hasWitness tx
    simp [checkMarker, python]
  simp only [readTransaction, readBehindVersion, readContents, unchecked, bind_assoc]
  rfl

theorem python_readBlock : python.readBlock = QuantyCoin.readBlock := by
  simp only [readBlock, python_readTransaction]
  rfl

end ReadPolicy

/-! ## Lengths -/

/-- How many bytes follow the first one of a variable-length integer. -/
def varintWidth (first : UInt8) : Nat :=
  if first < 0xFD then 0 else if first = 0xFD then 2 else if first = 0xFE then 4 else 8

theorem unpack_eq_ok {width value : Nat} {data : Bytes} :
    unpack width data = .ok value ↔ data.length = width ∧ value = leValue data := by
  rw [unpack]
  split_ifs with exact
  · simp [exact, eq_comm]
  · simp [exact]

theorem decodeVarint_cons_eq_ok {first : UInt8} {rest : Bytes} {value used : Nat} :
    decodeVarint (first :: rest) = .ok (value, used) ↔
      (rest.take (varintWidth first)).length = varintWidth first ∧
        value = (if first < 0xFD then first.toNat
          else leValue (rest.take (varintWidth first))) ∧
        used = varintWidth first + 1 := by
  have wide : ∀ width, ((unpack width (rest.take width)).map fun value => (value, width + 1)) =
      .ok (value, used) ↔ (rest.take width).length = width ∧
        value = leValue (rest.take width) ∧ used = width + 1 := by
    intro width
    cases unpacked : unpack width (rest.take width) with
    | error error =>
        have refused : ¬ (rest.take width).length = width := by
          intro exact
          rw [unpack, if_pos exact] at unpacked
          cases unpacked
        constructor
        · intro impossible
          cases impossible
        · rintro ⟨exact, -⟩
          exact (refused exact).elim
    | ok inner =>
        obtain ⟨exact, rfl⟩ := unpack_eq_ok.mp unpacked
        simp [Except.map, exact, eq_comm]
  rw [decodeVarint, varintWidth]
  split_ifs
  · simp [eq_comm]
  · exact wide 2
  · exact wide 4
  · exact wide 8

theorem readVarint_tightens : Tightens 1 readVarint readVarint := by
  refine Tightens.onRest (fun _ _ => id) ?_ ?_
  · intro data value used decoded
    cases data with
    | nil => cases decoded
    | cons first rest =>
        rw [(decodeVarint_cons_eq_ok.mp decoded).2.2]
        omega
  · intro data value used decoded inside data' same
    cases data with
    | nil => cases decoded
    | cons first rest =>
        obtain ⟨width, value_eq, rfl⟩ := decodeVarint_cons_eq_ok.mp decoded
        cases data' with
        | nil => simp at same
        | cons first' rest' =>
            rw [List.take_succ_cons, List.take_succ_cons, List.cons.injEq] at same
            obtain ⟨rfl, same⟩ := same
            rw [decodeVarint_cons_eq_ok, same]
            exact ⟨width, value_eq, rfl⟩

theorem readU32_tightens : Tightens 4 readU32 readU32 :=
  (Tightens.fixed 4 _).bind_pure fun _ => Tightens.pure _

theorem readI32_tightens : Tightens 4 readI32 readI32 :=
  (Tightens.fixed 4 _).bind_pure fun _ => Tightens.pure _

/-! ## No slice is cut -/

/-- What was decoded lies inside the data and is all that decoding looks at; a
proper part of it is refused, and no slice of it was cut. -/
structure PrefixExact {α : Type} (decode strict : Bytes → Except PyException (α × Nat))
    (data : Bytes) (value : α) (used : Nat) : Prop where
  inside : used ≤ data.length
  stable : ∀ after, decode (data.take used ++ after) = .ok (value, used)
  shorter : ∀ length < used, ∃ error, decode (data.take length) = .error error
  uncut : strict data = .ok (value, used)

namespace ReadPolicy

/-- Slices must lie inside the data. -/
def exact : ReadPolicy :=
  ⟨readVarint, exactSlice (.valueError "Slice past the end of the data"), fun _ => true⟩

theorem exact_readBytes : Tightens 1 python.readBytes exact.readBytes :=
  readVarint_tightens.bind_pure fun length =>
    (Tightens.slice _ length).weaken (Nat.zero_le _)

theorem exact_readTxIn : Tightens 1 python.readTxIn exact.readTxIn := by
  refine Tightens.weaken ((Tightens.slice _ 32).bind fun _ => readU32_tightens.bind fun _ =>
    exact_readBytes.bind fun _ => readU32_tightens.bind_pure fun _ => Tightens.pure _) ?_
  decide

theorem exact_readTxOut : Tightens 1 python.readTxOut exact.readTxOut := by
  refine Tightens.weaken ((Tightens.fixed 8 _).bind fun _ =>
    exact_readBytes.bind_pure fun _ => Tightens.lift _) ?_
  decide

theorem exact_readWitness (inp : TxIn) :
    Tightens 1 (python.readWitness inp) (exact.readWitness inp) :=
  readVarint_tightens.bind_pure fun count =>
    (exact_readBytes.times count).bind fun _ => Tightens.pure _

theorem exact_readWitnesses (hasWitness : Bool) (vin : List TxIn) :
    Tightens 0 (python.readWitnesses hasWitness vin) (exact.readWitnesses hasWitness vin) := by
  cases hasWitness with
  | true => exact Tightens.each exact_readWitness vin
  | false => exact Tightens.pure vin

theorem exact_readContents (version : Int32) (hasWitness : Bool) :
    Tightens 2 (python.readContents version hasWitness)
      (exact.readContents version hasWitness) := by
  refine Tightens.weaken (readVarint_tightens.bind fun vinCount =>
    (exact_readTxIn.times vinCount).bind fun vin =>
      readVarint_tightens.bind fun voutCount => (exact_readTxOut.times voutCount).bind fun _ =>
        (exact_readWitnesses hasWitness vin).bind fun _ =>
          readU32_tightens.bind_pure fun _ => Tightens.pure _) ?_
  decide

theorem exact_readTransaction : Tightens 4 python.readTransaction exact.readTransaction := by
  refine readI32_tightens.bind_pure fun version => Tightens.weaken ?_ (Nat.zero_le 2)
  -- The two bytes looked at lie in front of the contents or inside them.
  refine Tightens.peek_bind le_rfl fun marker => ?_
  refine @Tightens.bind _ _ _ 0 2 _ _ _ _
    ((Tightens.slice _ _).weaken (Nat.zero_le _)) fun _ => ?_
  exact (exact_readContents version _).bind_pure fun _ => Tightens.lift _

theorem exact_readHeaderFields :
    Tightens (4 + (32 + (32 + (4 + (4 + 4))))) python.readHeaderFields
      exact.readHeaderFields :=
  readI32_tightens.bind fun _ => (Tightens.slice _ 32).bind fun _ =>
    (Tightens.slice _ 32).bind fun _ => readU32_tightens.bind fun _ =>
      readU32_tightens.bind fun _ => readU32_tightens.bind_pure fun _ => Tightens.pure _

theorem exact_readBlockHeader :
    Tightens 4 python.readBlockHeader exact.readBlockHeader := by
  have fields := exact_readHeaderFields
  refine ⟨?_, ?_, ?_⟩
  · intro data offset result read
    rw [readBlockHeader] at read ⊢
    split_ifs at read ⊢
    exact fields.loosens read
  · intro data offset value next read
    rw [readBlockHeader] at read
    split_ifs at read
    have moved := fields.consumes read
    omega
  · intro data offset value next read inside data' same
    rw [readBlockHeader] at read ⊢
    split_ifs at read
    have moved := fields.consumes read
    have lengths := congrArg List.length same
    simp only [List.length_take] at lengths
    rw [if_neg (by rw [List.length_drop]; omega)]
    exact fields.exact read inside data' same

theorem exact_readBlock : Tightens 4 python.readBlock exact.readBlock := by
  have one : Tightens 4 (onRest fun rest => python.readTransaction rest 0)
      (onRest fun rest => exact.readTransaction rest 0) := by
    refine Tightens.onRest (fun _ _ => exact_readTransaction.loosens) ?_ ?_
    · intro data value used read
      simpa using exact_readTransaction.consumes read
    · intro data value used read
      exact exact_readTransaction.exact read
  exact exact_readBlockHeader.bind_pure fun _ =>
    (readVarint_tightens.weaken (Nat.zero_le 1)).bind fun count =>
      (one.times count).bind fun _ => Tightens.pure _

end ReadPolicy

/-! ## Where decoding stops -/

/-- Every iteration of the decoding loops consumes a byte or raises, and each
loop is entered at most as often as there are bytes, whatever its count
says. -/
structure LoopsWithin (data : Bytes) : Prop where
  input_advances : Advances readTxIn
  output_advances : Advances readTxOut
  witness_advances : ∀ inp, Advances (readWitness inp)
  item_advances : Advances readBytes
  transaction_advances : Advances (onRest Transaction.deserialize)
  inputs : ∀ start count offset, readVarint data start = .ok (count, offset) →
    iterations readTxIn count data offset ≤ data.length
  outputs : ∀ start count offset, readVarint data start = .ok (count, offset) →
    iterations readTxOut count data offset ≤ data.length
  witnesses : ∀ start count offset vout vin next,
    readVarint data start = .ok (count, offset) →
    times readTxOut count data offset = .ok (vout, next) →
      iterationsOver readWitness vin data next ≤ data.length
  items : ∀ start count offset, readVarint data start = .ok (count, offset) →
    iterations readBytes count data offset ≤ data.length
  transactions : ∀ start count offset, readVarint data start = .ok (count, offset) →
    iterations (onRest Transaction.deserialize) count data offset ≤ data.length

theorem readU32_stopsInside : StopsInside readU32 :=
  (StopsInside.fixed (by decide) _).bind_pure _

theorem decodeVarint_used (data : Bytes) (value used : Nat)
    (decoded : decodeVarint data = .ok (value, used)) : 0 < used ∧ used ≤ data.length := by
  cases data with
  | nil => cases decoded
  | cons first rest =>
      obtain ⟨width, -, rfl⟩ := decodeVarint_cons_eq_ok.mp decoded
      rw [List.length_take] at width
      rw [List.length_cons]
      omega

theorem readTransaction_stopsInside : StopsInside readTransaction :=
  -- The locktime is read last, and in full.
  .bind fun _ => .bind fun _ => .bind fun _ => .bind fun _ => .bind fun _ => .bind fun _ =>
    .bind fun _ => .bind fun _ => readU32_stopsInside.bind_pure _

theorem deserialize_used (data : Bytes) (tx : Transaction) (used : Nat)
    (decoded : Transaction.deserialize data = .ok (tx, used)) :
    0 < used ∧ used ≤ data.length := by
  have read := decoded
  rw [Transaction.deserialize, ← ReadPolicy.python_readTransaction] at read
  have moved := ReadPolicy.exact_readTransaction.consumes read
  exact ⟨by omega, readTransaction_stopsInside _ _ _ _ decoded⟩

theorem readBlock_stopsInside : StopsInside readBlock := by
  refine .bind fun header => ?_
  intro data offset block next read
  simp only [bind_eq_ok, pure_apply, Except.ok.injEq, Prod.mk.injEq] at read
  obtain ⟨count, middle, countRead, transactions, stop, txsRead, -, rfl⟩ := read
  exact (StopsInside.onRest deserialize_used).times
    (StopsInside.onRest decodeVarint_used _ _ _ _ countRead) txsRead

/-! ## Loops -/

theorem readVarint_advances : Advances readVarint := Advances.onRest decodeVarint_used

theorem readBytes_advances : Advances readBytes := by
  refine readVarint_advances.bind ?_
  intro length data offset bytes stop read
  cases read
  exact Nat.le_add_right _ _

theorem readTxIn_advances : Advances readTxIn := by
  intro data offset inp next read
  have moved := ReadPolicy.exact_readTxIn.consumes read
  simp only [readTxIn, bind_eq_ok, slice, Except.ok.injEq, Prod.mk.injEq] at read
  obtain ⟨prevTxid, _, ⟨-, rfl⟩, prevVout, middle, voutRead, -⟩ := read
  have inside := readU32_stopsInside _ _ _ _ voutRead
  have forward := readU32_tightens.consumes voutRead
  omega

theorem readTxOut_advances : Advances readTxOut := by
  refine (Advances.fixed (by decide) _).bind ?_
  intro value data offset out stop read
  have moved := (ReadPolicy.exact_readBytes.bind fun _ => Tightens.lift _).consumes read
  omega

theorem readWitness_advances (inp : TxIn) : Advances (readWitness inp) := by
  refine readVarint_advances.bind ?_
  intro count data offset completed stop read
  exact ((ReadPolicy.exact_readBytes.times count).bind fun _ => Tightens.pure _).consumes read

theorem loopsWithin (data : Bytes) : LoopsWithin data := by
  -- A loop starts behind its count, so one byte pays for the iteration that raises.
  have bounded : ∀ {α : Type} {body : Decoder PyException α}, Advances body →
      ∀ start count offset, readVarint data start = .ok (count, offset) →
        iterations body count data offset ≤ data.length := by
    intro α body advances start count offset read
    have within := iterations_le advances count data offset
    have moved := readVarint_advances _ _ _ _ read
    omega
  have transaction := Advances.onRest deserialize_used
  refine ⟨readTxIn_advances, readTxOut_advances, readWitness_advances, readBytes_advances,
    transaction, bounded readTxIn_advances, bounded readTxOut_advances, ?_,
    bounded readBytes_advances, bounded transaction⟩
  intro start count offset vout vin next read outputs
  have within := iterationsOver_le readWitness_advances vin data next
  have moved := readVarint_advances _ _ _ _ read
  have forward := (ReadPolicy.exact_readTxOut.times count).consumes outputs
  omega

/-! ## Prefix-exact decoding -/

theorem prefixExact_of_tightens {α : Type} {least : Nat} {lax strict : Decoder PyException α}
    (tightens : Tightens least lax strict) (stops : StopsInside lax) {data : Bytes}
    {value : α} {used : Nat} (read : lax data 0 = .ok (value, used)) :
    PrefixExact (fun data => lax data 0) (fun data => strict data 0) data value used := by
  have inside := stops _ _ _ _ read
  refine ⟨inside, ?_, ?_, tightens.exact read inside data rfl⟩
  · intro after
    refine tightens.loosens (tightens.exact read inside _ ?_)
    rw [List.take_append_of_le_length (by rw [List.length_take]; omega), List.take_take,
      Nat.min_self]
  · intro length shorter
    exact tightens.error_of_shorter stops read shorter

/-- Decoding of transactions and blocks is prefix-exact on arbitrary bytes. -/
theorem deserialize_prefixExact (data : Bytes) :
    (∀ tx used, Transaction.deserialize data = .ok (tx, used) →
      PrefixExact Transaction.deserialize
        (fun data => ReadPolicy.exact.readTransaction data 0) data tx used) ∧
    (∀ block used, Block.deserialize data = .ok (block, used) →
      PrefixExact Block.deserialize
        (fun data => ReadPolicy.exact.readBlock data 0) data block used) ∧
    LoopsWithin data := by
  have transaction := ReadPolicy.exact_readTransaction
  have block := ReadPolicy.exact_readBlock
  rw [ReadPolicy.python_readTransaction] at transaction
  rw [ReadPolicy.python_readBlock] at block
  refine ⟨?_, ?_, loopsWithin data⟩
  · intro tx used decoded
    exact prefixExact_of_tightens transaction readTransaction_stopsInside decoded
  · intro decodedBlock used decoded
    exact prefixExact_of_tightens block readBlock_stopsInside decoded

end QuantyCoin
