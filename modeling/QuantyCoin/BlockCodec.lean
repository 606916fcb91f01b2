import QuantyCoin.Block

/-!
# The block format

The node stores blocks as bytes and reads them back whenever it applies them.
Two facts make that harmless for blocks that came in through
`Block.deserialize`: whatever is decoded is well formed, and a well-formed
block whose transactions have inputs is read back as it was.
-/

namespace QuantyCoin

open ByteDecoder Decoder

/-! ## Well-formed blocks -/

/-- Hashes have their width and every length fits a variable-length
integer. -/
structure TxIn.WellFormed (inp : TxIn) : Prop where
  prevTxid_length : inp.prevTxid.length = 32
  scriptSig_lt : inp.scriptSig.length < 2 ^ 64
  witness_lt : inp.witness.length < 2 ^ 64
  item_lt : ∀ item ∈ inp.witness, item.length < 2 ^ 64

def TxOut.WellFormed (out : TxOut) : Prop := out.scriptPubkey.length < 2 ^ 64

structure Transaction.WellFormed (tx : Transaction) : Prop where
  vin_lt : tx.vin.length < 2 ^ 64
  vout_lt : tx.vout.length < 2 ^ 64
  inputs : ∀ inp ∈ tx.vin, inp.WellFormed
  outputs : ∀ out ∈ tx.vout, out.WellFormed

structure BlockHeader.WellFormed (header : BlockHeader) : Prop where
  prevBlock_length : header.prevBlock.length = 32
  merkleRoot_length : header.merkleRoot.length = 32

structure Block.WellFormed (block : Block) : Prop where
  header : block.header.WellFormed
  transactions_lt : block.transactions.length < 2 ^ 64
  transactions : ∀ tx ∈ block.transactions, tx.WellFormed

/-! ## Reading back -/

theorem readU32_reads (value : UInt32) : Reads readU32 (packU32 value) value := by
  have fits : value.toNat < 256 ^ 4 := value.toNat_lt
  have back : UInt32.ofNat value.toNat = value := UInt32.ofNat_toNat
  exact (Reads.fixed fits).bind_pure (by rw [back]; exact Reads.pure value)

theorem readI32_reads (value : Int32) : Reads readI32 (packI32 value) value := by
  have fits : value.toUInt32.toNat < 256 ^ 4 := value.toUInt32.toNat_lt
  have back : (UInt32.ofNat value.toUInt32.toNat).toInt32 = value := by
    rw [UInt32.ofNat_toNat]
    rfl
  exact (Reads.fixed fits).bind_pure (by rw [back]; exact Reads.pure value)

theorem unpack_leBytes {width value : Nat} (fits : value < 256 ^ width) :
    unpack width (leBytes width value) = .ok value := by
  simp [unpack, leValue_leBytes fits]

theorem readVarint_reads {value : Nat} (fits : value < 2 ^ 64) :
    Reads readVarint (encodeVarint value) value := by
  apply Reads.onRest
  intro after
  unfold encodeVarint
  split_ifs with tiny short medium
  · have narrow : (UInt8.ofNat value).toNat = value := by
      simp only [UInt8.toNat_ofNat']
      omega
    have small : UInt8.ofNat value < 0xFD := by
      rw [UInt8.lt_iff_toNat_lt, narrow]
      exact tiny
    simp [decodeVarint, small, narrow]
  · have two : unpack 2 (leBytes 2 value) = .ok value := unpack_leBytes (by omega)
    simp [decodeVarint, two, Except.map]
  · have four : unpack 4 (leBytes 4 value) = .ok value := unpack_leBytes (by omega)
    simp [decodeVarint, four, Except.map]
  · have eight : unpack 8 (leBytes 8 value) = .ok value := unpack_leBytes (by omega)
    simp [decodeVarint, eight, Except.map]

theorem readBytes_reads {data : Bytes} (fits : data.length < 2 ^ 64) :
    Reads readBytes (encodeBytes data) data :=
  (readVarint_reads fits).bind (Reads.slice rfl)

/-- Everything of an input but its witness. -/
def TxIn.withoutWitness (inp : TxIn) : TxIn := { inp with witness := [] }

theorem readTxIn_reads {inp : TxIn} (wellFormed : inp.WellFormed) :
    Reads readTxIn inp.serialize inp.withoutWitness :=
  (Reads.slice wellFormed.prevTxid_length).bind
    ((readU32_reads inp.prevVout).bind
      ((readBytes_reads wellFormed.scriptSig_lt).bind
        ((readU32_reads inp.sequence).bind_pure (Reads.pure _))))

theorem readTxOut_reads {out : TxOut} (wellFormed : out.WellFormed) :
    Reads readTxOut out.serialize out := by
  have fits : out.value < 256 ^ 8 :=
    lt_of_le_of_lt out.value_le (by decide)
  have made : TxOut.new out.value out.scriptPubkey = .ok out := by
    simp [TxOut.new, out.value_le]
  exact (Reads.fixed fits).bind ((readBytes_reads wellFormed).bind_pure
    (by rw [made]; exact Reads.lift out))

theorem readWitness_reads {inp : TxIn} (wellFormed : inp.WellFormed) :
    Reads (readWitness inp.withoutWitness) inp.serializeWitness inp := by
  have items : Reads (times readBytes inp.witness.length)
      (inp.witness.flatMap encodeBytes) (inp.witness.map id) :=
    Reads.times fun item member => readBytes_reads (wellFormed.item_lt item member)
  rw [List.map_id] at items
  exact (readVarint_reads wellFormed.witness_lt).bind (items.bind_pure (Reads.pure _))

/-- The first byte of a nonzero count is not zero, so it is never taken for
the witness marker. -/
theorem encodeVarint_head {value : Nat} (positive : 0 < value) :
    ∃ first rest, encodeVarint value = first :: rest ∧ first ≠ 0 := by
  unfold encodeVarint
  split_ifs with tiny
  · refine ⟨_, _, rfl, ?_⟩
    intro zero
    have same := congrArg UInt8.toNat zero
    simp only [UInt8.toNat_ofNat', UInt8.toNat_zero] at same
    omega
  · exact ⟨_, _, rfl, by decide⟩
  · exact ⟨_, _, rfl, by decide⟩
  · exact ⟨_, _, rfl, by decide⟩

/-- The witness stacks, where there are any, complete the inputs. -/
theorem readWitnesses_reads {tx : Transaction} (wellFormed : tx.WellFormed) :
    Reads (readWitnesses tx.hasWitness (tx.vin.map TxIn.withoutWitness))
      (if tx.hasWitness then tx.vin.flatMap TxIn.serializeWitness else [])
      tx.vin := by
  cases present : tx.hasWitness with
  | true =>
      have completed : Reads (each readWitness (tx.vin.map TxIn.withoutWitness))
          (tx.vin.flatMap TxIn.serializeWitness) (tx.vin.map id) :=
        Reads.each fun inp member => readWitness_reads (wellFormed.inputs inp member)
      simpa [readWitnesses] using completed
  | false =>
      have unchanged : tx.vin.map TxIn.withoutWitness = tx.vin := by
        apply map_eq_self
        intro inp member
        have empty : inp.witness = [] := by
          simp only [Transaction.hasWitness, List.any_eq_false] at present
          simpa using present inp member
        cases inp
        simp_all [TxIn.withoutWitness]
      rw [unchanged]
      exact Reads.pure tx.vin

theorem readTransaction_reads {tx : Transaction} (wellFormed : tx.WellFormed)
    (inputs : tx.vin ≠ []) : Reads readTransaction (tx.serialize true) tx := by
  have readVin : Reads (times readTxIn tx.vin.length) (tx.vin.flatMap TxIn.serialize)
      (tx.vin.map TxIn.withoutWitness) :=
    Reads.times fun inp member => readTxIn_reads (wellFormed.inputs inp member)
  have readVout : Reads (times readTxOut tx.vout.length)
      (tx.vout.flatMap TxOut.serialize) (tx.vout.map id) :=
    Reads.times fun out member => readTxOut_reads (wellFormed.outputs out member)
  rw [List.map_id] at readVout
  obtain ⟨first, rest, countEq, nonzero⟩ :=
    encodeVarint_head (List.length_pos_iff.mpr inputs)
  rw [Transaction.serialize, Bool.true_and]
  refine (readI32_reads tx.version).bind (Reads.peek_bind ?_ ?_)
  · cases tx.hasWitness with
    | true => simp
    | false =>
        simp only [packU32, List.length_append, leBytes_length, countEq, List.length_cons]
        omega
  · have marker : ∀ others : Bytes, decide ((((if tx.hasWitness then [0x00, 0x01] else []) ++
        (encodeVarint tx.vin.length ++ others)).take 2) = [0x00, 0x01]) =
          tx.hasWitness := by
      intro others
      cases tx.hasWitness <;> simp [countEq, nonzero]
    simp only [marker]
    refine Reads.bind (Reads.slice (by cases tx.hasWitness <;> rfl)) ?_
    exact (readVarint_reads wellFormed.vin_lt).bind (readVin.bind
      ((readVarint_reads wellFormed.vout_lt).bind (readVout.bind
        ((readWitnesses_reads wellFormed).bind
          ((readU32_reads tx.locktime).bind_pure (Reads.pure _))))))

theorem BlockHeader.WellFormed.serialize_length {header : BlockHeader}
    (wellFormed : header.WellFormed) : header.serialize.length = 80 := by
  simp only [BlockHeader.serialize, packI32, packU32, List.length_append, leBytes_length,
    wellFormed.prevBlock_length, wellFormed.merkleRoot_length]

theorem readBlockHeader_reads {header : BlockHeader} (wellFormed : header.WellFormed) :
    Reads readBlockHeader header.serialize header := by
  have fields : Reads readHeaderFields header.serialize header :=
    (readI32_reads header.version).bind
    ((Reads.slice wellFormed.prevBlock_length).bind
      ((Reads.slice wellFormed.merkleRoot_length).bind
        ((readU32_reads header.timestamp).bind
          ((readU32_reads header.bits).bind
            ((readU32_reads header.nonce).bind_pure (Reads.pure _))))))
  intro before after
  have long : ¬ ((before ++ (header.serialize ++ after)).drop before.length).length < 80 := by
    simp only [List.drop_left, List.length_append, wellFormed.serialize_length]
    omega
  rw [readBlockHeader, if_neg long]
  exact fields before after

theorem readBlock_reads {block : Block} (wellFormed : block.WellFormed)
    (inputs : ∀ tx ∈ block.transactions, tx.vin ≠ []) :
    Reads readBlock block.serialize block := by
  have readTransactions : Reads
      (times (onRest Transaction.deserialize) block.transactions.length)
      (block.transactions.flatMap fun tx => tx.serialize true)
      (block.transactions.map id) := by
    refine Reads.times fun tx member => Reads.onRest fun after => ?_
    have read := readTransaction_reads (wellFormed.transactions tx member)
      (inputs tx member) [] after
    simpa [Transaction.deserialize] using read
  rw [List.map_id] at readTransactions
  exact (readBlockHeader_reads wellFormed.header).bind
    ((readVarint_reads wellFormed.transactions_lt).bind
      (readTransactions.bind_pure (Reads.pure _)))

/-- A well-formed block whose transactions have inputs is read back as it
was. -/
theorem deserialize_serialize {block : Block} (wellFormed : block.WellFormed)
    (inputs : ∀ tx ∈ block.transactions, tx.vin ≠ []) :
    Block.deserialize block.serialize = .ok (block, block.serialize.length) := by
  have read := readBlock_reads wellFormed inputs [] []
  simpa [Block.deserialize] using read

/-! ## What is decoded is well formed -/

theorem unpack_lt {width : Nat} {data : Bytes} {value : Nat}
    (unpacked : unpack width data = .ok value) : value < 256 ^ width := by
  unfold unpack at unpacked
  split_ifs at unpacked with exact
  cases unpacked
  rw [← exact]
  exact leValue_lt data

theorem decodeVarint_lt {data : Bytes} {value used : Nat}
    (decoded : decodeVarint data = .ok (value, used)) : value < 2 ^ 64 := by
  have wide : ∀ {width count : Nat} {bytes : Bytes}, width ≤ 8 →
      (unpack width bytes).map (fun value => (value, count)) = .ok (value, used) →
        value < 2 ^ 64 := by
    intro width count bytes narrow mapped
    cases unpacked : unpack width bytes with
    | error error => simp [unpacked, Except.map] at mapped
    | ok inner =>
        simp only [unpacked, Except.map, Except.ok.injEq, Prod.mk.injEq] at mapped
        calc
          value = inner := mapped.1.symm
          _ < 256 ^ width := unpack_lt unpacked
          _ ≤ 256 ^ 8 := Nat.pow_le_pow_right (by decide) narrow
          _ = 2 ^ 64 := by decide
  cases data with
  | nil => simp [decodeVarint] at decoded
  | cons first rest =>
      simp only [decodeVarint] at decoded
      split_ifs at decoded
      · simp only [Except.ok.injEq, Prod.mk.injEq] at decoded
        have small := first.toNat_lt
        omega
      · exact wide (by decide) decoded
      · exact wide (by decide) decoded
      · exact wide (by decide) decoded

theorem readVarint_lt {data : Bytes} {offset value next : Nat}
    (read : readVarint data offset = .ok (value, next)) : value < 2 ^ 64 := by
  obtain ⟨used, decoded, -⟩ := onRest_eq_ok.mp read
  exact decodeVarint_lt decoded

theorem readBytes_lt {data : Bytes} {offset next : Nat} {value : Bytes}
    (read : readBytes data offset = .ok (value, next)) : value.length < 2 ^ 64 := by
  simp only [readBytes, bind_eq_ok, slice, Except.ok.injEq, Prod.mk.injEq] at read
  obtain ⟨length, middle, lengthRead, rfl, -⟩ := read
  have bound := readVarint_lt lengthRead
  rw [List.length_take]
  omega

/-- A fixed-width read behind a slice shows that the slice was not cut. -/
theorem slice_length_of_readU32 {data : Bytes} {offset count next : Nat}
    {value : UInt32} (read : readU32 data (offset + count) = .ok (value, next)) :
    ((data.drop offset).take count).length = count := by
  simp only [readU32, bind_eq_ok, fixed_eq_ok] at read
  obtain ⟨inner, middle, ⟨width, -, -⟩, -⟩ := read
  simp only [List.length_take, List.length_drop] at width ⊢
  omega

theorem readTxIn_wellFormed {data : Bytes} {offset next : Nat} {inp : TxIn}
    (read : readTxIn data offset = .ok (inp, next)) : inp.WellFormed := by
  simp only [readTxIn, bind_eq_ok, slice, pure_apply, Except.ok.injEq,
    Prod.mk.injEq] at read
  obtain ⟨prevTxid, _, ⟨rfl, rfl⟩, prevVout, _, voutRead, scriptSig, _, scriptRead,
    sequence, _, -, rfl, -⟩ := read
  exact ⟨slice_length_of_readU32 voutRead, readBytes_lt scriptRead, by simp, by simp⟩

theorem readTxOut_wellFormed {data : Bytes} {offset next : Nat} {out : TxOut}
    (read : readTxOut data offset = .ok (out, next)) : out.WellFormed := by
  simp only [readTxOut, bind_eq_ok, lift_eq_ok] at read
  obtain ⟨value, _, -, scriptPubkey, _, scriptRead, made, -⟩ := read
  unfold TxOut.new at made
  split_ifs at made
  cases made
  exact readBytes_lt scriptRead

theorem readWitness_wellFormed {inp : TxIn} (wellFormed : inp.WellFormed)
    {data : Bytes} {offset next : Nat} {read : TxIn}
    (result : readWitness inp data offset = .ok (read, next)) : read.WellFormed := by
  simp only [readWitness, bind_eq_ok, pure_apply, Except.ok.injEq,
    Prod.mk.injEq] at result
  obtain ⟨count, _, countRead, witness, _, itemsRead, rfl, -⟩ := result
  obtain ⟨length, items⟩ := times_eq_ok
    (fun _ (item : Bytes) _ itemRead =>
      (readBytes_lt itemRead : item.length < 2 ^ 64)) itemsRead
  exact ⟨wellFormed.prevTxid_length, wellFormed.scriptSig_lt,
    length ▸ readVarint_lt countRead, items⟩

theorem readWitnesses_wellFormed {hasWitness : Bool} {vin : List TxIn}
    (wellFormed : ∀ inp ∈ vin, inp.WellFormed) {data : Bytes} {offset next : Nat}
    {read : List TxIn} (result : readWitnesses hasWitness vin data offset = .ok (read, next)) :
    read.length = vin.length ∧ ∀ inp ∈ read, inp.WellFormed := by
  cases hasWitness with
  | true =>
      exact each_eq_ok
        (fun _ _ _ _ before itemRead => readWitness_wellFormed before itemRead)
        wellFormed result
  | false =>
      simp only [readWitnesses, Bool.false_eq_true, if_false, pure_apply,
        Except.ok.injEq, Prod.mk.injEq] at result
      rw [← result.1]
      exact ⟨rfl, wellFormed⟩

theorem readTransaction_wellFormed {data : Bytes} {offset next : Nat} {tx : Transaction}
    (read : readTransaction data offset = .ok (tx, next)) : tx.WellFormed := by
  simp only [readTransaction, bind_eq_ok, pure_apply, Except.ok.injEq,
    Prod.mk.injEq] at read
  obtain ⟨version, _, -, marker, _, -, skipped, _, -, vinCount, _, vinCountRead, vin, _,
    vinRead, voutCount, _, voutCountRead, vout, _, voutRead, completed, _, witnessRead,
    locktime, _, -, rfl, -⟩ := read
  obtain ⟨vinLength, vinGood⟩ :=
    times_eq_ok (fun _ _ _ itemRead => readTxIn_wellFormed itemRead) vinRead
  obtain ⟨voutLength, voutGood⟩ :=
    times_eq_ok (fun _ _ _ itemRead => readTxOut_wellFormed itemRead) voutRead
  obtain ⟨length, good⟩ := readWitnesses_wellFormed vinGood witnessRead
  refine ⟨?_, voutLength ▸ readVarint_lt voutCountRead, good, voutGood⟩
  rw [length, vinLength]
  exact readVarint_lt vinCountRead

theorem readBlockHeader_wellFormed {data : Bytes} {offset next : Nat}
    {header : BlockHeader} (read : readBlockHeader data offset = .ok (header, next)) :
    header.WellFormed := by
  unfold readBlockHeader at read
  split_ifs at read with short
  simp only [readHeaderFields, bind_eq_ok, slice, pure_apply, Except.ok.injEq,
    Prod.mk.injEq] at read
  obtain ⟨version, start, versionRead, prevBlock, _, ⟨rfl, rfl⟩, merkleRoot, _, ⟨rfl, rfl⟩,
    timestamp, _, timestampRead, bits, _, -, nonce, _, -, rfl, -⟩ := read
  have rootLength := slice_length_of_readU32 timestampRead
  refine ⟨?_, rootLength⟩
  simp only [List.length_take, List.length_drop] at rootLength ⊢
  omega

/-- Every decoded block is well formed. -/
theorem deserialize_wellFormed {data : Bytes} {block : Block} {used : Nat}
    (decoded : Block.deserialize data = .ok (block, used)) : block.WellFormed := by
  simp only [Block.deserialize, readBlock, bind_eq_ok, pure_apply, Except.ok.injEq,
    Prod.mk.injEq] at decoded
  obtain ⟨header, _, headerRead, txCount, _, countRead, transactions, _, txsRead, rfl, -⟩ :=
    decoded
  have one : ∀ offset tx next,
      onRest Transaction.deserialize data offset = .ok (tx, next) → tx.WellFormed := by
    intro offset tx next read
    obtain ⟨used, inner, -⟩ := onRest_eq_ok.mp read
    exact readTransaction_wellFormed inner
  obtain ⟨length, good⟩ := times_eq_ok one txsRead
  exact ⟨readBlockHeader_wellFormed headerRead, length ▸ readVarint_lt countRead, good⟩

end QuantyCoin
