import QuantyCoin.CodecExactness

/-!
# Canonical encodings

Decoding accepts lengths in longer forms than necessary and the witness marker
in front of a transaction without witnesses.  The canonical policy refuses
both.  Serializing what was decoded gives the bytes it was decoded from exactly
when the canonical policy accepts them as well: every redundancy makes the
serialization strictly shorter, and none elsewhere makes up for it.
-/

namespace QuantyCoin

open ByteDecoder Decoder

/-- A variable-length integer in its shortest form. -/
def readMinimalVarint : Decoder PyException Nat := fun data offset =>
  match readVarint data offset with
  | .error error => .error error
  | .ok (value, next) =>
      if next = offset + (encodeVarint value).length then .ok (value, next)
      else .error (.valueError "Varint is not in its shortest form")

/-- Lengths in their shortest form, and the marker only in front of a
transaction with a witness. -/
def ReadPolicy.canonical : ReadPolicy :=
  ⟨readMinimalVarint, Decoder.slice, Transaction.hasWitness⟩

/-! ## Lengths -/

/-- A first byte that announces a wider integer. -/
theorem wide_first {first : UInt8} (wide : ¬ first < 0xFD) :
    first = 0xFD ∨ first = 0xFE ∨ first = 0xFF := by
  have small := first.toNat_lt
  rw [UInt8.lt_iff_toNat_lt] at wide
  have large : 0xFD ≤ first.toNat := Nat.not_lt.mp wide
  rcases (by omega : first.toNat = 0xFD ∨ first.toNat = 0xFE ∨ first.toNat = 0xFF) with
    is | is | is
  · exact Or.inl (UInt8.toNat_inj.mp is)
  · exact Or.inr (Or.inl (UInt8.toNat_inj.mp is))
  · exact Or.inr (Or.inr (UInt8.toNat_inj.mp is))

/-- The shortest form is no longer than the one read, and equal to it if it has
the same length. -/
theorem decodeVarint_encodeVarint {data : Bytes} {value used : Nat}
    (decoded : decodeVarint data = .ok (value, used)) :
    (encodeVarint value).length ≤ used ∧
      ((encodeVarint value).length = used → data.take used = encodeVarint value) := by
  cases data with
  | nil => cases decoded
  | cons first rest =>
      obtain ⟨width, value_eq, rfl⟩ := decodeVarint_cons_eq_ok.mp decoded
      by_cases tiny : first < 0xFD
      · have tinyNat : first.toNat < 0xFD := UInt8.lt_iff_toNat_lt.mp tiny
        have width_eq : varintWidth first = 0 := by simp [varintWidth, tiny]
        rw [if_pos tiny] at value_eq
        subst value_eq
        simp [encodeVarint, tinyNat, width_eq, UInt8.ofNat_toNat]
      · rw [if_neg tiny] at value_eq
        have back := leBytes_leValue (rest.take (varintWidth first))
        have bound := leValue_lt (rest.take (varintWidth first))
        rw [width, ← value_eq] at back bound
        rw [List.take_succ_cons, ← back, encodeVarint]
        -- A wider form has the length of the shortest one only on its own range.
        rcases wide_first tiny with rfl | rfl | rfl
        · have bound : value < 256 ^ 2 := bound
          have width_eq : varintWidth 0xFD = 2 := rfl
          rw [width_eq]
          split_ifs <;> first | omega | simp
        · have bound : value < 256 ^ 4 := bound
          have width_eq : varintWidth 0xFE = 4 := rfl
          rw [width_eq]
          split_ifs <;> first | omega | simp
        · have width_eq : varintWidth 0xFF = 8 := rfl
          rw [width_eq]
          split_ifs <;> simp

theorem readVarint_encodedBy : EncodedBy readVarint readMinimalVarint [] encodeVarint := by
  refine ⟨?_, fun read => (readVarint_advances _ _ _ _ read).2.le, ?_⟩
  · intro data offset result read
    rw [readMinimalVarint] at read
    split at read
    · cases read
    · split_ifs at read
      rename_i found _
      rw [found, ← read]
  · intro data offset value next read inside
    obtain ⟨used, decoded, rfl⟩ := onRest_eq_ok.mp read
    obtain ⟨shorter, equal⟩ := decodeVarint_encodeVarint decoded
    refine ⟨_, List.nil_append _, by omega, ?_, ?_⟩
    · intro tight
      rw [readMinimalVarint, read]
      exact if_pos tight.symm
    · intro accepted
      rw [readMinimalVarint, read] at accepted
      simp only at accepted
      split_ifs at accepted with tight
      rw [window, Nat.add_sub_cancel_left]
      exact equal (by omega)

theorem readU32_encodedBy : EncodedBy readU32 readU32 [] packU32 := by
  refine (EncodedBy.fixed 4 _).bind ?_
  rintro value ⟨data, offset, next, read⟩
  have bound : value < 2 ^ 32 := fixed_lt read
  refine EncodedBy.pure ?_
  rw [List.nil_append, packU32, UInt32.toNat_ofNat', Nat.mod_eq_of_lt bound]

theorem readI32_encodedBy : EncodedBy readI32 readI32 [] packI32 := by
  refine (EncodedBy.fixed 4 _).bind ?_
  rintro value ⟨data, offset, next, read⟩
  have bound : value < 2 ^ 32 := fixed_lt read
  refine EncodedBy.pure ?_
  have back : ((UInt32.ofNat value).toInt32).toUInt32 = UInt32.ofNat value := rfl
  rw [List.nil_append, packI32, back, UInt32.toNat_ofNat', Nat.mod_eq_of_lt bound]

/-! ## Transactions -/

namespace ReadPolicy

theorem canonical_readBytes :
    EncodedBy python.readBytes canonical.readBytes [] encodeBytes := by
  refine readVarint_encodedBy.bind fun length _ => EncodedBy.slice ?_
  rintro bytes rfl
  rfl

theorem canonical_readTxIn :
    EncodedBy python.readTxIn canonical.readTxIn [] TxIn.serialize := by
  refine (EncodedBy.slice fun _ _ => List.nil_append _).bind fun prevTxid _ =>
    readU32_encodedBy.bind fun prevVout _ => canonical_readBytes.bind fun scriptSig _ =>
      readU32_encodedBy.bind fun sequence _ => EncodedBy.pure ?_
  simp [TxIn.serialize]

theorem canonical_readTxOut :
    EncodedBy python.readTxOut canonical.readTxOut [] TxOut.serialize := by
  refine (EncodedBy.fixed 8 _).bind fun value _ => canonical_readBytes.bind
    fun scriptPubkey _ => EncodedBy.lift ?_
  intro out made
  unfold TxOut.new at made
  split_ifs at made
  cases made
  rfl

theorem canonical_readWitness (inp : TxIn) :
    EncodedBy (python.readWitness inp) (canonical.readWitness inp) []
      TxIn.serializeWitness :=
  EncodedBy.bind_times readVarint_encodedBy canonical_readBytes fun _ => EncodedBy.pure rfl

/-- Only the witness of an input is filled in later. -/
theorem readWitnesses_kept {hasWitness : Bool} {vin completed : List TxIn}
    (produced : Produces (python.readWitnesses hasWitness vin) completed) :
    completed.map TxIn.withoutWitness = vin.map TxIn.withoutWitness := by
  obtain ⟨data, offset, next, read⟩ := produced
  cases hasWitness with
  | false =>
      cases read
      rfl
  | true =>
      refine map_eq_of_each ?_ read
      intro inp start value stop one
      simp only [readWitness, bind_eq_ok, pure_apply, Except.ok.injEq, Prod.mk.injEq] at one
      obtain ⟨count, _, -, witness, _, -, rfl, -⟩ := one
      rfl

theorem canonical_readWitnesses (hasWitness : Bool) (vin : List TxIn) :
    EncodedBy (python.readWitnesses hasWitness vin) (canonical.readWitnesses hasWitness vin) []
      fun completed =>
        if hasWitness then completed.flatMap TxIn.serializeWitness else [] := by
  cases hasWitness with
  | true => exact EncodedBy.each canonical_readWitness vin
  | false => exact EncodedBy.pure rfl

/-- Everything behind the version and the marker, with or without the witness
stacks. -/
def serializeContents (useWitness : Bool) (tx : Transaction) : Bytes :=
  encodeVarint tx.vin.length ++ (tx.vin.flatMap TxIn.serialize ++
    (encodeVarint tx.vout.length ++ (tx.vout.flatMap TxOut.serialize ++
      ((if useWitness then tx.vin.flatMap TxIn.serializeWitness else []) ++
        packU32 tx.locktime))))

theorem serialize_eq (tx : Transaction) :
    tx.serialize true = packI32 tx.version ++
      ((if tx.hasWitness then [0x00, 0x01] else []) ++ serializeContents tx.hasWitness tx) := by
  rw [Transaction.serialize, Bool.true_and]
  rfl

/-- The part of an input in front of the outputs does not depend on its
witness. -/
theorem flatMap_serialize_congr {vin completed : List TxIn}
    (kept : completed.map TxIn.withoutWitness = vin.map TxIn.withoutWitness) :
    completed.flatMap TxIn.serialize = vin.flatMap TxIn.serialize := by
  have same : ∀ inps : List TxIn, inps.flatMap TxIn.serialize =
      (inps.map TxIn.withoutWitness).flatMap TxIn.serialize := by
    intro inps
    rw [List.flatMap_map]
    rfl
  rw [same completed, kept, ← same vin]

theorem canonical_readContents (version : Int32) (hasWitness : Bool) :
    EncodedBy (python.readContents version hasWitness)
      (canonical.readContents version hasWitness) [] (serializeContents hasWitness) := by
  refine EncodedBy.bind_times readVarint_encodedBy canonical_readTxIn fun vin =>
    EncodedBy.bind_times readVarint_encodedBy canonical_readTxOut fun vout =>
      (canonical_readWitnesses hasWitness vin).bind fun completed produced =>
        readU32_encodedBy.bind fun locktime _ => EncodedBy.pure ?_
  have kept := readWitnesses_kept produced
  have length : completed.length = vin.length := by
    simpa using congrArg List.length kept
  simp only [serializeContents, flatMap_serialize_congr kept, length, List.nil_append,
    List.append_assoc]

/-- Without the marker no input has a witness. -/
theorem readContents_produces {version : Int32} {hasWitness : Bool} {tx : Transaction}
    (produced : Produces (python.readContents version hasWitness) tx) :
    tx.version = version ∧ (hasWitness = false → tx.hasWitness = false) := by
  obtain ⟨data, offset, next, read⟩ := produced
  simp only [readContents, bind_eq_ok, pure_apply, Except.ok.injEq, Prod.mk.injEq] at read
  obtain ⟨vinCount, _, -, vin, _, vinRead, voutCount, _, -, vout, _, -, completed, _,
    witnessRead, locktime, _, -, rfl, -⟩ := read
  refine ⟨rfl, ?_⟩
  rintro rfl
  cases witnessRead
  have bare : ∀ inp ∈ vin, inp.witness = [] := by
    refine (times_eq_ok ?_ vinRead).2
    intro start inp stop one
    simp only [readTxIn, bind_eq_ok, pure_apply, Except.ok.injEq, Prod.mk.injEq] at one
    obtain ⟨prevTxid, _, -, prevVout, _, -, scriptSig, _, -, sequence, _, -, rfl, -⟩ := one
    rfl
  simp only [Transaction.hasWitness, List.any_eq_false]
  intro inp member
  simp [bare inp member]

/-- What is read behind the version, once it is known whether the marker stands
there. -/
theorem readBehindVersion_apply {policy : ReadPolicy} (lenient : policy.slice = Decoder.slice)
    (version : Int32) (data : Bytes) (offset : Nat) {hasWitness : Bool}
    (marker : decide ((data.drop offset).take 2 = [0x00, 0x01]) = hasWitness) :
    policy.readBehindVersion version data offset =
      (policy.readContents version hasWitness >>= fun tx =>
        Decoder.lift (policy.checkMarker hasWitness tx)) data
          (offset + if hasWitness then 2 else 0) := by
  subst marker
  rw [readBehindVersion, lenient]
  rfl

theorem python_checked (version : Int32) (hasWitness : Bool) :
    (python.readContents version hasWitness >>= fun tx =>
      Decoder.lift (python.checkMarker hasWitness tx)) =
        python.readContents version hasWitness := by
  have unchecked : ∀ tx, Decoder.lift (python.checkMarker hasWitness tx) = pure tx := by
    intro tx
    rw [checkMarker, if_neg (by simp [python])]
    rfl
  simp only [unchecked, bind_pure]

theorem canonical_readBehindVersion (version : Int32) :
    EncodedBy (python.readBehindVersion version) (canonical.readBehindVersion version)
      (packI32 version) fun tx => tx.serialize true := by
  apply EncodedBy.pointwise
  intro data offset
  cases marker : decide ((data.drop offset).take 2 = [0x00, 0x01]) with
  | true =>
      have found : (data.drop offset).take 2 = [0x00, 0x01] := of_decide_eq_true marker
      let marked : Decoder PyException Bytes := literal (unpackError 2) [0x00, 0x01]
      have behind : ∀ contents : Decoder PyException Transaction,
          (marked >>= fun _ => contents) data offset = contents data (offset + 2) := by
        intro contents
        rw [bind_apply]
        simp [marked, literal, found]
      refine ⟨marked >>= fun _ => python.readContents version true,
        (marked >>= fun _ => canonical.readContents version true) >>= fun tx =>
          Decoder.lift (canonical.checkMarker true tx), ?_, ?_, ?_⟩
      · rw [readBehindVersion_apply rfl version data offset marker, python_checked, behind]
        rfl
      · rw [readBehindVersion_apply rfl version data offset marker, bind_assoc, behind]
        rfl
      · refine EncodedBy.bind_check ((EncodedBy.literal _ _).bind fun _ _ =>
          (canonical_readContents version true).behind _) ?_
        rintro tx ⟨data, offset, next, read⟩
        obtain ⟨_, middle, -, contentsRead⟩ := bind_eq_ok.mp read
        obtain ⟨rfl, -⟩ := readContents_produces ⟨data, middle, next, contentsRead⟩
        cases present : tx.hasWitness with
        | true =>
            left
            refine ⟨by simp [checkMarker, canonical, present], ?_⟩
            rw [serialize_eq, present]
            rfl
        | false =>
            right
            refine ⟨⟨_, if_pos (by simp [canonical, present])⟩,
              serializeContents false tx, ?_, ?_⟩
            · rw [serialize_eq, present]
              rfl
            · simp [serializeContents]
              omega
  | false =>
      refine ⟨python.readContents version false,
        canonical.readContents version false >>= fun tx =>
          Decoder.lift (canonical.checkMarker false tx), ?_, ?_, ?_⟩
      · rw [readBehindVersion_apply rfl version data offset marker, python_checked]
        rfl
      · rw [readBehindVersion_apply rfl version data offset marker]
        rfl
      · refine EncodedBy.bind_check (canonical_readContents version false) ?_
        intro tx produced
        obtain ⟨rfl, bare⟩ := readContents_produces produced
        left
        refine ⟨rfl, ?_⟩
        rw [serialize_eq, bare rfl]
        rfl

theorem canonical_readTransaction :
    EncodedBy python.readTransaction canonical.readTransaction [] fun tx =>
      tx.serialize true :=
  readI32_encodedBy.bind fun version _ => canonical_readBehindVersion version

/-! ## Blocks -/

theorem canonical_readHeaderFields :
    EncodedBy python.readHeaderFields canonical.readHeaderFields [] BlockHeader.serialize := by
  have hash : EncodedBy (Decoder.slice 32 : Decoder PyException Bytes) (Decoder.slice 32) []
      fun bytes => bytes :=
    EncodedBy.slice fun _ _ => List.nil_append _
  refine readI32_encodedBy.bind fun version _ => hash.bind fun prevBlock _ =>
    hash.bind fun merkleRoot _ => readU32_encodedBy.bind fun timestamp _ =>
      readU32_encodedBy.bind fun bits _ => readU32_encodedBy.bind fun nonce _ =>
        EncodedBy.pure ?_
  simp [BlockHeader.serialize]

theorem canonical_readBlockHeader :
    EncodedBy python.readBlockHeader canonical.readBlockHeader [] BlockHeader.serialize := by
  apply EncodedBy.pointwise
  intro data offset
  by_cases short : (data.drop offset).length < 80
  · refine ⟨Decoder.lift (.error (.valueError "Data too short for BlockHeader")),
      Decoder.lift (.error (.valueError "Data too short for BlockHeader")), ?_, ?_, ?_⟩
    · rw [readBlockHeader, if_pos short]
      rfl
    · rw [readBlockHeader, if_pos short]
      rfl
    · refine EncodedBy.lift ?_
      intro value impossible
      cases impossible
  · exact ⟨_, _, if_neg short, if_neg short, canonical_readHeaderFields⟩

theorem canonical_readBlock :
    EncodedBy python.readBlock canonical.readBlock [] Block.serialize := by
  refine canonical_readBlockHeader.bind fun header _ =>
    EncodedBy.bind_times readVarint_encodedBy canonical_readTransaction.onRest
      fun transactions => EncodedBy.pure ?_
  simp [Block.serialize]

end ReadPolicy

/-! ## Serializing what was decoded -/

theorem serialize_eq_take_iff {α : Type} {lax canonical : Decoder PyException α}
    {encode : α → Bytes} (encoded : EncodedBy lax canonical [] encode)
    (stops : StopsInside lax) {data : Bytes} {value : α} {used : Nat}
    (read : lax data 0 = .ok (value, used)) :
    encode value = data.take used ↔ ∃ result, canonical data 0 = .ok result := by
  have inside := stops _ _ _ _ read
  obtain ⟨bytes, rfl, shorter, accepts, equal⟩ := encoded.compare read inside
  constructor
  · intro same
    refine ⟨_, accepts ?_⟩
    rw [same, List.length_take]
    omega
  · rintro ⟨result, accepted⟩
    have same := encoded.loosens accepted
    rw [read] at same
    cases same
    rw [← equal accepted]
    simp [window]

/-- The byte string starts with a transaction in canonical form. -/
def CanonicalTransaction (data : Bytes) : Prop :=
  ∃ result, ReadPolicy.canonical.readTransaction data 0 = .ok result

/-- The byte string starts with a block in canonical form. -/
def CanonicalBlock (data : Bytes) : Prop :=
  ∃ result, ReadPolicy.canonical.readBlock data 0 = .ok result

/-- Serializing what was decoded gives back the bytes it was decoded from
exactly if all lengths in them have their shortest form and the marker stands
only in front of transactions with a witness. -/
theorem serialize_deserialize_iff (data : Bytes) :
    (∀ tx used, Transaction.deserialize data = .ok (tx, used) →
      (tx.serialize true = data.take used ↔ CanonicalTransaction data)) ∧
    ∀ block used, Block.deserialize data = .ok (block, used) →
      (block.serialize = data.take used ↔ CanonicalBlock data) := by
  have transaction := ReadPolicy.canonical_readTransaction
  have block := ReadPolicy.canonical_readBlock
  rw [ReadPolicy.python_readTransaction] at transaction
  rw [ReadPolicy.python_readBlock] at block
  constructor
  · intro tx used decoded
    exact serialize_eq_take_iff transaction readTransaction_stopsInside decoded
  · intro decodedBlock used decoded
    exact serialize_eq_take_iff block readBlock_stopsInside decoded

/-- One input and one output, the number of inputs written in three bytes. -/
def redundantBytes : Bytes :=
  [0x01, 0x00, 0x00, 0x00, 0xFD, 0x01, 0x00] ++ List.replicate 32 0x11 ++
    [0x00, 0x00, 0x00, 0x00, 0x00, 0xFF, 0xFF, 0xFF, 0xFF, 0x01] ++
    [0x01, 0x00, 0x00, 0x00, 0x00, 0x00, 0x00, 0x00, 0x01, 0x51] ++ [0x00, 0x00, 0x00, 0x00]

/-- The transaction in `redundantBytes`. -/
def redundantTransaction : Transaction :=
  ⟨1, [⟨List.replicate 32 0x11, 0, [], 0xFFFFFFFF, []⟩], [⟨1, [0x51], by decide⟩], 0⟩

/-- The same transaction is decoded from two different byte strings, each of
which is used up. -/
theorem redundantBytes_not_canonical :
    Transaction.deserialize redundantBytes =
        .ok (redundantTransaction, redundantBytes.length) ∧
      Transaction.deserialize (redundantTransaction.serialize true) =
        .ok (redundantTransaction, (redundantTransaction.serialize true).length) ∧
      redundantTransaction.serialize true ≠ redundantBytes.take redundantBytes.length := by
  decide

end QuantyCoin
