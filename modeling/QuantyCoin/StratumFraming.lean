import QuantyCoin.ChunkedStream
import QuantyCoin.Primitives

/-!
# Framing of Stratum V2

`encode_sv2_frame` and `decode_sv2_frame` of `miner/stratum_v2.py` and the
buffer loop of `StratumV2Server._client_handler`.  A frame has a header of six
bytes: the extension type, the message type and the length of the payload in
three bytes.  The handler appends what it receives to a buffer and processes
the complete frames in it.
-/

namespace QuantyCoin

open ByteDecoder ChunkedStream

structure Sv2Frame where
  extensionType : UInt16
  msgType : UInt8
  payload : Bytes
  deriving DecidableEq

/-- `encode_sv2_frame`. -/
def encodeSv2Frame (frame : Sv2Frame) : Except PyException Bytes :=
  if frame.payload.length > 0xFFFFFF then
    .error (.valueError "Payload exceeds Stratum V2 16MB maximum length")
  else
    .ok (leBytes 2 frame.extensionType.toNat ++ ([frame.msgType] ++
      ((leBytes 4 frame.payload.length).take 3 ++ frame.payload)))

/-- `struct.unpack('<I', data[3:6] + b'\x00')[0]`. -/
def sv2PayloadLen (data : Bytes) : Nat := leValue ((data.drop 3).take 3 ++ [0])

/-- `decode_sv2_frame`: the frame and the number of bytes it takes, nothing for
incomplete data. -/
def decodeSv2Frame (data : Bytes) : Option (Sv2Frame × Nat) :=
  if data.length < 6 then none
  else do
    let msgType ← data[2]?
    let totalLen := 6 + sv2PayloadLen data
    if data.length < totalLen then none
    else
      some (⟨UInt16.ofNat (leValue (data.take 2)), msgType, (data.take totalLen).drop 6⟩,
        totalLen)

/-! ## Complete frames -/

/-- A header with a payload behind it. -/
structure Sv2Frame.Behind (frame : Sv2Frame) (header : Bytes) : Prop where
  header_length : header.length = 6
  payload_length : frame.payload.length = sv2PayloadLen header
  extensionType_eq : frame.extensionType = UInt16.ofNat (leValue (header.take 2))
  msgType_eq : header[2]? = some frame.msgType

theorem sv2PayloadLen_append {header : Bytes} (length : header.length = 6) (rest : Bytes) :
    sv2PayloadLen (header ++ rest) = sv2PayloadLen header := by
  rw [sv2PayloadLen, sv2PayloadLen, List.drop_append_of_le_length (by omega),
    List.take_append_of_le_length (by rw [List.length_drop]; omega)]

theorem Sv2Frame.Behind.decode {frame : Sv2Frame} {header : Bytes} (behind : frame.Behind header)
    (rest : Bytes) : decodeSv2Frame (header ++ (frame.payload ++ rest)) =
      some (frame, 6 + frame.payload.length) := by
  have length := behind.header_length
  have msgType : (header ++ (frame.payload ++ rest))[2]? = some frame.msgType := by
    rw [List.getElem?_append_left (by omega)]
    exact behind.msgType_eq
  have extension : (header ++ (frame.payload ++ rest)).take 2 = header.take 2 :=
    List.take_append_of_le_length (by omega)
  have payload : ((header ++ (frame.payload ++ rest)).take (6 + frame.payload.length)).drop 6 =
      frame.payload := by
    rw [← List.append_assoc, List.take_left' (by rw [List.length_append, length]),
      List.drop_left' length]
  rw [decodeSv2Frame, if_neg (by rw [List.length_append]; omega), msgType]
  simp only [bind, Option.bind_some, sv2PayloadLen_append length, ← behind.payload_length]
  rw [if_neg (by rw [List.length_append, List.length_append]; omega), extension, payload,
    ← behind.extensionType_eq]

/-- What is decoded is a header with its payload, at the front of the data. -/
theorem behind_of_decode {data : Bytes} {frame : Sv2Frame} {consumed : Nat}
    (decoded : decodeSv2Frame data = some (frame, consumed)) :
    ∃ header rest, frame.Behind header ∧ data = header ++ (frame.payload ++ rest) ∧
      consumed = 6 + frame.payload.length := by
  rw [decodeSv2Frame] at decoded
  split_ifs at decoded with short
  simp only [bind, Option.bind_eq_some_iff] at decoded
  obtain ⟨msgType, found, decoded⟩ := decoded
  split_ifs at decoded with incomplete
  cases decoded
  have header : (data.take 6).length = 6 := by
    rw [List.length_take]
    omega
  have lengthEq : sv2PayloadLen (data.take 6) = sv2PayloadLen data := by
    rw [← sv2PayloadLen_append header (data.drop 6), List.take_append_drop]
  have payload : ((data.take (6 + sv2PayloadLen data)).drop 6).length = sv2PayloadLen data := by
    rw [List.length_drop, List.length_take]
    omega
  refine ⟨data.take 6, data.drop (6 + sv2PayloadLen data), ⟨header, ?_, ?_, ?_⟩, ?_, ?_⟩
  · rw [payload, lengthEq]
  · rw [List.take_take]
    rfl
  · rw [List.getElem?_take_of_lt (by decide)]
    exact found
  · rw [List.drop_take, Nat.add_sub_cancel_left, ← List.drop_drop, List.take_append_drop,
      List.take_append_drop]
  · rw [payload]

/-- The decoder of the buffer loop. -/
def sv2Decoder : FrameDecoder UInt8 Sv2Frame where
  decode := decodeSv2Frame
  consumed_pos decoded := by
    obtain ⟨header, rest, behind, rfl, rfl⟩ := behind_of_decode decoded
    have length := behind.header_length
    simp only [List.length_append]
    omega
  stable decoded more := by
    obtain ⟨header, rest, behind, rfl, rfl⟩ := behind_of_decode decoded
    rw [List.append_assoc, List.append_assoc]
    exact behind.decode (rest ++ more)

/-- The loop of `_client_handler`, for a running server: the frames passed to
`_process_message`, what is left in the buffer or the exception that ended the
loop, and the state. -/
def clientHandler {σ : Type} (processMessage : σ → Sv2Frame → Except PyException Unit × σ)
    (state : σ) (chunks : List Bytes) : List Sv2Frame × Except PyException Bytes × σ :=
  feed sv2Decoder processMessage state [] chunks

/-! ## Encoded frames -/

theorem leValue_take_three {length : Nat} (short : length ≤ 0xFFFFFF) :
    leValue ((leBytes 4 length).take 3 ++ [0]) = length := by
  have bytes : (leBytes 4 length).take 3 ++ [0] = leBytes 4 length := by
    have top : UInt8.ofNat (length / 256 / 256 / 256) = 0 := by
      have zero : length / 256 / 256 / 256 = 0 := by omega
      rw [zero]
      rfl
    simp only [leBytes, List.take_succ_cons, List.take_zero, List.cons_append, List.nil_append,
      top]
  rw [bytes, leValue_leBytes (by omega)]

theorem encodeSv2Frame_behind {frame : Sv2Frame} {message : Bytes}
    (encoded : encodeSv2Frame frame = .ok message) :
    ∃ header, frame.Behind header ∧ message = header ++ frame.payload := by
  rw [encodeSv2Frame] at encoded
  split_ifs at encoded with long
  cases encoded
  have short : frame.payload.length ≤ 0xFFFFFF := Nat.not_lt.mp long
  refine ⟨leBytes 2 frame.extensionType.toNat ++ ([frame.msgType] ++
    (leBytes 4 frame.payload.length).take 3), ⟨by simp, ?_, ?_, ?_⟩, by simp⟩
  · rw [sv2PayloadLen, ← List.append_assoc, List.drop_left' (by simp),
      List.take_of_length_le (by simp), leValue_take_three short]
  · rw [List.take_left' (leBytes_length 2 _), leValue_leBytes frame.extensionType.toNat_lt,
      UInt16.ofNat_toNat]
  · rw [List.getElem?_append_right (by simp)]
    simp

/-- An encoded frame is decoded, whatever follows it. -/
theorem decodeSv2Frame_encode {frame : Sv2Frame} {message : Bytes}
    (encoded : encodeSv2Frame frame = .ok message) (rest : Bytes) :
    decodeSv2Frame (message ++ rest) = some (frame, 6 + frame.payload.length) := by
  obtain ⟨header, behind, rfl⟩ := encodeSv2Frame_behind encoded
  rw [List.append_assoc]
  exact behind.decode rest

theorem encodeSv2Frame_length {frame : Sv2Frame} {message : Bytes}
    (encoded : encodeSv2Frame frame = .ok message) :
    message.length = 6 + frame.payload.length := by
  obtain ⟨header, behind, rfl⟩ := encodeSv2Frame_behind encoded
  rw [List.length_append, behind.header_length]

/-- The start of a frame is not decoded. -/
theorem decodeSv2Frame_truncated {frame : Sv2Frame} {message part missing : Bytes}
    (encoded : encodeSv2Frame frame = .ok message) (cut : message = part ++ missing)
    (incomplete : missing ≠ []) : decodeSv2Frame part = none := by
  rw [Option.eq_none_iff_forall_not_mem]
  rintro ⟨other, consumed⟩ decoded
  have longer := sv2Decoder.stable decoded missing
  have whole := decodeSv2Frame_encode encoded []
  rw [List.append_nil, cut] at whole
  cases whole.symm.trans longer
  have bound := (sv2Decoder.consumed_pos decoded).2
  have length := encodeSv2Frame_length encoded
  rw [cut, List.length_append] at length
  have nothing : missing.length = 0 := by omega
  exact incomplete (List.length_eq_zero_iff.mp nothing)

/-! ## Exactness -/

/-- The handler on a stream of encoded frames and possibly the start of one
more, however it is cut into chunks. -/
theorem clientHandler_exact {σ : Type}
    (processMessage : σ → Sv2Frame → Except PyException Unit × σ) (state : σ)
    (frames : List Sv2Frame) (messages : List Bytes)
    (encoded : List.Forall₂ (fun frame message => encodeSv2Frame frame = .ok message)
      frames messages)
    (tail : Bytes)
    (truncated : tail = [] ∨ ∃ frame missing, missing ≠ [] ∧
      encodeSv2Frame frame = .ok (tail ++ missing))
    (chunks : List Bytes) (sizes : ∀ chunk ∈ chunks, 1 ≤ chunk.length ∧ chunk.length ≤ 4096)
    (stream : chunks.flatten = messages.flatten ++ tail) :
    (clientHandler processMessage state chunks).1 =
      (processAll processMessage state frames).1 ∧
    (clientHandler processMessage state chunks).2.2 =
      (processAll processMessage state frames).2.2 ∧
    ((∀ state frame, (processMessage state frame).1 = .ok ()) →
      (clientHandler processMessage state chunks).1 = frames) ∧
    ∀ frame message rest, encodeSv2Frame frame = .ok message →
      decodeSv2Frame (message ++ rest) = some (frame, 6 + frame.payload.length) := by
  have nonempty : ∀ chunk ∈ chunks, chunk ≠ [] := by
    intro chunk member
    exact List.ne_nil_of_length_pos (sizes chunk member).1
  have partialTail : sv2Decoder.decode tail = none := by
    rcases truncated with rfl | ⟨frame, missing, incomplete, whole⟩
    · rfl
    · exact decodeSv2Frame_truncated whole rfl incomplete
  have reads : List.Forall₂ (fun frame message => ∀ more,
      sv2Decoder.decode (message ++ more) = some (frame, message.length)) frames messages := by
    apply encoded.imp
    intro frame message whole more
    rw [encodeSv2Frame_length whole]
    exact decodeSv2Frame_encode whole more
  have handled : clientHandler processMessage state chunks =
      drain sv2Decoder processMessage state (messages.flatten ++ tail) := by
    rw [clientHandler, feed_eq_drain nonempty state rfl, List.nil_append, stream]
  obtain ⟨processed, last⟩ := drain_encoded reads partialTail state
  rw [handled]
  refine ⟨processed, last, ?_, ?_⟩
  · intro succeeds
    rw [processed, processAll_of_ok succeeds]
  · intro frame message rest whole
    exact decodeSv2Frame_encode whole rest

/-! ### Two frames in pieces -/

/-- `SetupConnection` with the payload of the framing test. -/
def sampleSetup : Sv2Frame := ⟨0, 0x00, [0x00, 0x02, 0x00, 0x00]⟩

/-- `OpenStandardMiningChannel` without a payload. -/
def sampleOpen : Sv2Frame := ⟨0, 0x10, []⟩

/-- Two frames and the start of a third, cut inside the first header and behind
the second. -/
theorem sampleSetup_sampleOpen_handled :
    (@clientHandler Unit (fun _ _ => (.ok (), ())) ()
      [[0, 0, 0, 4], [0, 0, 0x00, 0x02, 0x00, 0x00, 0, 0, 0x10, 0, 0, 0], [0, 0, 0, 4]]).1 =
        [sampleSetup, sampleOpen] := by
  have exact' := clientHandler_exact (fun _ _ => (.ok (), ())) () [sampleSetup, sampleOpen]
    [[0, 0, 0, 4, 0, 0, 0x00, 0x02, 0x00, 0x00], [0, 0, 0x10, 0, 0, 0]]
    (.cons (by decide) (.cons (by decide) .nil)) [0, 0, 0, 4]
    (Or.inr ⟨sampleSetup, [0, 0, 0x00, 0x02, 0x00, 0x00], by decide, by decide⟩)
    [[0, 0, 0, 4], [0, 0, 0x00, 0x02, 0x00, 0x00, 0, 0, 0x10, 0, 0, 0], [0, 0, 0, 4]]
    (by decide) (by decide)
  exact exact'.2.2.1 fun _ _ => rfl

end QuantyCoin
