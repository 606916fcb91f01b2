import Mathlib.Data.List.DropRight
import Mathlib.Data.List.Forall2
import QuantyCoin.ChunkedStream
import QuantyCoin.PeerMessages

/-!
# Framing of the peer connection

`create_message` and `parse_header` of `network/protocol.py` and the read loop
of `network/peer.py`.  A socket gives its stream in chunks; the loop reads a
header, then the payload it announces, and hands both over.  It ends at the end
of the stream, at the first frame that is not in order, or when the connection
has been closed.
-/

namespace QuantyCoin

open ByteDecoder ChunkedStream

/-! ## Frames -/

/-- `MAGIC_BYTES`. -/
def magicBytes : Bytes := [0x51, 0x54, 0x59, 0x34]

def commandLength : Nat := 12
def headerLength : Nat := 24

/-- The limit of the read loop on payloads. -/
def maxPayload : Nat := 32 * 1024 * 1024 + 1000

/-- A command and its payload. -/
structure Frame where
  command : List Char
  payload : Bytes
  deriving DecidableEq

def isAscii (character : Char) : Bool := character.toNat < 128

/-- The escaped form of a character in an error message. -/
def escapeCharacter (character : Char) : String :=
  if character.toNat < 0x100 then "\\x" ++ hexNat 2 character.toNat
  else if character.toNat < 0x10000 then "\\u" ++ hexNat 4 character.toNat
  else "\\U" ++ hexNat 8 character.toNat

/-- `UnicodeEncodeError` for the first run of characters without a code. -/
def asciiEncodeError (text : List Char) : PyException :=
  let start := text.findIdx fun character => !isAscii character
  match (text.drop start).takeWhile fun character => !isAscii character with
  | [character] =>
      .valueError ("'ascii' codec can't encode character '" ++ escapeCharacter character ++
        "' in position " ++ toString start ++ ": ordinal not in range(128)")
  | run =>
      .valueError ("'ascii' codec can't encode characters in position " ++ toString start ++
        "-" ++ toString (start + run.length - 1) ++ ": ordinal not in range(128)")

def asciiBytes (text : List Char) : Bytes :=
  text.map fun character => UInt8.ofNat character.toNat

/-- `text.encode('ascii')`. -/
def encodeAscii (text : List Char) : Except PyException Bytes :=
  if text.all isAscii then .ok (asciiBytes text)
  else .error (asciiEncodeError text)

/-- `data.decode('ascii', errors='ignore')`. -/
def decodeAscii (data : Bytes) : List Char :=
  (data.filter (· < 128)).map fun byte => Char.ofNat byte.toNat

/-- `create_message`. -/
def createMessage (prim : Primitives) (command : List Char) (payload : Bytes) :
    Except PyException Bytes := do
  let cmdBytes ← encodeAscii command
  if cmdBytes.length > commandLength then
    .error (.valueError ("Command '" ++ String.ofList command ++
      "' exceeds max 12 ASCII characters"))
  else if payload.length ≥ 2 ^ 32 then
    .error (.structError "'I' format requires 0 <= number <= 4294967295")
  else
    let cmdPadded := cmdBytes ++ List.replicate (commandLength - cmdBytes.length) 0
    .ok (magicBytes ++ (cmdPadded ++ (leBytes 4 payload.length ++
      ((prim.hash256 payload).take 4 ++ payload))))

/-- The fields of a header. -/
structure FrameHeader where
  magic : Bytes
  command : List Char
  payloadLen : Nat
  checksum : Bytes
  deriving DecidableEq

/-- `parse_header`. -/
def parseHeader (headerBytes : Bytes) : Except PyException FrameHeader :=
  if headerBytes.length ≠ headerLength then
    .error (.valueError "Header must be exactly 24 bytes")
  else do
    let cmdRaw := (headerBytes.drop 4).take 12
    let payloadLen ← unpack 4 ((headerBytes.drop 16).take 4)
    .ok
      { magic := headerBytes.take 4
        command := decodeAscii (cmdRaw.rdropWhile (· == 0))
        payloadLen := payloadLen
        checksum := (headerBytes.drop 20).take 4 }

/-! ## The read loop -/

/-- What the read loop calls on its connection. -/
structure PeerCallbacks (σ : Type) where
  isConnected : σ → Bool
  sendMessage : σ → List Char → Bytes → σ
  /-- The latency bookkeeping of a pong. -/
  notePong : σ → σ
  /-- `on_message`, with its exceptions swallowed. -/
  onMessage : σ → Frame → σ
  disconnect : σ → σ

/-- `self._read_exact(payload_len) if payload_len > 0 else b''`. -/
def readPayload (payloadLen : Nat) (chunks : List Bytes) : Option (Bytes × List Bytes) :=
  if payloadLen > 0 then readExact payloadLen chunks else some ([], chunks)

/-- The reading part of one round, `none` where the loop breaks. -/
def readFrame (prim : Primitives) (chunks : List Bytes) : Option (Frame × List Bytes) := do
  let (headerBytes, left) ← readExact headerLength chunks
  let header ← (parseHeader headerBytes).toOption
  if header.magic ≠ magicBytes then none
  else if header.payloadLen > maxPayload then none
  else
    let (payload, left) ← readPayload header.payloadLen left
    if (prim.hash256 payload).take 4 ≠ header.checksum then none
    else some (⟨header.command, payload⟩, left)

/-! ## Frames at the front of a stream -/

/-- A header with a payload behind it that the loop accepts. -/
structure FrameHeader.Accepts (prim : Primitives) (header : FrameHeader) (payload : Bytes) :
    Prop where
  magic_eq : header.magic = magicBytes
  payloadLen_le : header.payloadLen ≤ maxPayload
  length_eq : payload.length = header.payloadLen
  checksum_eq : (prim.hash256 payload).take 4 = header.checksum

/-- A stream starts with a complete frame that is in order. -/
structure Starts (prim : Primitives) (stream : Bytes) (frame : Frame) (rest : Bytes) : Prop where
  parsed : ∃ headerBytes header, parseHeader headerBytes = .ok header ∧
    header.Accepts prim frame.payload ∧ header.command = frame.command ∧
    stream = headerBytes ++ (frame.payload ++ rest)

theorem readPayload_eq (payloadLen : Nat) (chunks : List Bytes) :
    readPayload payloadLen chunks = readExact payloadLen chunks := by
  cases payloadLen with
  | zero => rw [readExact_zero, readPayload, if_neg (Nat.lt_irrefl 0)]
  | succ payloadLen => rw [readPayload, if_pos payloadLen.succ_pos]

theorem parseHeader_length {headerBytes : Bytes} {header : FrameHeader}
    (parsed : parseHeader headerBytes = .ok header) : headerBytes.length = headerLength := by
  rw [parseHeader] at parsed
  split_ifs at parsed with wrongLength
  exact not_not.mp wrongLength

theorem readFrame_eq_some {prim : Primitives} {chunks left : List Bytes} {frame : Frame} :
    readFrame prim chunks = some (frame, left) ↔
      ∃ headerBytes afterHeader header,
        readExact headerLength chunks = some (headerBytes, afterHeader) ∧
        parseHeader headerBytes = .ok header ∧ header.Accepts prim frame.payload ∧
        header.command = frame.command ∧
        readExact header.payloadLen afterHeader = some (frame.payload, left) := by
  constructor
  · intro read
    simp only [readFrame, readPayload_eq, bind, Option.bind_eq_some_iff] at read
    obtain ⟨⟨headerBytes, afterHeader⟩, headerRead, header, parsed, read⟩ := read
    have headerOk : parseHeader headerBytes = .ok header := by
      cases result : parseHeader headerBytes with
      | error error => simp [result, Except.toOption] at parsed
      | ok value => simpa [result, Except.toOption] using parsed
    split_ifs at read with wrongMagic tooLong
    rw [Option.bind_eq_some_iff] at read
    obtain ⟨⟨payload, afterPayload⟩, payloadRead, read⟩ := read
    split_ifs at read with wrongChecksum
    cases read
    exact ⟨headerBytes, afterHeader, header, headerRead, headerOk,
      ⟨not_not.mp wrongMagic, Nat.not_lt.mp tooLong, (readExact_eq_some payloadRead).1,
        not_not.mp wrongChecksum⟩, rfl, payloadRead⟩
  · rintro ⟨headerBytes, afterHeader, header, headerRead, parsed, accepts, command, payloadRead⟩
    simp only [readFrame, readPayload_eq, headerRead, parsed, Except.toOption, bind,
      Option.bind_some, payloadRead, accepts.magic_eq, accepts.checksum_eq, command, ne_eq,
      not_true_eq_false, if_false, if_neg (Nat.not_lt.mpr accepts.payloadLen_le)]

theorem readFrame_starts {prim : Primitives} {chunks left : List Bytes} {frame : Frame}
    (read : readFrame prim chunks = some (frame, left)) :
    Starts prim chunks.flatten frame left.flatten := by
  obtain ⟨headerBytes, afterHeader, header, headerRead, parsed, accepts, command,
    payloadRead⟩ := readFrame_eq_some.mp read
  refine ⟨headerBytes, header, parsed, accepts, command, ?_⟩
  rw [(readExact_eq_some payloadRead).2, (readExact_eq_some headerRead).2]

/-- A frame at the front of the stream is read off nonempty chunks. -/
theorem Starts.readFrame_eq {prim : Primitives} {chunks : List Bytes} {frame : Frame}
    {rest : Bytes} (starts : Starts prim chunks.flatten frame rest)
    (nonempty : ∀ chunk ∈ chunks, chunk ≠ []) :
    ∃ left, readFrame prim chunks = some (frame, left) ∧ left.flatten = rest ∧
      ∀ chunk ∈ left, chunk ≠ [] := by
  obtain ⟨headerBytes, header, parsed, accepts, command, stream⟩ := starts.parsed
  obtain ⟨afterHeader, headerRead, afterStream, afterNonempty⟩ :=
    readExact_of_le nonempty stream (parseHeader_length parsed)
  obtain ⟨left, payloadRead, leftStream, leftNonempty⟩ :=
    readExact_of_le afterNonempty afterStream accepts.length_eq
  exact ⟨left, readFrame_eq_some.mpr ⟨headerBytes, afterHeader, header, headerRead, parsed,
    accepts, command, payloadRead⟩, leftStream, leftNonempty⟩

theorem Starts.length_lt {prim : Primitives} {stream rest : Bytes} {frame : Frame}
    (starts : Starts prim stream frame rest) : rest.length < stream.length := by
  obtain ⟨headerBytes, header, parsed, -, -, rfl⟩ := starts.parsed
  rw [List.length_append, List.length_append, parseHeader_length parsed, headerLength]
  omega

/-- A stream starts with one frame only. -/
theorem Starts.unique {prim : Primitives} {stream rest rest' : Bytes} {frame frame' : Frame}
    (starts : Starts prim stream frame rest) (starts' : Starts prim stream frame' rest') :
    frame = frame' ∧ rest = rest' := by
  obtain ⟨headerBytes, header, parsed, accepts, command, rfl⟩ := starts.parsed
  obtain ⟨headerBytes', header', parsed', accepts', command', same⟩ := starts'.parsed
  have lengths : headerBytes.length = headerBytes'.length := by
    rw [parseHeader_length parsed, parseHeader_length parsed']
  obtain ⟨rfl, samePayload⟩ := List.append_inj same lengths
  cases parsed.symm.trans parsed'
  obtain ⟨payloadEq, restEq⟩ := List.append_inj samePayload
    (accepts.length_eq.trans accepts'.length_eq.symm)
  refine ⟨?_, restEq⟩
  cases frame
  cases frame'
  simp_all

/-! ## Runs of the loop -/

namespace PeerCallbacks

variable {σ : Type}

/-- Pings and pongs are handled in the loop itself. -/
def process (peer : PeerCallbacks σ) (state : σ) (frame : Frame) : σ :=
  if frame.command = "ping".toList then
    peer.sendMessage state "pong".toList frame.payload
  else if frame.command = "pong".toList then peer.notePong state
  else peer.onMessage state frame

/-- `_read_loop`: the frames processed and the connection it leaves behind. -/
def readLoop (prim : Primitives) (peer : PeerCallbacks σ) (state : σ) (chunks : List Bytes) :
    List Frame × σ :=
  if peer.isConnected state then
    match _read : readFrame prim chunks with
    | none => ([], peer.disconnect state)
    | some (frame, left) =>
        match readLoop prim peer (peer.process state frame) left with
        | (frames, last) => (frame :: frames, last)
  else ([], peer.disconnect state)
termination_by chunks.flatten.length
decreasing_by exact (readFrame_starts _read).length_lt

/-- The same on frames. -/
def processAll (peer : PeerCallbacks σ) : σ → List Frame → List Frame × σ
  | state, [] => ([], peer.disconnect state)
  | state, frame :: frames =>
      if peer.isConnected state then
        match processAll peer (peer.process state frame) frames with
        | (processed, last) => (frame :: processed, last)
      else ([], peer.disconnect state)

variable {prim : Primitives} {peer : PeerCallbacks σ}

theorem readLoop_of_none {state : σ} {chunks : List Bytes}
    (broken : readFrame prim chunks = none) :
    readLoop prim peer state chunks = ([], peer.disconnect state) := by
  rw [readLoop]
  split_ifs
  · split
    · rfl
    · simp_all
  · rfl

theorem readLoop_of_some {state : σ} {chunks left : List Bytes} {frame : Frame}
    (connected : peer.isConnected state = true)
    (read : readFrame prim chunks = some (frame, left)) :
    readLoop prim peer state chunks =
      match readLoop prim peer (peer.process state frame) left with
      | (frames, last) => (frame :: frames, last) := by
  rw [readLoop, if_pos connected]
  split
  · simp_all
  · simp_all

theorem readLoop_of_closed {state : σ} (closed : peer.isConnected state = false)
    (chunks : List Bytes) : readLoop prim peer state chunks = ([], peer.disconnect state) := by
  rw [readLoop, closed, if_neg (by simp)]

/-- The loop processes the frames the stream starts with, up to where it starts
with none. -/
theorem readLoop_eq_processAll {frames : List Frame} {messages : List Bytes}
    (starts : List.Forall₂ (fun frame message => ∀ rest, Starts prim (message ++ rest) frame rest)
      frames messages)
    {tail : Bytes} (stops : ∀ frame rest, ¬ Starts prim tail frame rest) (state : σ)
    {chunks : List Bytes} (nonempty : ∀ chunk ∈ chunks, chunk ≠ [])
    (stream : chunks.flatten = messages.flatten ++ tail) :
    readLoop prim peer state chunks = peer.processAll state frames := by
  induction starts generalizing state chunks with
  | nil =>
      rw [List.flatten_nil, List.nil_append] at stream
      have broken : readFrame prim chunks = none := by
        rw [Option.eq_none_iff_forall_not_mem]
        rintro ⟨frame, left⟩ read
        exact stops frame left.flatten (stream ▸ readFrame_starts read)
      rw [readLoop_of_none broken, processAll]
  | @cons frame message frames messages first _ ih =>
      rw [List.flatten_cons, List.append_assoc] at stream
      cases connected : peer.isConnected state with
      | false => rw [readLoop_of_closed connected, processAll, connected, if_neg (by simp)]
      | true =>
          obtain ⟨left, read, leftStream, leftNonempty⟩ :=
            (stream ▸ first (messages.flatten ++ tail)).readFrame_eq nonempty
          rw [readLoop_of_some connected read, processAll, if_pos connected,
            ih (peer.process state frame) leftNonempty leftStream]

/-- What becomes of a connection while frames are handled in their order: a ping is answered
with a pong, a pong is noted, and any other frame is handed over, each of them once. -/
inductive Handles (peer : PeerCallbacks σ) : σ → List Frame → σ → Prop
  | done (state : σ) : Handles peer state [] state
  | ping {state last : σ} {payload : Bytes} {frames : List Frame}
      (connected : peer.isConnected state = true)
      (rest : Handles peer (peer.sendMessage state "pong".toList payload) frames last) :
      Handles peer state (⟨"ping".toList, payload⟩ :: frames) last
  | pong {state last : σ} {payload : Bytes} {frames : List Frame}
      (connected : peer.isConnected state = true)
      (rest : Handles peer (peer.notePong state) frames last) :
      Handles peer state (⟨"pong".toList, payload⟩ :: frames) last
  | message {state last : σ} {frame : Frame} {frames : List Frame}
      (connected : peer.isConnected state = true) (notPing : frame.command ≠ "ping".toList)
      (notPong : frame.command ≠ "pong".toList)
      (rest : Handles peer (peer.onMessage state frame) frames last) :
      Handles peer state (frame :: frames) last

/-- The frames have been handled, or those up to the one that has closed the connection. -/
def Processes (peer : PeerCallbacks σ) (state : σ) (frames : List Frame)
    (outcome : List Frame × σ) : Prop :=
  ∃ processed last, processed <+: frames ∧ peer.Handles state processed last ∧
    (processed = frames ∨ peer.isConnected last = false) ∧
    outcome = (processed, peer.disconnect last)

theorem Handles.cons {state last : σ} {frame : Frame} {frames : List Frame}
    (connected : peer.isConnected state = true)
    (rest : peer.Handles (peer.process state frame) frames last) :
    peer.Handles state (frame :: frames) last := by
  obtain ⟨command, payload⟩ := frame
  rw [process] at rest
  split_ifs at rest with isPing isPong
  · cases isPing
    exact .ping connected rest
  · cases isPong
    exact .pong connected rest
  · exact .message connected isPing isPong rest

theorem processAll_processes (state : σ) (frames : List Frame) :
    peer.Processes state frames (peer.processAll state frames) := by
  induction frames generalizing state with
  | nil => exact ⟨[], state, List.nil_prefix, .done state, .inl rfl, rfl⟩
  | cons frame frames ih =>
      rw [processAll]
      cases connected : peer.isConnected state with
      | false => exact ⟨[], state, List.nil_prefix, .done state, .inr connected, rfl⟩
      | true =>
          obtain ⟨processed, last, isPrefix, handled, complete, result⟩ :=
            ih (peer.process state frame)
          rw [if_pos rfl, result]
          refine ⟨frame :: processed, last, (List.prefix_cons_inj frame).mpr isPrefix,
            .cons connected handled, ?_, rfl⟩
          exact complete.imp (congrArg (frame :: ·)) id

end PeerCallbacks

/-! ## Encoded frames -/

/-- What `create_message` and the loop between them transport. -/
structure Frame.Sendable (frame : Frame) : Prop where
  ascii : frame.command.all isAscii = true
  short : frame.command.length ≤ commandLength
  unpadded : frame.command.getLast? ≠ some '\x00'
  payload_le : frame.payload.length ≤ maxPayload

theorem toNat_ofNat_of_isAscii {character : Char} (ascii : isAscii character = true) :
    (UInt8.ofNat character.toNat).toNat = character.toNat := by
  have small : character.toNat < 128 := of_decide_eq_true ascii
  rw [UInt8.toNat_ofNat']
  omega

theorem decodeAscii_encode {text : List Char} (ascii : text.all isAscii = true) :
    decodeAscii (asciiBytes text) = text := by
  induction text with
  | nil => rfl
  | cons character text ih =>
      rw [List.all_cons, Bool.and_eq_true] at ascii
      have value := toNat_ofNat_of_isAscii ascii.1
      have small : UInt8.ofNat character.toNat < 128 := by
        rw [UInt8.lt_iff_toNat_lt, value]
        exact of_decide_eq_true ascii.1
      have rest := ih ascii.2
      rw [decodeAscii, asciiBytes] at rest ⊢
      rw [List.map_cons, List.filter_cons_of_pos (by simpa using small), List.map_cons, rest,
        value, Char.ofNat_toNat]

theorem rdropWhile_append_zeros {data : Bytes} (unpadded : data.getLast? ≠ some 0)
    (count : Nat) :
    (data ++ List.replicate count 0).rdropWhile (· == 0) = data := by
  induction count with
  | zero =>
      rw [List.replicate_zero, List.append_nil, List.rdropWhile_eq_self_iff]
      intro present isZero
      rw [List.getLast?_eq_some_getLast present] at unpadded
      exact unpadded (by simpa using isZero)
  | succ count ih =>
      rw [List.replicate_succ', ← List.append_assoc, List.rdropWhile_concat_pos _ _ _ (by simp),
        ih]

theorem parseHeader_fields {magic cmdRaw checksum : Bytes} {payloadLen : Nat}
    (magicLength : magic.length = 4) (cmdLength : cmdRaw.length = 12)
    (checksumLength : checksum.length = 4) (fits : payloadLen < 256 ^ 4) :
    parseHeader (magic ++ (cmdRaw ++ (leBytes 4 payloadLen ++ checksum))) =
      .ok ⟨magic, decodeAscii (cmdRaw.rdropWhile (· == 0)), payloadLen, checksum⟩ := by
  have length : (magic ++ (cmdRaw ++ (leBytes 4 payloadLen ++ checksum))).length =
      headerLength := by
    simp [magicLength, cmdLength, checksumLength, headerLength]
  have magicEq : (magic ++ (cmdRaw ++ (leBytes 4 payloadLen ++ checksum))).take 4 = magic :=
    List.take_left' magicLength
  have drop4 : (magic ++ (cmdRaw ++ (leBytes 4 payloadLen ++ checksum))).drop 4 =
      cmdRaw ++ (leBytes 4 payloadLen ++ checksum) := List.drop_left' magicLength
  have drop16 : (magic ++ (cmdRaw ++ (leBytes 4 payloadLen ++ checksum))).drop 16 =
      leBytes 4 payloadLen ++ checksum := by
    rw [← List.append_assoc]
    exact List.drop_left' (by rw [List.length_append, magicLength, cmdLength])
  have drop20 : (magic ++ (cmdRaw ++ (leBytes 4 payloadLen ++ checksum))).drop 20 =
      checksum := by
    rw [← List.append_assoc, ← List.append_assoc]
    exact List.drop_left' (by
      rw [List.length_append, List.length_append, magicLength, cmdLength, leBytes_length])
  rw [parseHeader, if_neg (not_not.mpr length)]
  simp only [magicEq, drop4, drop16, drop20, List.take_left' cmdLength,
    List.take_left' (leBytes_length 4 payloadLen), unpack_leBytes fits,
    List.take_of_length_le checksumLength.le]
  rfl

theorem Frame.Sendable.createMessage_eq {prim : Primitives} {frame : Frame}
    (sendable : frame.Sendable) :
    let cmdBytes := asciiBytes frame.command
    createMessage prim frame.command frame.payload =
      .ok (magicBytes ++ ((cmdBytes ++ List.replicate (commandLength - cmdBytes.length) 0) ++
        (leBytes 4 frame.payload.length ++
          ((prim.hash256 frame.payload).take 4 ++ frame.payload)))) := by
  have fits : ¬ frame.payload.length ≥ 2 ^ 32 := by
    have bound := sendable.payload_le
    rw [maxPayload] at bound
    omega
  have short : ¬ (asciiBytes frame.command).length > commandLength := by
    rw [asciiBytes, List.length_map]
    exact Nat.not_lt.mpr sendable.short
  simp only [createMessage, encodeAscii, if_pos sendable.ascii, bind, Except.bind, if_neg short,
    if_neg fits]

/-- An encoded frame is read back, whatever follows it. -/
theorem Frame.Sendable.starts {prim : Primitives} {frame : Frame} (sendable : frame.Sendable)
    {message : Bytes} (created : createMessage prim frame.command frame.payload = .ok message)
    (rest : Bytes) : Starts prim (message ++ rest) frame rest := by
  rw [sendable.createMessage_eq, Except.ok.injEq] at created
  have payloadFits : frame.payload.length < 256 ^ 4 := by
    have bound := sendable.payload_le
    rw [maxPayload] at bound
    omega
  have checksumLength : ((prim.hash256 frame.payload).take 4).length = 4 := by
    rw [List.length_take, prim.hash256_length]
    rfl
  have cmdLength : (asciiBytes frame.command ++
      List.replicate (commandLength - (asciiBytes frame.command).length) 0).length = 12 := by
    have short := sendable.short
    rw [commandLength] at short ⊢
    rw [List.length_append, List.length_replicate, asciiBytes, List.length_map]
    omega
  have unpadded : (asciiBytes frame.command).getLast? ≠ some 0 := by
    rw [asciiBytes, List.getLast?_map]
    intro zero
    obtain ⟨last, isLast, lastZero⟩ := Option.map_eq_some_iff.mp zero
    have ascii := List.all_eq_true.mp sendable.ascii last (List.mem_of_getLast? isLast)
    have value := toNat_ofNat_of_isAscii ascii
    rw [lastZero] at value
    apply sendable.unpadded
    rw [isLast, Option.some.injEq, ← Char.ofNat_toNat last, ← value]
    rfl
  have parsed := @parseHeader_fields magicBytes _ _ _ rfl cmdLength checksumLength payloadFits
  rw [rdropWhile_append_zeros unpadded, decodeAscii_encode sendable.ascii] at parsed
  refine ⟨_, _, parsed, ⟨rfl, sendable.payload_le, rfl, rfl⟩, rfl, ?_⟩
  rw [← created]
  simp only [List.append_assoc]

/-- A frame that has not arrived completely is not processed. -/
theorem Starts.of_truncated {prim : Primitives} {message part missing : Bytes} {frame : Frame}
    (starts : Starts prim message frame []) (cut : message = part ++ missing)
    (incomplete : missing ≠ []) : ∀ other rest, ¬ Starts prim part other rest := by
  intro other rest partStarts
  obtain ⟨headerBytes, header, parsed, accepts, command, partEq⟩ := partStarts.parsed
  have whole : Starts prim message other (rest ++ missing) := by
    refine ⟨headerBytes, header, parsed, accepts, command, ?_⟩
    rw [cut, partEq, List.append_assoc, List.append_assoc]
  have nothing := (starts.unique whole).2
  exact incomplete (List.append_eq_nil_iff.mp nothing.symm).2

/-- A stream starts with a frame whose magic, length or checksum is wrong. -/
structure StartsBroken (prim : Primitives) (stream : Bytes) : Prop where
  parsed : ∃ headerBytes header rest, parseHeader headerBytes = .ok header ∧
    stream = headerBytes ++ rest ∧
    (header.magic ≠ magicBytes ∨ maxPayload < header.payloadLen ∨
      (header.payloadLen ≤ rest.length ∧
        (prim.hash256 (rest.take header.payloadLen)).take 4 ≠ header.checksum))

theorem StartsBroken.stops {prim : Primitives} {stream : Bytes}
    (broken : StartsBroken prim stream) : ∀ frame rest, ¬ Starts prim stream frame rest := by
  intro frame rest starts
  obtain ⟨headerBytes, header, behind, parsed, rfl, wrong⟩ := broken.parsed
  obtain ⟨headerBytes', header', parsed', accepts, -, same⟩ := starts.parsed
  have lengths : headerBytes.length = headerBytes'.length := by
    rw [parseHeader_length parsed, parseHeader_length parsed']
  obtain ⟨rfl, rfl⟩ := List.append_inj same lengths
  cases parsed.symm.trans parsed'
  rcases wrong with wrongMagic | tooLong | ⟨-, wrongChecksum⟩
  · exact wrongMagic accepts.magic_eq
  · exact Nat.not_lt.mpr accepts.payloadLen_le tooLong
  · rw [List.take_left' accepts.length_eq] at wrongChecksum
    exact wrongChecksum accepts.checksum_eq

/-- How many of the first messages lie within a number of bytes. -/
def completeWithin : Nat → List Bytes → Nat
  | _, [] => 0
  | count, message :: messages =>
      if message.length ≤ count then completeWithin (count - message.length) messages + 1
      else 0

/-- A truncated stream is made up of complete messages and the start of one. -/
theorem take_flatten_eq (count : Nat) (messages : List Bytes) :
    ∃ tail, messages.flatten.take count =
        (messages.take (completeWithin count messages)).flatten ++ tail ∧
      (tail = [] ∨ ∃ message ∈ messages, ∃ missing, missing ≠ [] ∧ message = tail ++ missing) := by
  induction messages generalizing count with
  | nil => exact ⟨[], by simp, Or.inl rfl⟩
  | cons message messages ih =>
      rw [completeWithin]
      split_ifs with complete
      · obtain ⟨tail, taken, cut⟩ := ih (count - message.length)
        refine ⟨tail, ?_, ?_⟩
        · rw [List.flatten_cons, List.take_append, List.take_of_length_le complete, taken,
            List.take_succ_cons, List.flatten_cons, List.append_assoc]
        · rcases cut with nothing | ⟨other, member, missing, present, cut⟩
          · exact Or.inl nothing
          · exact Or.inr ⟨other, List.mem_cons_of_mem _ member, missing, present, cut⟩
      · refine ⟨message.take count, ?_, Or.inr ⟨message, List.mem_cons_self,
          message.drop count, ?_, (List.take_append_drop count message).symm⟩⟩
        · rw [List.flatten_cons, List.take_append_of_le_length (Nat.le_of_not_le complete)]
          simp
        · rw [ne_eq, List.drop_eq_nil_iff]
          exact complete

/-! ## Exactness -/

theorem not_starts_nil {prim : Primitives} {frame : Frame} {rest : Bytes} :
    ¬ Starts prim [] frame rest := by
  intro starts
  exact Nat.not_lt_zero _ starts.length_lt

theorem starts_of_created {prim : Primitives} {frames : List Frame} {messages : List Bytes}
    (sendable : ∀ frame ∈ frames, frame.Sendable)
    (created : List.Forall₂ (fun frame message =>
      createMessage prim frame.command frame.payload = .ok message) frames messages) :
    List.Forall₂ (fun frame message => ∀ rest, Starts prim (message ++ rest) frame rest)
      frames messages := by
  induction created with
  | nil => exact .nil
  | cons first _ ih =>
      exact .cons (fun rest => (sendable _ List.mem_cons_self).starts first rest)
        (ih fun other member => sendable other (List.mem_cons_of_mem _ member))

theorem exists_created {prim : Primitives} {frames : List Frame}
    (sendable : ∀ frame ∈ frames, frame.Sendable) :
    ∃ messages, List.Forall₂ (fun frame message =>
      createMessage prim frame.command frame.payload = .ok message) frames messages := by
  induction frames with
  | nil => exact ⟨[], .nil⟩
  | cons frame frames ih =>
      obtain ⟨messages, created⟩ := ih fun other member =>
        sendable other (List.mem_cons_of_mem _ member)
      exact ⟨_ :: messages, .cons (sendable frame List.mem_cons_self).createMessage_eq created⟩

/-- The frames are encoded.  The read loop on the stream of them, however it is cut into
chunks, handles the frames that the stream has completely: the whole stream, a truncated one,
and one that goes on with a broken frame. -/
theorem readLoop_exact {σ : Type} (prim : Primitives) (peer : PeerCallbacks σ) (state : σ)
    (frames : List Frame) (sendable : ∀ frame ∈ frames, frame.Sendable) :
    ∃ messages, List.Forall₂ (fun frame message =>
        createMessage prim frame.command frame.payload = .ok message) frames messages ∧
      ∀ chunks : List Bytes, (∀ chunk ∈ chunks, chunk ≠ []) →
        (chunks.flatten = messages.flatten →
          peer.Processes state frames (peer.readLoop prim state chunks)) ∧
        (∀ count, chunks.flatten = messages.flatten.take count →
          peer.Processes state (frames.take (completeWithin count messages))
            (peer.readLoop prim state chunks)) ∧
        (∀ tail, StartsBroken prim tail → chunks.flatten = messages.flatten ++ tail →
          peer.Processes state frames (peer.readLoop prim state chunks)) := by
  obtain ⟨messages, created⟩ := @exists_created prim frames sendable
  have starts := starts_of_created sendable created
  have silent : ∀ frame rest, ¬ Starts prim [] frame rest := fun _ _ => not_starts_nil
  refine ⟨messages, created, fun chunks nonempty => ⟨?_, ?_, ?_⟩⟩
  · intro stream
    rw [PeerCallbacks.readLoop_eq_processAll starts silent state nonempty (by simp [stream])]
    exact PeerCallbacks.processAll_processes state frames
  · intro count stream
    obtain ⟨tail, taken, cut⟩ := take_flatten_eq count messages
    have stops : ∀ frame rest, ¬ Starts prim tail frame rest := by
      rcases cut with rfl | ⟨message, member, missing, present, cut⟩
      · exact silent
      · obtain ⟨position, within, rfl⟩ := List.getElem_of_mem member
        have first := starts.get (by rw [starts.length_eq]; exact within) within []
        rw [List.append_nil] at first
        exact first.of_truncated cut present
    rw [PeerCallbacks.readLoop_eq_processAll
      (List.forall₂_take (completeWithin count messages) starts) stops state nonempty
      (stream.trans taken)]
    exact PeerCallbacks.processAll_processes state _
  · intro tail broken stream
    rw [PeerCallbacks.readLoop_eq_processAll starts broken.stops state nonempty stream]
    exact PeerCallbacks.processAll_processes state frames

/-! ### A ping and an acknowledgement, byte by byte -/

/-- A connection that stays open and records what it sends and what is handed over. -/
def recordingCallbacks : PeerCallbacks (List Frame) where
  isConnected _ := true
  sendMessage record command payload := record ++ [⟨command, payload⟩]
  notePong record := record
  onMessage record frame := record ++ [frame]
  disconnect record := record

def samplePing : Frame := ⟨"ping".toList, [0x01, 0x02]⟩
def sampleVerack : Frame := ⟨"verack".toList, []⟩

/-- The double SHA-256 digests of the two payloads. -/
def framePrimitives : Primitives :=
  .ofDigests
    [([], 0x56944c5d3f98413ef45cf54545538103cc9f298e0575820ad3591376e2e0f65d),
      ([0x01, 0x02], 0xdb9b643a0e5bacf2a21cb7b532d65caae8b278c3c284cd3d51d215d9ce6aa576)]

def samplePingMessage : Bytes :=
  [0x51, 0x54, 0x59, 0x34, 0x70, 0x69, 0x6e, 0x67, 0, 0, 0, 0, 0, 0, 0, 0, 2, 0, 0, 0,
    0x76, 0xa5, 0x6a, 0xce, 0x01, 0x02]

def sampleVerackMessage : Bytes :=
  [0x51, 0x54, 0x59, 0x34, 0x76, 0x65, 0x72, 0x61, 0x63, 0x6b, 0, 0, 0, 0, 0, 0, 0, 0, 0, 0,
    0x5d, 0xf6, 0xe0, 0xe2]

theorem samplePing_sendable : samplePing.Sendable :=
  ⟨by decide, by decide, by decide, by decide⟩

theorem sampleVerack_sendable : sampleVerack.Sendable :=
  ⟨by decide, by decide, by decide, by decide⟩

/-- Both frames are read off a stream of single bytes; the ping is answered and the other
one handed over. -/
theorem samplePing_sampleVerack_read :
    recordingCallbacks.readLoop framePrimitives []
      ((samplePingMessage ++ sampleVerackMessage).map fun byte => [byte]) =
        ([samplePing, sampleVerack], [⟨"pong".toList, [0x01, 0x02]⟩, sampleVerack]) := by
  obtain ⟨messages, created, reads⟩ :=
    readLoop_exact framePrimitives recordingCallbacks [] [samplePing, sampleVerack] (by
      intro frame member
      rcases List.mem_cons.mp member with rfl | member
      · exact samplePing_sendable
      · rw [List.mem_singleton.mp member]
        exact sampleVerack_sendable)
  have ping : createMessage framePrimitives samplePing.command samplePing.payload =
      .ok samplePingMessage := by
    decide
  have verack : createMessage framePrimitives sampleVerack.command sampleVerack.payload =
      .ok sampleVerackMessage := by
    decide
  obtain ⟨first, rest, createdPing, createdRest, rfl⟩ := List.forall₂_cons_left_iff.mp created
  obtain ⟨second, rest, createdVerack, nothing, rfl⟩ :=
    List.forall₂_cons_left_iff.mp createdRest
  cases nothing
  cases createdPing.symm.trans ping
  cases createdVerack.symm.trans verack
  obtain ⟨processed, last, -, handled, complete, result⟩ :=
    (reads ((samplePingMessage ++ sampleVerackMessage).map fun byte => [byte])
      (by decide)).1 (by decide)
  rcases complete with rfl | impossible
  · rw [result]
    cases handled with
    | ping _ handled =>
        cases handled with
        | message _ _ _ handled =>
            cases handled
            rfl
    | message _ notPing _ _ => exact absurd rfl notPing
  · cases impossible

/-! ## The handlers behind the loop -/

/-- The text of a command. -/
def Command.text : Command → List Char
  | .version => "version".toList
  | .verack => "verack".toList
  | .getblocks => "getblocks".toList
  | .inv => "inv".toList
  | .getdata => "getdata".toList
  | .block => "block".toList
  | .tx => "tx".toList

/-- The command a text stands for; other commands are ignored. -/
def Command.ofText (text : List Char) : Option Command :=
  [.version, .verack, .getblocks, .inv, .getdata, .block, .tx].find? fun command =>
    command.text = text

def Message.toFrame (message : Message) : Frame := ⟨message.command.text, message.payload⟩

/-- The connection of a node: its session and the payloads of the pongs it has
sent. -/
def nodeCallbacks (prim : Primitives) (node : LocalNode) (now : Int64) :
    PeerCallbacks (Session × List Bytes) where
  isConnected state := state.1.peer.isConnected
  sendMessage state _ payload := (state.1, state.2 ++ [payload])
  notePong state := state
  onMessage state frame :=
    match Command.ofText frame.command with
    | none => state
    | some command => (handleMessage prim node now state.1 ⟨command, frame.payload⟩, state.2)
  disconnect state := (state.1.disconnect, state.2)

theorem Command.ofText_text (command : Command) : Command.ofText command.text = some command := by
  cases command <;> decide

/-- The commands of the handlers are handled in the loop under no other name. -/
theorem Command.text_ne (command : Command) :
    command.text ≠ "ping".toList ∧ command.text ≠ "pong".toList := by
  cases command <;> decide

theorem Message.toFrame_sendable {message : Message}
    (short : message.payload.length ≤ maxPayload) : message.toFrame.Sendable := by
  have text : message.command.text.all isAscii = true ∧
      message.command.text.length ≤ commandLength ∧
      message.command.text.getLast? ≠ some '\x00' := by
    cases message.command <;> decide
  exact ⟨text.1, text.2.1, text.2.2, short⟩

/-- A message that is framed, sent and read reaches its handler. -/
theorem nodeCallbacks_process (prim : Primitives) (node : LocalNode) (now : Int64)
    (state : Session × List Bytes) (message : Message) :
    (nodeCallbacks prim node now).process state message.toFrame =
      (handleMessage prim node now state.1 message, state.2) := by
  obtain ⟨notPing, notPong⟩ := message.command.text_ne
  rw [PeerCallbacks.process, Message.toFrame, if_neg notPing, if_neg notPong]
  simp only [nodeCallbacks, Command.ofText_text]

/-- The messages one node sends are the messages the other handles: over a
connection that is not closed the session ends as if they had been handled one
after another. -/
theorem readLoop_handles (prim : Primitives) (node : LocalNode) (now : Int64)
    {session : Session} {sent : List Message}
    (short : ∀ message ∈ sent, message.payload.length ≤ maxPayload)
    (stays : ∀ before, before <+: sent →
      (before.foldl (handleMessage prim node now) session).peer.isConnected = true)
    {messages chunks : List Bytes}
    (created : List.Forall₂ (fun frame message =>
      createMessage prim frame.command frame.payload = .ok message)
      (sent.map Message.toFrame) messages)
    (nonempty : ∀ chunk ∈ chunks, chunk ≠ []) (stream : chunks.flatten = messages.flatten) :
    (nodeCallbacks prim node now).readLoop prim (session, []) chunks =
      (sent.map Message.toFrame,
        ((sent.foldl (handleMessage prim node now) session).disconnect, [])) := by
  have sendable : ∀ frame ∈ sent.map Message.toFrame, frame.Sendable := by
    intro frame member
    obtain ⟨message, memberOf, rfl⟩ := List.mem_map.mp member
    exact Message.toFrame_sendable (short message memberOf)
  rw [PeerCallbacks.readLoop_eq_processAll (starts_of_created sendable created)
    (fun _ _ => not_starts_nil) (session, []) nonempty (by simp [stream])]
  clear created stream sendable short
  induction sent generalizing session with
  | nil => rfl
  | cons message sent ih =>
      have connected : (nodeCallbacks prim node now).isConnected (session, []) = true :=
        stays [] List.nil_prefix
      have rest := @ih (handleMessage prim node now session message) (by
        intro before isPrefix
        exact stays (message :: before) ((List.prefix_cons_inj message).mpr isPrefix))
      rw [List.map_cons, PeerCallbacks.processAll, if_pos connected, nodeCallbacks_process, rest]
      rfl

end QuantyCoin
