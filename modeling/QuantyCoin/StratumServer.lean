import QuantyCoin.IdRegistry
import QuantyCoin.InputSignature
import QuantyCoin.StratumFraming
import QuantyCoin.TraceRuns

/-!
# The Stratum V2 server

`StratumV2Server` of `miner/stratum_v2.py`: the accept loop and one handler
thread for each connection.  The threads interleave between any two accesses to
the state of the server, and a section under the lock is one step.  What the
network does (data, the end of a stream, failing calls) is part of the actions
of a run.
-/

namespace QuantyCoin

open ByteDecoder IdRegistry

/-! ## Payloads -/

def msgSetupConnection : UInt8 := 0x00
def msgSetupConnectionSuccess : UInt8 := 0x01
def msgOpenStandardMiningChannel : UInt8 := 0x10
def msgOpenStandardMiningChannelSuccess : UInt8 := 0x11
def msgNewMiningJob : UInt8 := 0x21
def msgSubmitSharesStandard : UInt8 := 0x30
def msgSubmitSharesSuccess : UInt8 := 0x32
def msgSubmitSharesError : UInt8 := 0x33

/-- `struct.pack('<I', value)` of a number that may not fit. -/
def packCounter (value : Nat) : Except PyException Bytes :=
  if value < 2 ^ 32 then .ok (leBytes 4 value)
  else .error (.structError "'I' format requires 0 <= number <= 4294967295")

/-- `struct.unpack` of two unsigned integers of the same width. -/
def unpackPair (width : Nat) (data : Bytes) : Except PyException (Nat × Nat) :=
  if data.length = 2 * width then .ok (leValue (data.take width), leValue (data.drop width))
  else .error (unpackError (2 * width))

structure SetupConnection where
  protocol : Nat
  minVersion : Nat
  maxVersion : Nat
  flags : Nat
  magic : Nat
  powLane : Nat

/-- `decode_setup_connection`. -/
def decodeSetupConnection (payload : Bytes) : Except PyException SetupConnection := do
  let proto ← byteAt payload 0
  let (minV, maxV) ← unpackPair 2 ((payload.take 5).drop 1)
  let (flags, magic) ← unpackPair 4 ((payload.take 13).drop 5)
  let powLane := match payload[13]? with
    | some lane => lane.toNat
    | none => 0
  .ok ⟨proto, minV, maxV, flags, magic, powLane⟩

/-- `encode_setup_connection_success`. -/
def encodeSetupConnectionSuccess (usedVersion : UInt16) (flags : UInt32) : Bytes :=
  leBytes 2 usedVersion.toNat ++ packU32 flags

/-- `encode_open_standard_channel_success`, of a prefix that is packed in four
bytes. -/
def encodeOpenStandardChannelSuccess (channelId initialTarget : Nat) (extranoncePrefix : Bytes) :
    Except PyException Bytes := do
  let id ← packCounter channelId
  .ok (id ++ leBytes 8 (initialTarget % 2 ^ 64) ++
    UInt8.ofNat extranoncePrefix.length :: extranoncePrefix)

/-- `(pow_lane << 16) | 2`. -/
def laneVersion (powLane : UInt8) : Int32 := Int32.ofNat (powLane.toNat <<< 16 ||| 2)

/-- The previous hash, the Merkle root and the target bits of every job. -/
def jobPrevHash : Bytes := List.replicate 32 0x01
def jobMerkleRoot : Bytes := List.replicate 32 0x02
def jobBits : UInt32 := 0x1e0fffff

/-- `encode_new_mining_job`. -/
def encodeNewMiningJob (channelId jobId : Nat) (powType : UInt8) (version : Int32)
    (prevHash merkleRoot : Bytes) (timestamp : Nat) (bits : UInt32) :
    Except PyException Bytes := do
  let channel ← packCounter channelId
  let job ← packCounter jobId
  let time ← packCounter timestamp
  .ok (channel ++ job ++ [powType] ++ packI32 version ++ prevHash ++ merkleRoot ++ time ++
    packU32 bits)

/-- The fields of `SubmitSharesStandard`. -/
structure SubmitShares where
  channelId : Nat
  sequenceNumber : Nat
  nonce : Nat
  ntime : Nat
  deriving DecidableEq

/-- `decode_submit_shares_standard`. -/
def decodeSubmitSharesStandard (payload : Bytes) : Except PyException SubmitShares := do
  let data := payload.take 16
  if data.length ≠ 16 then .error (unpackError 16)
  else
    .ok ⟨leValue (data.take 4), leValue ((data.drop 4).take 4), leValue ((data.drop 8).take 4),
      leValue (data.drop 12)⟩

/-- `encode_submit_shares_success`; the id and the sequence number come from a
submission, so that only the count may not fit. -/
def encodeSubmitSharesSuccess (channelId lastSeqNum newSharesCount : Nat) :
    Except PyException Bytes := do
  let count ← packCounter newSharesCount
  .ok (leBytes 4 channelId ++ leBytes 4 lastSeqNum ++ count)

inductive ShareError
  | channelNotFound
  | highHash

/-- The error codes: `CHANNEL_NOT_FOUND` and `HIGH_HASH`. -/
def ShareError.code : ShareError → Bytes
  | .channelNotFound =>
      [0x43, 0x48, 0x41, 0x4e, 0x4e, 0x45, 0x4c, 0x5f, 0x4e, 0x4f, 0x54, 0x5f, 0x46, 0x4f, 0x55,
        0x4e, 0x44]
  | .highHash => [0x48, 0x49, 0x47, 0x48, 0x5f, 0x48, 0x41, 0x53, 0x48]

/-- `encode_submit_shares_error`. -/
def encodeSubmitSharesError (channelId seqNum : Nat) (error : ShareError) : Bytes :=
  leBytes 4 channelId ++ leBytes 4 seqNum ++ UInt8.ofNat error.code.length :: error.code

/-! ## Shares -/

/-- An entry of `_channels`. -/
structure MiningChannel where
  powLane : UInt8
  target : Nat
  extranonce : Bytes
  deriving DecidableEq

def shareTarget : Nat := 0x00000fffff000000000000000000000000000000000000000000000000000000

/-- The header that a share is hashed in. -/
def shareHeader (powLane : UInt8) (ntime nonce : Nat) : Bytes :=
  packI32 (laneVersion powLane) ++ jobPrevHash ++ jobMerkleRoot ++ leBytes 4 ntime ++
    packU32 jobBits ++ leBytes 4 nonce

/-- `h_int <= channel["target"]`. -/
def meetsTarget (prim : Primitives) (channel : MiningChannel) (submit : SubmitShares) : Bool :=
  let hdr := shareHeader channel.powLane submit.ntime submit.nonce
  let h := if channel.powLane = 1 then prim.scrypt hdr else prim.hash256 hdr
  leValue h ≤ channel.target

/-! ## Handlers -/

/-- Where a handler is. -/
inductive HandlerPhase
  /-- `while self.is_running`. -/
  | checking
  /-- `sock.recv(4096)`. -/
  | receiving
  /-- `while len(buf) >= 6`. -/
  | decoding
  /-- `sock.sendall`; a new channel gets its first job afterwards. -/
  | sending (frame : Sv2Frame) (opened : Option (Nat × UInt8))
  /-- Before the section that takes a job id. -/
  | numbering (cid : Nat) (powLane : UInt8)
  /-- Before `time.time()`. -/
  | announcing (cid jid : Nat) (powLane : UInt8)
  /-- The channel of a submission was found. -/
  | hashing (submit : SubmitShares) (channel : MiningChannel)
  /-- `self.accepted_shares += 1`, with the value that was read. -/
  | crediting (submit : SubmitShares) (loaded : Nat)
  /-- Before the answer to a credited share. -/
  | credited (submit : SubmitShares)
  /-- `self.rejected_shares += 1`, with the value that was read. -/
  | rejecting (submit : SubmitShares) (loaded : Nat)
  /-- The `finally` block. -/
  | cleaning
  | ended

def HandlerPhase.isEnded : HandlerPhase → Bool
  | .ended => true
  | _ => false

/-- The local variables of `_client_handler`. -/
structure Handler where
  buf : Bytes
  clientChannels : List Nat
  phase : HandlerPhase

/-- The fields of the server that its threads share. -/
structure StratumV2Server where
  isRunning : Bool
  clients : List Nat
  channels : Nat → Option MiningChannel
  nextChannelId : Nat
  nextJobId : Nat
  acceptedShares : Nat
  rejectedShares : Nat

/-- What a step of a handler shows. -/
inductive StratumEvent
  /-- A channel was opened. -/
  | issued (conn cid : Nat) (channel : MiningChannel)
  /-- A submission was read and its channel found. -/
  | found (conn : Nat) (submit : SubmitShares) (channel : MiningChannel)
  /-- `accepted_shares` was incremented for a submission. -/
  | credited (conn : Nat) (submit : SubmitShares)
  /-- A frame was sent. -/
  | sent (conn : Nat) (frame : Sv2Frame)
  deriving DecidableEq

/-- What the network does to a handler. -/
inductive HandlerAction
  /-- `recv` returns, with nothing at the end of the stream. -/
  | receive (data : Bytes)
  /-- `recv` or `sendall` raises. -/
  | fail
  /-- Any other step; the time is used where the handler reads the clock. -/
  | advance (now : Nat)

namespace Handler

def goto (handler : Handler) (phase : HandlerPhase) : Handler := { handler with phase := phase }

/-- Send a message, unless building it raises. -/
def reply (handler : Handler) (msgType : UInt8) (payload : Except PyException Bytes)
    (opened : Option (Nat × UInt8)) : Handler :=
  match payload with
  | .error _ => handler.goto .cleaning
  | .ok payload =>
      match encodeSv2Frame ⟨0, msgType, payload⟩ with
      | .error _ => handler.goto .cleaning
      | .ok _ => handler.goto (.sending ⟨0, msgType, payload⟩ opened)

end Handler

/-- The server and the handler after a step of the handler. -/
abbrev HandlerResult := StratumV2Server × Handler × List StratumEvent

namespace StratumV2Server

/-- `OpenStandardMiningChannel` up to its first answer.  Packing an id that does
not fit raises after the counter was advanced. -/
def openChannel (server : StratumV2Server) (conn : Nat) (handler : Handler) (powLane : UInt8) :
    HandlerResult :=
  let cid := server.nextChannelId
  match packCounter cid with
  | .error _ => ({ server with nextChannelId := cid + 1 }, handler.goto .cleaning, [])
  | .ok extranonce =>
      let channel : MiningChannel := ⟨powLane, shareTarget, extranonce⟩
      let owner := { handler with clientChannels := handler.clientChannels ++ [cid] }
      ({ server with
          nextChannelId := cid + 1
          channels := Function.update server.channels cid (some channel) },
        owner.reply msgOpenStandardMiningChannelSuccess
          (encodeOpenStandardChannelSuccess cid 0x00000fffff extranonce) (some (cid, powLane)),
        [.issued conn cid channel])

/-- `SubmitSharesStandard` up to the lookup of the channel. -/
def findChannel (server : StratumV2Server) (conn : Nat) (handler : Handler)
    (submit : SubmitShares) : HandlerResult :=
  match server.channels submit.channelId with
  | none =>
      (server, handler.reply msgSubmitSharesError
        (.ok (encodeSubmitSharesError submit.channelId submit.sequenceNumber .channelNotFound))
        none, [])
  | some channel => (server, handler.goto (.hashing submit channel), [.found conn submit channel])

/-- `_process_message` up to its first access to the server or the network. -/
def processMessage (server : StratumV2Server) (conn : Nat) (handler : Handler)
    (frame : Sv2Frame) : HandlerResult :=
  if frame.msgType = msgSetupConnection then
    match decodeSetupConnection frame.payload with
    | .error _ => (server, handler.goto .cleaning, [])
    | .ok _ =>
        (server, handler.reply msgSetupConnectionSuccess
          (.ok (encodeSetupConnectionSuccess 2 0)) none, [])
  else if frame.msgType = msgOpenStandardMiningChannel then
    server.openChannel conn handler (frame.payload.headD 0)
  else if frame.msgType = msgSubmitSharesStandard then
    match decodeSubmitSharesStandard frame.payload with
    | .error _ => (server, handler.goto .cleaning, [])
    | .ok submit => server.findChannel conn handler submit
  else (server, handler.goto .decoding, [])

/-- The step of a handler that does not wait for data. -/
def advance (prim : Primitives) (server : StratumV2Server) (conn now : Nat) (handler : Handler) :
    Option HandlerResult :=
  match handler.phase with
  | .checking =>
      some (server, handler.goto (if server.isRunning then .receiving else .cleaning), [])
  | .receiving => none
  | .decoding =>
      match decodeSv2Frame handler.buf with
      | none => some (server, handler.goto .checking, [])
      | some (frame, consumed) =>
          some (server.processMessage conn { handler with buf := handler.buf.drop consumed } frame)
  | .sending frame opened =>
      let next := match opened with
        | none => HandlerPhase.decoding
        | some (cid, powLane) => HandlerPhase.numbering cid powLane
      some (server, handler.goto next, [.sent conn frame])
  | .numbering cid powLane =>
      some ({ server with nextJobId := server.nextJobId + 1 },
        handler.goto (.announcing cid server.nextJobId powLane), [])
  | .announcing cid jid powLane =>
      some (server, handler.reply msgNewMiningJob
        (encodeNewMiningJob cid jid powLane (laneVersion powLane) jobPrevHash jobMerkleRoot now
          jobBits) none, [])
  | .hashing submit channel =>
      if meetsTarget prim channel submit then
        some (server, handler.goto (.crediting submit server.acceptedShares), [])
      else some (server, handler.goto (.rejecting submit server.rejectedShares), [])
  | .crediting submit loaded =>
      some ({ server with acceptedShares := loaded + 1 }, handler.goto (.credited submit),
        [.credited conn submit])
  | .credited submit =>
      some (server, handler.reply msgSubmitSharesSuccess
        (encodeSubmitSharesSuccess submit.channelId submit.sequenceNumber server.acceptedShares)
        none, [])
  | .rejecting submit loaded =>
      some ({ server with rejectedShares := loaded + 1 }, handler.reply msgSubmitSharesError
        (.ok (encodeSubmitSharesError submit.channelId submit.sequenceNumber .highHash)) none, [])
  | .cleaning =>
      some ({ server with
          clients := server.clients.erase conn
          channels := fun cid =>
            if cid ∈ handler.clientChannels then none else server.channels cid },
        handler.goto .ended, [])
  | .ended => none

/-- A step of a handler. -/
def handlerStep (prim : Primitives) (server : StratumV2Server) (conn : Nat) (handler : Handler) :
    HandlerAction → Option HandlerResult
  | .receive data =>
      match handler.phase with
      | .receiving =>
          if data = [] then some (server, handler.goto .cleaning, [])
          else if data.length ≤ 4096 then
            some (server, { handler with buf := handler.buf ++ data, phase := .decoding }, [])
          else none
      | _ => none
  | .fail =>
      match handler.phase with
      | .receiving | .sending _ _ => some (server, handler.goto .cleaning, [])
      | _ => none
  | .advance now => server.advance prim conn now handler

end StratumV2Server

/-! ## The server with its threads -/

/-- The server, whether the accept loop is inside its body, and the handlers of
all connections ever accepted. -/
structure StratumSystem where
  server : StratumV2Server
  accepting : Bool
  handlers : List Handler

inductive StratumAction
  | accept
  /-- `accept` raises. -/
  | acceptFails
  /-- `is_running = False` in `stop`. -/
  | stop
  /-- The locked section of `stop`. -/
  | closeClients
  | handle (conn : Nat) (action : HandlerAction)

namespace StratumSystem

/-- After `start`. -/
def initial : StratumSystem := ⟨⟨true, [], fun _ => none, 1, 1, 0, 0⟩, true, []⟩

def step (prim : Primitives) (system : StratumSystem) :
    StratumAction → Option (StratumSystem × List StratumEvent)
  | .accept =>
      if system.accepting then
        some (⟨{ system.server with clients := system.server.clients ++ [system.handlers.length] },
          system.server.isRunning, system.handlers ++ [⟨[], [], .checking⟩]⟩, [])
      else none
  | .acceptFails =>
      if system.accepting then
        some ({ system with accepting := system.server.isRunning }, [])
      else none
  | .stop => some ({ system with server := { system.server with isRunning := false } }, [])
  | .closeClients =>
      if system.server.isRunning then none
      else some ({ system with server := { system.server with clients := [] } }, [])
  | .handle conn action => do
      let handler ← system.handlers[conn]?
      let (server, handler, events) ← system.server.handlerStep prim conn handler action
      some (⟨server, system.accepting, system.handlers.set conn handler⟩, events)

end StratumSystem

/-- Runs from the start of the server, in which every step is allowed after what
happened before. -/
abbrev StratumRun (prim : Primitives)
    (allowed : List StratumEvent → StratumSystem → StratumAction → Prop) :
    List StratumEvent → StratumSystem → Prop :=
  TraceRuns.Run (StratumSystem.step prim) .initial allowed

/-! ## The table of channels -/

/-- A handler as a holder of channel ids. -/
def Handler.holder (handler : Handler) : Holder :=
  ⟨handler.clientChannels, !handler.phase.isEnded⟩

/-- The part of the state that the table of channels rests on. -/
def StratumSystem.registry (system : StratumSystem) : Registry MiningChannel :=
  ⟨system.server.channels, system.server.nextChannelId, system.handlers.map Handler.holder⟩

/-- The channels opened in a run. -/
def openedChannels (trace : List StratumEvent) : List (Grant MiningChannel) :=
  trace.filterMap fun event =>
    match event with
    | .issued conn cid channel => some ⟨conn, cid, channel⟩
    | _ => none

theorem openedChannels_append (first second : List StratumEvent) :
    openedChannels (first ++ second) = openedChannels first ++ openedChannels second :=
  List.filterMap_append ..

theorem mem_openedChannels {trace : List StratumEvent} {conn cid : Nat}
    {channel : MiningChannel} :
    ⟨conn, cid, channel⟩ ∈ openedChannels trace ↔ .issued conn cid channel ∈ trace := by
  simp only [openedChannels, List.mem_filterMap]
  constructor
  · rintro ⟨event, member, isIssued⟩
    cases event with
    | issued conn' cid' channel' =>
        cases isIssued
        exact member
    | found | credited | sent => cases isIssued
  · exact fun member => ⟨_, member, rfl⟩

/-- What a step of a handler does to the table. -/
inductive TableEffect (server : StratumV2Server) (conn : Nat) (ids : List Nat) :
    HandlerResult → Prop
  /-- Nothing. -/
  | quiet {server' handler' events} (channels : server'.channels = server.channels)
      (next : server'.nextChannelId = server.nextChannelId)
      (holder : handler'.holder = ⟨ids, true⟩) (issued : openedChannels events = []) :
      TableEffect server conn ids (server', handler', events)
  /-- An id did not fit. -/
  | skipped {server' handler' events} (channels : server'.channels = server.channels)
      (next : server'.nextChannelId = server.nextChannelId + 1)
      (holder : handler'.holder = ⟨ids, true⟩) (issued : openedChannels events = []) :
      TableEffect server conn ids (server', handler', events)
  /-- A channel was opened. -/
  | opened {server' handler' events} (channel : MiningChannel)
      (channels : server'.channels =
        Function.update server.channels server.nextChannelId (some channel))
      (next : server'.nextChannelId = server.nextChannelId + 1)
      (holder : handler'.holder = ⟨ids ++ [server.nextChannelId], true⟩)
      (issued : openedChannels events = [⟨conn, server.nextChannelId, channel⟩]) :
      TableEffect server conn ids (server', handler', events)
  /-- The handler ended. -/
  | cleaned {server' handler' events}
      (channels : server'.channels = fun cid => if cid ∈ ids then none else server.channels cid)
      (next : server'.nextChannelId = server.nextChannelId)
      (holder : handler'.holder = ⟨ids, false⟩) (issued : openedChannels events = []) :
      TableEffect server conn ids (server', handler', events)

section Effects

variable {prim : Primitives} {server : StratumV2Server} {conn : Nat} {handler : Handler}

/-- A reply changes the phase: to a frame that is sent, or to the end of the
handler where building the frame raises. -/
theorem Handler.reply_cases (handler : Handler) (msgType : UInt8)
    (payload : Except PyException Bytes) (opened : Option (Nat × UInt8)) :
    handler.reply msgType payload opened = handler.goto .cleaning ∨
      ∃ bytes, payload = .ok bytes ∧ handler.reply msgType payload opened =
        handler.goto (.sending ⟨0, msgType, bytes⟩ opened) := by
  unfold reply
  split
  · exact .inl rfl
  · split
    · exact .inl rfl
    · exact .inr ⟨_, rfl, rfl⟩

theorem Handler.holder_goto {phase : HandlerPhase} (going : phase.isEnded = false) :
    (handler.goto phase).holder = ⟨handler.clientChannels, true⟩ := by
  simp [holder, goto, going]

theorem Handler.holder_reply (msgType : UInt8) (payload : Except PyException Bytes)
    (opened : Option (Nat × UInt8)) :
    (handler.reply msgType payload opened).holder = ⟨handler.clientChannels, true⟩ := by
  obtain failed | ⟨bytes, -, sending⟩ := handler.reply_cases msgType payload opened
  · rw [failed, holder_goto rfl]
  · rw [sending, holder_goto rfl]

theorem openChannel_effect (powLane : UInt8) :
    TableEffect server conn handler.clientChannels
      (server.openChannel conn handler powLane) := by
  unfold StratumV2Server.openChannel
  simp only
  split
  · exact .skipped rfl rfl (Handler.holder_goto rfl) rfl
  · exact .opened _ rfl rfl (Handler.holder_reply ..) rfl

theorem findChannel_effect (submit : SubmitShares) :
    TableEffect server conn handler.clientChannels
      (server.findChannel conn handler submit) := by
  unfold StratumV2Server.findChannel
  split
  · exact .quiet rfl rfl (Handler.holder_reply ..) rfl
  · exact .quiet rfl rfl (Handler.holder_goto rfl) rfl

theorem processMessage_effect (frame : Sv2Frame) :
    TableEffect server conn handler.clientChannels
      (server.processMessage conn handler frame) := by
  unfold StratumV2Server.processMessage
  split_ifs
  · split
    · exact .quiet rfl rfl (Handler.holder_goto rfl) rfl
    · exact .quiet rfl rfl (Handler.holder_reply ..) rfl
  · exact openChannel_effect _
  · split
    · exact .quiet rfl rfl (Handler.holder_goto rfl) rfl
    · exact findChannel_effect _
  · exact .quiet rfl rfl (Handler.holder_goto rfl) rfl

theorem advance_effect {now : Nat} {result : HandlerResult}
    (stepped : server.advance prim conn now handler = some result) :
    TableEffect server conn handler.clientChannels result := by
  unfold StratumV2Server.advance at stepped
  cases phase : handler.phase with
  | receiving | ended =>
      rw [phase] at stepped
      cases stepped
  | checking =>
      rw [phase] at stepped
      cases stepped
      refine .quiet rfl rfl (Handler.holder_goto ?_) rfl
      split_ifs <;> rfl
  | decoding =>
      rw [phase] at stepped
      simp only at stepped
      split at stepped
      · cases stepped
        exact .quiet rfl rfl (Handler.holder_goto rfl) rfl
      · rename_i frame consumed decoded
        cases stepped
        exact @processMessage_effect server conn
          ⟨handler.buf.drop consumed, handler.clientChannels, .decoding⟩ frame
  | sending frame opened =>
      rw [phase] at stepped
      cases stepped
      refine .quiet rfl rfl (Handler.holder_goto ?_) rfl
      cases opened <;> rfl
  | numbering cid powLane =>
      rw [phase] at stepped
      cases stepped
      exact .quiet rfl rfl (Handler.holder_goto rfl) rfl
  | announcing cid jid powLane =>
      rw [phase] at stepped
      cases stepped
      exact .quiet rfl rfl (Handler.holder_reply ..) rfl
  | hashing submit channel =>
      rw [phase] at stepped
      simp only at stepped
      split_ifs at stepped
      all_goals
        cases stepped
        exact .quiet rfl rfl (Handler.holder_goto rfl) rfl
  | crediting submit loaded =>
      rw [phase] at stepped
      cases stepped
      exact .quiet rfl rfl (Handler.holder_goto rfl) rfl
  | credited submit =>
      rw [phase] at stepped
      cases stepped
      exact .quiet rfl rfl (Handler.holder_reply ..) rfl
  | rejecting submit loaded =>
      rw [phase] at stepped
      cases stepped
      exact .quiet rfl rfl (Handler.holder_reply ..) rfl
  | cleaning =>
      rw [phase] at stepped
      cases stepped
      exact .cleaned rfl rfl rfl rfl

/-- A handler that has ended takes no step. -/
theorem live_of_handlerStep {action : HandlerAction} {result : HandlerResult}
    (stepped : server.handlerStep prim conn handler action = some result) :
    handler.holder = ⟨handler.clientChannels, true⟩ := by
  cases phase : handler.phase with
  | ended =>
      cases action <;>
        simp [StratumV2Server.handlerStep, StratumV2Server.advance, phase] at stepped
  | _ =>
      rw [Handler.holder, phase]
      rfl

theorem handlerStep_effect {action : HandlerAction} {result : HandlerResult}
    (stepped : server.handlerStep prim conn handler action = some result) :
    TableEffect server conn handler.clientChannels result := by
  cases action with
  | receive data =>
      simp only [StratumV2Server.handlerStep] at stepped
      split at stepped
      · split_ifs at stepped
        · cases stepped
          exact .quiet rfl rfl (Handler.holder_goto rfl) rfl
        · cases stepped
          exact .quiet rfl rfl rfl rfl
      · cases stepped
  | fail =>
      simp only [StratumV2Server.handlerStep] at stepped
      split at stepped
      · cases stepped
        exact .quiet rfl rfl (Handler.holder_goto rfl) rfl
      · cases stepped
        exact .quiet rfl rfl (Handler.holder_goto rfl) rfl
      · cases stepped
  | advance now => exact advance_effect stepped

end Effects

section Steps

variable {prim : Primitives} {system next : StratumSystem} {events : List StratumEvent}

/-- A step of the system is one of the server, or one of a handler. -/
theorem StratumSystem.step_cases {action : StratumAction}
    (stepped : system.step prim action = some (next, events)) :
    (events = [] ∧ next.server.channels = system.server.channels ∧
      next.server.nextChannelId = system.server.nextChannelId ∧
      (next.handlers = system.handlers ∨
        next.handlers = system.handlers ++ [⟨[], [], .checking⟩])) ∨
    ∃ conn act handler handler', action = .handle conn act ∧
      system.handlers[conn]? = some handler ∧
      system.server.handlerStep prim conn handler act = some (next.server, handler', events) ∧
      next.handlers = system.handlers.set conn handler' := by
  cases action with
  | accept =>
      simp only [step] at stepped
      split_ifs at stepped
      cases stepped
      exact .inl ⟨rfl, rfl, rfl, .inr rfl⟩
  | acceptFails =>
      simp only [step] at stepped
      split_ifs at stepped
      cases stepped
      exact .inl ⟨rfl, rfl, rfl, .inl rfl⟩
  | stop =>
      cases stepped
      exact .inl ⟨rfl, rfl, rfl, .inl rfl⟩
  | closeClients =>
      simp only [step] at stepped
      split_ifs at stepped
      cases stepped
      exact .inl ⟨rfl, rfl, rfl, .inl rfl⟩
  | handle conn act =>
      simp only [step, bind, Option.bind_eq_some_iff] at stepped
      obtain ⟨handler, found, ⟨server', handler', events'⟩, handled, result⟩ := stepped
      cases result
      exact .inr ⟨conn, act, handler, handler', rfl, found, handled, rfl⟩

end Steps

/-- The table of channels is a registry of ids. -/
theorem StratumRun.registry {prim : Primitives}
    {allowed : List StratumEvent → StratumSystem → StratumAction → Prop}
    {trace : List StratumEvent} {system : StratumSystem}
    (run : StratumRun prim allowed trace system) :
    IdRegistry.Run 1 (openedChannels trace) system.registry := by
  induction run with
  | start => exact .start
  | @step trace system action next events _ _ stepped ih =>
      rw [openedChannels_append]
      obtain ⟨rfl, channels, counter, same | joined⟩ |
        ⟨conn, act, handler, handler', rfl, found, handled, handlers⟩ :=
        StratumSystem.step_cases stepped
      · have unchanged : next.registry = system.registry := by
          rw [StratumSystem.registry, channels, counter, same]
          rfl
        rw [unchanged]
        simpa [openedChannels] using ih
      · have added : next.registry = system.registry.join := by
          rw [StratumSystem.registry, channels, counter, joined, List.map_append]
          rfl
        rw [added]
        simpa [openedChannels] using ih.join
      · have present : system.registry.holders[conn]? =
            some ⟨handler.clientChannels, true⟩ := by
          rw [← live_of_handlerStep handled]
          simp [StratumSystem.registry, found]
        have holders : next.registry.holders =
            system.registry.holders.set conn handler'.holder := by
          rw [StratumSystem.registry, handlers, List.map_set]
          rfl
        have kept (holder : handler'.holder = ⟨handler.clientChannels, true⟩) :
            next.registry.holders = system.registry.holders := by
          obtain ⟨inside, here⟩ := List.getElem?_eq_some_iff.mp present
          rw [holders, holder, ← here, List.set_getElem_self]
        have registryEq {table counter holders} (channels : next.server.channels = table)
            (counterEq : next.server.nextChannelId = counter)
            (holdersEq : next.registry.holders = holders) :
            next.registry = ⟨table, counter, holders⟩ := by
          rw [← channels, ← counterEq, ← holdersEq]
          rfl
        generalize resultEq : (next.server, handler', events) = result at handled
        cases handlerStep_effect handled with
        | quiet channels counter holder issued =>
            cases resultEq
            rw [issued, List.append_nil, registryEq channels counter (kept holder)]
            exact ih
        | skipped channels counter holder issued =>
            cases resultEq
            rw [issued, List.append_nil, registryEq channels counter (kept holder)]
            exact ih.skip
        | opened channel channels counter holder issued =>
            cases resultEq
            rw [issued, registryEq channels counter (holder ▸ holders)]
            exact ih.issue conn _ channel present
        | cleaned channels counter holder issued =>
            cases resultEq
            rw [issued, List.append_nil, registryEq channels counter (holder ▸ holders)]
            exact ih.leave conn _ present

namespace StratumSystem

/-- A connection whose handler has not ended has the id in its list. -/
def Holds (system : StratumSystem) (conn cid : Nat) : Prop :=
  ∃ handler, system.handlers[conn]? = some handler ∧ handler.phase.isEnded = false ∧
    cid ∈ handler.clientChannels

theorem holder_of_holds {system : StratumSystem} {conn cid : Nat} (holds : system.Holds conn cid) :
    ∃ ids, system.registry.holders[conn]? = some ⟨ids, true⟩ ∧ cid ∈ ids := by
  obtain ⟨handler, found, live, member⟩ := holds
  refine ⟨handler.clientChannels, ?_, member⟩
  simp [registry, found, Handler.holder, live]

theorem holds_of_holder {system : StratumSystem} {conn cid : Nat} {ids : List Nat}
    (present : system.registry.holders[conn]? = some ⟨ids, true⟩) (member : cid ∈ ids) :
    system.Holds conn cid := by
  simp only [registry, List.getElem?_map, Option.map_eq_some_iff] at present
  obtain ⟨handler, found, holder⟩ := present
  simp only [Handler.holder, Holder.mk.injEq, Bool.not_eq_true'] at holder
  exact ⟨handler, found, holder.2, holder.1 ▸ member⟩

end StratumSystem

/-- What relates the table, the lists of the handlers and the ids issued so
far. -/
structure ChannelTable (trace : List StratumEvent) (system : StratumSystem) : Prop where
  owned : ∀ cid, (system.server.channels cid).isSome → ∃! conn, system.Holds conn cid
  stored : ∀ conn cid, system.Holds conn cid → (system.server.channels cid).isSome
  below : ∀ grant ∈ openedChannels trace, grant.id < system.server.nextChannelId
  distinct : ((openedChannels trace).map Grant.id).Nodup
  issued : ∀ (conn : Nat) handler, system.handlers[conn]? = some handler →
    ∀ cid ∈ handler.clientChannels, ∃ channel, ⟨conn, cid, channel⟩ ∈ openedChannels trace
  removed : ∀ (conn : Nat) handler, system.handlers[conn]? = some handler →
    handler.phase.isEnded = true → ∀ cid ∈ handler.clientChannels,
      system.server.channels cid = none

section Invariant

variable {prim : Primitives}
  {allowed : List StratumEvent → StratumSystem → StratumAction → Prop}
  {trace : List StratumEvent} {system : StratumSystem}

theorem StratumRun.found_holder {conn : Nat} {handler : Handler}
    (found : system.handlers[conn]? = some handler) :
    system.registry.holders[conn]? = some handler.holder := by
  simp [StratumSystem.registry, found]

/-- The connection that has a channel of the table. -/
theorem StratumRun.exists_unique_holds (run : StratumRun prim allowed trace system) {cid : Nat}
    (present : (system.server.channels cid).isSome) : ∃! conn, system.Holds conn cid := by
  have consistent := run.registry.consistent
  obtain ⟨channel, stored⟩ := Option.isSome_iff_exists.mp present
  obtain ⟨conn, ids, live, member⟩ := (consistent.table_iff cid channel).mp stored
  have inList := (consistent.granted _ _ live cid).mpr ⟨channel, member⟩
  refine ⟨conn, StratumSystem.holds_of_holder live inList, ?_⟩
  intro other holds
  obtain ⟨ids', live', inList'⟩ := StratumSystem.holder_of_holds holds
  obtain ⟨channel', member'⟩ := (consistent.granted _ _ live' cid).mp inList'
  exact congrArg Grant.holder (consistent.eq_of_id_eq member' member rfl)

theorem StratumRun.opened_of_member (run : StratumRun prim allowed trace system) {conn cid : Nat}
    {handler : Handler} (found : system.handlers[conn]? = some handler)
    (member : cid ∈ handler.clientChannels) :
    ∃ channel, ⟨conn, cid, channel⟩ ∈ openedChannels trace :=
  (run.registry.consistent.granted _ _ (found_holder found) cid).mp member

/-- The table in every state of every run. -/
theorem StratumRun.channelTable (run : StratumRun prim allowed trace system) :
    ChannelTable trace system := by
  have consistent := run.registry.consistent
  refine ⟨?_, ?_, consistent.below, ?_, ?_, ?_⟩
  · exact fun cid present => run.exists_unique_holds present
  · intro conn cid holds
    obtain ⟨ids, live, inList⟩ := StratumSystem.holder_of_holds holds
    obtain ⟨channel, member⟩ := (consistent.granted _ _ live cid).mp inList
    exact Option.isSome_iff_exists.mpr
      ⟨channel, (consistent.table_iff cid channel).mpr ⟨conn, ids, live, member⟩⟩
  · exact consistent.increasing.imp fun less => Nat.ne_of_lt less
  · intro conn handler found cid member
    exact run.opened_of_member found member
  · intro conn handler found ended cid member
    obtain ⟨channel, granted⟩ := run.opened_of_member found member
    rw [Option.eq_none_iff_forall_not_mem]
    intro channel' stored
    obtain ⟨other, ids, live, member'⟩ := (consistent.table_iff cid channel').mp stored
    have same : other = conn :=
      congrArg Grant.holder (consistent.eq_of_id_eq member' granted rfl)
    rw [same, found_holder found, Handler.holder, ended] at live
    cases live

end Invariant

/-! ## Sample runs -/

instance (system : StratumSystem) (conn cid : Nat) : Decidable (system.Holds conn cid) :=
  match found : system.handlers[conn]? with
  | none => isFalse fun ⟨_, present, _⟩ => by cases found.symm.trans present
  | some handler =>
      decidable_of_iff (handler.phase.isEnded = false ∧ cid ∈ handler.clientChannels)
        ⟨fun holds => ⟨handler, found, holds⟩, fun ⟨_, present, holds⟩ =>
          Option.some.inj (found.symm.trans present) ▸ holds⟩

/-- A frame on the wire. -/
def sv2Message (msgType : UInt8) (payload : Bytes) : Bytes :=
  [0, 0, msgType] ++ (leBytes 4 payload.length).take 3 ++ payload

/-- A new connection opens a channel on the first lane. -/
def openingSteps (conn : Nat) : List StratumAction :=
  [.accept, .handle conn (.advance 0),
    .handle conn (.receive (sv2Message msgOpenStandardMiningChannel [0]))] ++
    List.replicate 7 (.handle conn (.advance 0))

/-- Two connections open channels, and the first one disconnects. -/
def departureSteps : List StratumAction :=
  openingSteps 0 ++ openingSteps 1 ++
    [.handle 0 (.receive []), .handle 0 (.advance 0)]

theorem departure_channelTable :
    ∃ trace system, (openedChannels trace).map Grant.id = [1, 2] ∧
      system.server.channels 1 = none ∧ system.Holds 1 2 ∧ ChannelTable trace system := by
  have computed : (TraceRuns.follow (StratumSystem.step (.ofDigests [])) (fun _ _ _ => True) []
      .initial departureSteps).any (fun result => (openedChannels result.1).map Grant.id = [1, 2] ∧
        result.2.server.channels 1 = none ∧ result.2.Holds 1 2) = true := by
    decide
  obtain ⟨⟨trace, system⟩, taken, shown⟩ := (Option.any_eq_true _ _).mp computed
  obtain ⟨issued, gone, kept⟩ := of_decide_eq_true shown
  exact ⟨trace, system, issued, gone, kept,
    StratumRun.channelTable (TraceRuns.Run.start.of_follow taken)⟩

end QuantyCoin
