import QuantyCoin.BranchSwitch
import QuantyCoin.WireProtocol

/-!
# Handling the messages of a peer

`PeerConnection` of `network/peer.py` and `P2PManager._handle_message` of
`network/p2p_server.py`.  A handler changes what the node knows of the peer and
puts messages on the wire; an exception ends it and is swallowed, with what it
has sent before already under way.  Blocks and transactions go to the
chainstate, which is not part of the connection.
-/

namespace QuantyCoin

open BranchSwitch ByteDecoder

structure PeerConnection where
  isInbound : Bool
  isConnected : Bool
  handshakeComplete : Bool
  peerVersion : Option Int32
  peerHeight : Int
  userAgent : Bytes
  deriving DecidableEq

/-- The initial state of a connection. -/
def PeerConnection.new (isInbound : Bool) : PeerConnection :=
  ⟨isInbound, true, false, none, 0, []⟩

/-- A connection and the messages put on the wire. -/
structure Session where
  peer : PeerConnection
  sent : List Message
  deriving DecidableEq

/-- The callbacks of `P2PManager` to its node. -/
structure LocalNode where
  localHeight : Nat
  getBlockByHeight : Int → Except PyException (Option Bytes)
  getBlockByHash : Bytes → Except PyException (Option Bytes)
  getTxByHash : Bytes → Option Bytes

/-! ## Sending -/

/-- `disconnect`. -/
def Session.disconnect (session : Session) : Session :=
  { session with peer := { session.peer with isConnected := false } }

/-- `send_message` over a socket that does not fail: only a payload whose length
does not fit the frame header ends the connection. -/
def Session.sendMessage (session : Session) (command : Command) (payload : Bytes) :
    Session :=
  if !session.peer.isConnected then session
  else if payload.length ≥ 2 ^ 32 then session.disconnect
  else { session with sent := session.sent ++ [⟨command, payload⟩] }

theorem sendMessage_small {session : Session} (connected : session.peer.isConnected = true)
    (command : Command) {payload : Bytes} (short : payload.length < 2 ^ 32) :
    session.sendMessage command payload =
      { session with sent := session.sent ++ [⟨command, payload⟩] } := by
  rw [Session.sendMessage, if_neg (by simp [connected]), if_neg (Nat.not_le.mpr short)]

/-- `send_version`. -/
def sendVersion (localHeight : Nat) (now : Int64) (session : Session) :
    Except PyException Unit × Session :=
  match buildVersionPayload localHeight now with
  | .error error => (.error error, session)
  | .ok payload => (.ok (), session.sendMessage .version payload)

/-- `send_message(command, build_inv_payload(items))`. -/
def sendInventory (command : Command) (items : List InvItem) (session : Session) :
    Except PyException Unit × Session :=
  match buildInvPayload items with
  | .error error => (.error error, session)
  | .ok payload => (.ok (), session.sendMessage command payload)

/-! ## The handlers -/

/-- The `version` branch. -/
def handleVersion (node : LocalNode) (now : Int64) (payload : Bytes) (session : Session) :
    Except PyException Unit × Session :=
  match parseVersionPayload payload with
  | .error error => (.error error, session)
  | .ok info =>
      let session :=
        { session with
          peer :=
            { session.peer with
              peerVersion := some info.version
              peerHeight := info.startHeight.toInt
              userAgent := info.userAgent } }
      let session := session.sendMessage .verack []
      if session.peer.isInbound then sendVersion node.localHeight now session
      else (.ok (), session)

/-- The `verack` branch. -/
def handleVerack (node : LocalNode) (session : Session) :
    Except PyException Unit × Session :=
  let session := { session with peer := { session.peer with handshakeComplete := true } }
  if session.peer.peerHeight > (node.localHeight : Int) then
    match packHeight node.localHeight with
    | .error error => (.error error, session)
    | .ok payload => (.ok (), session.sendMessage .getblocks payload)
  else (.ok (), session)

/-- `struct.unpack('<i', payload)[0] if len(payload) >= 4 else 0`. -/
def parseStartHeight (payload : Bytes) : Except PyException Int :=
  if payload.length ≥ 4 then
    (unpack 4 payload).map fun value => (UInt32.ofNat value).toInt32.toInt
  else .ok 0

/-- `range(start_height + 1, self.get_local_height() + 1)`. -/
def heightsAfter (startHeight : Int) (localHeight : Nat) : List Int :=
  (List.range (localHeight - startHeight).toNat).map fun step : Nat =>
    startHeight + 1 + (step : Int)

/-- A missing or empty answer counts as `False`. -/
def whenTruthy (raw : Option Bytes) : Option Bytes := raw.filter fun data => !data.isEmpty

/-- The loop of the `getblocks` branch. -/
def collectInvItems (prim : Primitives) (node : LocalNode) :
    List Int → Except PyException (List InvItem)
  | [] => .ok []
  | height :: heights => do
      match whenTruthy (← node.getBlockByHeight height) with
      | none => collectInvItems prim node heights
      | some raw =>
          let read ← Block.deserialize raw
          let items ← collectInvItems prim node heights
          .ok ((invTypeBlock, read.1.hash prim) :: items)

/-- The `getblocks` branch. -/
def handleGetblocks (prim : Primitives) (node : LocalNode) (payload : Bytes)
    (session : Session) : Except PyException Unit × Session :=
  match (parseStartHeight payload).bind fun startHeight =>
      collectInvItems prim node (heightsAfter startHeight node.localHeight) with
  | .error error => (.error error, session)
  | .ok [] => (.ok (), session)
  | .ok items => sendInventory .inv items session

/-- The `inv` branch: everything is requested. -/
def handleInv (payload : Bytes) (session : Session) : Except PyException Unit × Session :=
  match parseInvPayload payload with
  | .error error => (.error error, session)
  | .ok [] => (.ok (), session)
  | .ok items => sendInventory .getdata items session

/-- The body of the loop of the `getdata` branch. -/
def serveItem (node : LocalNode) (session : Session) (item : InvItem) :
    Except PyException Unit × Session :=
  if item.1 = invTypeBlock then
    match node.getBlockByHash item.2 with
    | .error error => (.error error, session)
    | .ok answer =>
        match whenTruthy answer with
        | none => (.ok (), session)
        | some rawBlock => (.ok (), session.sendMessage .block rawBlock)
  else if item.1 = invTypeTx then
    match whenTruthy (node.getTxByHash item.2) with
    | none => (.ok (), session)
    | some rawTx => (.ok (), session.sendMessage .tx rawTx)
  else (.ok (), session)

/-- The `getdata` branch. -/
def handleGetdata (node : LocalNode) (payload : Bytes) (session : Session) :
    Except PyException Unit × Session :=
  match parseInvPayload payload with
  | .error error => (.error error, session)
  | .ok items => runAll (serveItem node) session items

/-- `_handle_message`. -/
def handleMessage (prim : Primitives) (node : LocalNode) (now : Int64) (session : Session)
    (message : Message) : Session :=
  Prod.snd <|
    match message.command with
    | .version => handleVersion node now message.payload session
    | .verack => handleVerack node session
    | .getblocks => handleGetblocks prim node message.payload session
    | .inv => handleInv message.payload session
    | .getdata => handleGetdata node message.payload session
    | .block | .tx => (.ok (), session)

/-! ## What the handlers of block traffic leave alone -/

/-- The messages that answer a request for blocks or transactions. -/
def Message.isTraffic (message : Message) : Bool :=
  match message.command with
  | .inv | .getdata | .block | .tx => true
  | .version | .verack | .getblocks => false

/-- A session has at most ended its connection and sent traffic. -/
structure Session.Continues (session later : Session) : Prop where
  peer_eq : later.peer = { session.peer with isConnected := later.peer.isConnected }
  sent_eq : ∃ more, later.sent = session.sent ++ more ∧
    ∀ message ∈ more, message.isTraffic = true

namespace Session.Continues

theorem refl (session : Session) : session.Continues session :=
  ⟨rfl, [], by simp, by simp⟩

theorem trans {first second third : Session} (start : first.Continues second)
    (rest : second.Continues third) : first.Continues third := by
  obtain ⟨more, sentEq, traffic⟩ := start.sent_eq
  obtain ⟨more', sentEq', traffic'⟩ := rest.sent_eq
  refine ⟨?_, more ++ more', by rw [sentEq', sentEq, List.append_assoc], ?_⟩
  · rw [rest.peer_eq, start.peer_eq]
  · intro message member
    rcases List.mem_append.mp member with member | member
    · exact traffic message member
    · exact traffic' message member

theorem sendMessage (session : Session) {command : Command} {payload : Bytes}
    (traffic : Message.isTraffic ⟨command, payload⟩ = true) :
    session.Continues (session.sendMessage command payload) := by
  rw [Session.sendMessage]
  split_ifs
  · exact refl session
  · exact ⟨rfl, [], by simp [Session.disconnect], by simp⟩
  · exact ⟨rfl, [⟨command, payload⟩], rfl, by simpa using traffic⟩

theorem sendInventory (session : Session) {command : Command} (items : List InvItem)
    (traffic : ∀ payload, Message.isTraffic ⟨command, payload⟩ = true) :
    session.Continues (sendInventory command items session).2 := by
  rw [QuantyCoin.sendInventory]
  cases buildInvPayload items with
  | error error => exact refl session
  | ok payload => exact sendMessage session (traffic payload)

theorem handleGetblocks (prim : Primitives) (node : LocalNode) (payload : Bytes)
    (session : Session) :
    session.Continues (handleGetblocks prim node payload session).2 := by
  rw [QuantyCoin.handleGetblocks]
  split
  · exact refl session
  · exact refl session
  · exact sendInventory session _ fun _ => rfl

theorem handleInv (payload : Bytes) (session : Session) :
    session.Continues (handleInv payload session).2 := by
  rw [QuantyCoin.handleInv]
  split
  · exact refl session
  · exact refl session
  · exact sendInventory session _ fun _ => rfl

theorem serveItem (node : LocalNode) (session : Session) (item : InvItem) :
    session.Continues (serveItem node session item).2 := by
  rw [QuantyCoin.serveItem]
  split_ifs
  · cases node.getBlockByHash item.2 with
    | error error => exact refl session
    | ok answer =>
        cases truthy : whenTruthy answer with
        | none => simpa [truthy] using refl session
        | some rawBlock =>
            simpa [truthy] using @sendMessage session .block rawBlock rfl
  · cases truthy : whenTruthy (node.getTxByHash item.2) with
    | none => exact refl session
    | some rawTx => exact sendMessage session rfl
  · exact refl session

theorem handleGetdata (node : LocalNode) (payload : Bytes) (session : Session) :
    session.Continues (handleGetdata node payload session).2 := by
  rw [QuantyCoin.handleGetdata]
  cases parseInvPayload payload with
  | error error => exact refl session
  | ok items => exact runAll_relates refl (fun _ _ _ => trans) (serveItem node) session items

/-- Outside of the handshake a message is answered by traffic only. -/
theorem handleMessage (prim : Primitives) (node : LocalNode) (now : Int64)
    (session : Session) {message : Message} (notVersion : message.command ≠ .version)
    (notVerack : message.command ≠ .verack) :
    session.Continues (handleMessage prim node now session message) := by
  rw [QuantyCoin.handleMessage]
  cases command : message.command with
  | version => exact (notVersion command).elim
  | verack => exact (notVerack command).elim
  | getblocks => exact handleGetblocks prim node message.payload session
  | inv => exact handleInv message.payload session
  | getdata => exact handleGetdata node message.payload session
  | block => exact refl session
  | tx => exact refl session

end Session.Continues

end QuantyCoin
