import QuantyCoin.PeerMessages

/-!
# The handshake of two peers

One node has called `connect_to_peer`, the other has accepted.  The messages of
each direction are delivered in order, the two directions interleave freely.

A node decides whether to request blocks when it handles `verack`.  The
responder sends `verack` before its own `version`, so the initiator decides
while it still takes the height of its peer to be zero, and never requests
anything.  The responder decides with the height it was told.
-/

namespace QuantyCoin

open ByteDecoder

/-! ## Two connected nodes -/

/-- The two ends of a connection, the messages under way to each, and all that
each has ever sent. -/
structure Link where
  initiator : PeerConnection
  responder : PeerConnection
  toInitiator : List Message
  toResponder : List Message
  sentByInitiator : List Message
  sentByResponder : List Message
  deriving DecidableEq

/-- `connect_to_peer` at one end and the accepted connection at the other. -/
def connectToPeer (initiatorNode : LocalNode) (now : Int64) : Link :=
  let session := (sendVersion initiatorNode.localHeight now ⟨.new false, []⟩).2
  { initiator := session.peer
    responder := .new true
    toInitiator := []
    toResponder := session.sent
    sentByInitiator := session.sent
    sentByResponder := [] }

namespace Link

/-- The initiator has handled the first of `message :: rest`. -/
def deliverToInitiator (link : Link) (session : Session) (rest : List Message) : Link :=
  { link with
    initiator := session.peer
    toInitiator := rest
    toResponder := link.toResponder ++ session.sent
    sentByInitiator := link.sentByInitiator ++ session.sent }

/-- The responder has handled the first of `message :: rest`. -/
def deliverToResponder (link : Link) (session : Session) (rest : List Message) : Link :=
  { link with
    responder := session.peer
    toResponder := rest
    toInitiator := link.toInitiator ++ session.sent
    sentByResponder := link.sentByResponder ++ session.sent }

end Link

/-- What two nodes can reach by deliveries in any order. -/
inductive LinkReaches (prim : Primitives) (initiatorNode responderNode : LocalNode) :
    Link → Prop
  | connect (now : Int64) :
      LinkReaches prim initiatorNode responderNode (connectToPeer initiatorNode now)
  | toInitiator {link : Link} {message : Message} {rest : List Message}
      (reached : LinkReaches prim initiatorNode responderNode link)
      (queued : link.toInitiator = message :: rest)
      (connected : link.initiator.isConnected = true) (now : Int64) :
      LinkReaches prim initiatorNode responderNode (link.deliverToInitiator
        (handleMessage prim initiatorNode now ⟨link.initiator, []⟩ message) rest)
  | toResponder {link : Link} {message : Message} {rest : List Message}
      (reached : LinkReaches prim initiatorNode responderNode link)
      (queued : link.toResponder = message :: rest)
      (connected : link.responder.isConnected = true) (now : Int64) :
      LinkReaches prim initiatorNode responderNode (link.deliverToResponder
        (handleMessage prim responderNode now ⟨link.responder, []⟩ message) rest)

/-- Both ends have handled the other's version and its acknowledgement. -/
def Link.HandshakeDone (link : Link) : Prop :=
  (link.initiator.handshakeComplete = true ∧ link.initiator.peerVersion.isSome = true) ∧
    link.responder.handshakeComplete = true ∧ link.responder.peerVersion.isSome = true

/-- A node that is behind the height it was told has asked for blocks from its
own height on. -/
def HasRequested (localHeight : Nat) (peer : PeerConnection) (sent : List Message) : Prop :=
  localHeight < peer.peerHeight →
    ∃ payload, packHeight localHeight = .ok payload ∧ ⟨.getblocks, payload⟩ ∈ sent

/-! ## Single messages -/

/-- A version message that tells a height. -/
def Tells (height : Nat) (message : Message) : Prop :=
  message.command = .version ∧ height < 2147483648 ∧
    ∃ now, parseVersionPayload message.payload = .ok (ownVersionInfo height now)

/-- A connection that has been told a height. -/
def PeerConnection.told (peer : PeerConnection) (height : Nat) : PeerConnection :=
  { peer with
    peerVersion := some 70040
    peerHeight := height
    userAgent := defaultUserAgent }

def PeerConnection.completed (peer : PeerConnection) : PeerConnection :=
  { peer with handshakeComplete := true }

def verackMessage : Message := ⟨.verack, []⟩

theorem buildVersionPayload_length {height : Nat} {now : Int64} {payload : Bytes}
    (built : buildVersionPayload height now = .ok payload) : payload.length < 2 ^ 32 := by
  rw [buildVersionPayload] at built
  cases packed : packHeight height with
  | error error => simp [packed, Except.map] at built
  | ok bytes =>
      obtain ⟨-, rfl⟩ := packHeight_eq_ok.mp packed
      simp only [packed, Except.map, Except.ok.injEq] at built
      rw [← built]
      simp [packI32, packU64, packI64, defaultUserAgent]

/-- Sending a version puts a message on the wire that tells the height, unless
the height does not fit. -/
theorem sendVersion_cases (height : Nat) (now : Int64) {session : Session}
    (connected : session.peer.isConnected = true) :
    (sendVersion height now session).2 = session ∨
      ∃ message, Tells height message ∧
        (sendVersion height now session).2 =
          { session with sent := session.sent ++ [message] } := by
  cases built : buildVersionPayload height now with
  | error error => simp [sendVersion, built]
  | ok payload =>
      right
      obtain ⟨fits, parsed⟩ := parseVersionPayload_build built
      refine ⟨⟨.version, payload⟩, ⟨rfl, fits, now, parsed⟩, ?_⟩
      simp only [sendVersion, built]
      exact sendMessage_small connected .version (buildVersionPayload_length built)

theorem Tells.startHeight {height : Nat} {message : Message} (tells : Tells height message) :
    ∃ info, parseVersionPayload message.payload = .ok info ∧ info.version = 70040 ∧
      info.startHeight.toInt = height ∧ info.userAgent = defaultUserAgent := by
  obtain ⟨-, fits, now, parsed⟩ := tells
  exact ⟨_, parsed, rfl, ownVersionInfo_startHeight fits now, rfl⟩

section Handling

variable {prim : Primitives} {node : LocalNode} {now : Int64} {peer : PeerConnection}
  {message : Message} {height : Nat}

/-- The initiator acknowledges a version. -/
theorem handleMessage_version_outbound (tells : Tells height message)
    (connected : peer.isConnected = true) (outbound : peer.isInbound = false) :
    handleMessage prim node now ⟨peer, []⟩ message =
      ⟨peer.told height, [verackMessage]⟩ := by
  obtain ⟨info, parsed, version, startHeight, userAgent⟩ := tells.startHeight
  simp only [handleMessage, tells.1, handleVersion, parsed, version, startHeight, userAgent]
  rw [sendMessage_small connected .verack (by simp), if_neg (by simp [outbound])]
  rfl

/-- The responder acknowledges a version and tells its own height if it fits. -/
theorem handleMessage_version_inbound (tells : Tells height message)
    (connected : peer.isConnected = true) (inbound : peer.isInbound = true) :
    ∃ greeting, (greeting = [] ∨ ∃ told, greeting = [told] ∧ Tells node.localHeight told) ∧
      handleMessage prim node now ⟨peer, []⟩ message =
        ⟨peer.told height, verackMessage :: greeting⟩ := by
  obtain ⟨info, parsed, version, startHeight, userAgent⟩ := tells.startHeight
  have acknowledged : (⟨peer.told height, []⟩ : Session).sendMessage .verack [] =
      ⟨peer.told height, [verackMessage]⟩ := sendMessage_small connected .verack (by simp)
  have greeted := @sendVersion_cases node.localHeight now
    ⟨peer.told height, [verackMessage]⟩ connected
  have handled : handleMessage prim node now ⟨peer, []⟩ message =
      (sendVersion node.localHeight now ⟨peer.told height, [verackMessage]⟩).2 := by
    simp only [handleMessage, tells.1, handleVersion, parsed, version, startHeight, userAgent]
    rw [PeerConnection.told] at acknowledged
    rw [acknowledged, if_pos inbound]
    rfl
  rcases greeted with silent | ⟨told, tellsBack, spoken⟩
  · exact ⟨[], Or.inl rfl, by rw [handled, silent]⟩
  · exact ⟨[told], Or.inr ⟨told, rfl, tellsBack⟩, by rw [handled, spoken]; rfl⟩

/-- A node that was told no more than its own height only notes that the
handshake is complete. -/
theorem handleMessage_verack_level (level : peer.peerHeight ≤ node.localHeight) :
    handleMessage prim node now ⟨peer, []⟩ verackMessage =
      ⟨peer.completed, []⟩ := by
  simp only [handleMessage, verackMessage, handleVerack, gt_iff_lt]
  rw [if_neg (Int.not_lt.mpr level)]
  rfl

/-- A node that was told more asks for what it misses. -/
theorem handleMessage_verack_behind (connected : peer.isConnected = true)
    (fits : node.localHeight < 2147483648) (behind : node.localHeight < peer.peerHeight) :
    ∃ payload, packHeight node.localHeight = .ok payload ∧
      handleMessage prim node now ⟨peer, []⟩ verackMessage =
        ⟨peer.completed, [⟨.getblocks, payload⟩]⟩ := by
  have packed := packHeight_eq_ok.mpr ⟨fits, rfl⟩
  refine ⟨_, packed, ?_⟩
  simp only [handleMessage, verackMessage, handleVerack, gt_iff_lt]
  rw [if_pos behind, packed]
  exact sendMessage_small connected .getblocks (by simp [packI32])

end Handling

/-! ## The phases of the handshake -/

/-- The responder's own version message, or nothing if its height does not
fit. -/
def Greeting (height : Nat) (messages : List Message) : Prop :=
  messages = [] ∨ ∃ told, messages = [told] ∧ Tells height told

/-- Where the handshake of two nodes with given heights stands. -/
inductive Phase (initiatorHeight responderHeight : Nat) : Link → Prop
  | opened {greeting : List Message} (greets : Greeting initiatorHeight greeting) :
      Phase initiatorHeight responderHeight
        ⟨.new false, .new true, [], greeting, greeting, []⟩
  | answered {opening : Message} {greeting : List Message}
      (tells : Tells initiatorHeight opening) (greets : Greeting responderHeight greeting) :
      Phase initiatorHeight responderHeight
        ⟨.new false, (PeerConnection.new true).told initiatorHeight,
          verackMessage :: greeting, [], [opening], verackMessage :: greeting⟩
  | acknowledged {opening : Message} {greeting : List Message}
      (tells : Tells initiatorHeight opening) (greets : Greeting responderHeight greeting) :
      Phase initiatorHeight responderHeight
        ⟨(PeerConnection.new false).completed, (PeerConnection.new true).told initiatorHeight,
          greeting, [], [opening], verackMessage :: greeting⟩
  | introduced {opening : Message} {sent : List Message}
      (tells : Tells initiatorHeight opening) (fits : responderHeight < 2147483648) :
      Phase initiatorHeight responderHeight
        ⟨(PeerConnection.new false).completed.told responderHeight,
          (PeerConnection.new true).told initiatorHeight,
          [], [verackMessage], [opening, verackMessage], sent⟩
  | finished {link : Link} (initiatorTold : link.initiator.peerHeight = responderHeight)
      (responderTold : link.responder.peerHeight = initiatorHeight)
      (quiet : ∀ message ∈ link.toInitiator ++ link.toResponder,
        message.command ≠ .version ∧ message.command ≠ .verack)
      (silent : ∀ message ∈ link.sentByInitiator, message.command ≠ .getblocks)
      (requested : HasRequested responderHeight link.responder link.sentByResponder) :
      Phase initiatorHeight responderHeight link

theorem phase_connectToPeer (initiatorNode : LocalNode) (responderHeight : Nat) (now : Int64) :
    Phase initiatorNode.localHeight responderHeight (connectToPeer initiatorNode now) := by
  rcases @sendVersion_cases initiatorNode.localHeight now ⟨.new false, []⟩ rfl with
    silent | ⟨told, tells, spoken⟩
  · have link : connectToPeer initiatorNode now = ⟨.new false, .new true, [], [], [], []⟩ := by
      rw [connectToPeer, silent]
    rw [link]
    exact .opened (Or.inl rfl)
  · have link : connectToPeer initiatorNode now =
        ⟨.new false, .new true, [], [told], [told], []⟩ := by
      rw [connectToPeer, spoken]
      rfl
    rw [link]
    exact .opened (Or.inr ⟨told, rfl, tells⟩)

/-- A version and an acknowledgement are not traffic, and neither is a request
for blocks. -/
theorem Message.command_of_isTraffic {message : Message} (traffic : message.isTraffic = true) :
    message.command ≠ .version ∧ message.command ≠ .verack ∧
      message.command ≠ .getblocks := by
  rw [Message.isTraffic] at traffic
  refine ⟨?_, ?_, ?_⟩ <;>
  · intro command
    rw [command] at traffic
    cases traffic

theorem HasRequested.mono {localHeight : Nat} {peer peer' : PeerConnection}
    {sent sent' : List Message} (requested : HasRequested localHeight peer sent)
    (sameHeight : peer'.peerHeight = peer.peerHeight) (grown : sent ⊆ sent') :
    HasRequested localHeight peer' sent' := by
  intro behind
  rw [sameHeight] at behind
  obtain ⟨payload, packed, member⟩ := requested behind
  exact ⟨payload, packed, grown member⟩

namespace Phase

variable {prim : Primitives} {initiatorNode responderNode : LocalNode} {link : Link}
  {message : Message} {rest : List Message}

/-- A delivery to the initiator goes on to the next phase. -/
theorem toInitiator
    (phase : Phase initiatorNode.localHeight responderNode.localHeight link)
    (queued : link.toInitiator = message :: rest) (now : Int64) :
    Phase initiatorNode.localHeight responderNode.localHeight (link.deliverToInitiator
      (handleMessage prim initiatorNode now ⟨link.initiator, []⟩ message) rest) := by
  cases phase with
  | opened greets => cases queued
  | introduced tells fits => cases queued
  | answered tells greets =>
      -- The peer height is still zero here.
      cases queued
      rw [handleMessage_verack_level (Int.natCast_nonneg _)]
      exact .acknowledged tells greets
  | acknowledged tells greets =>
      rcases greets with rfl | ⟨told, rfl, tellsBack⟩
      · cases queued
      · cases queued
        rw [handleMessage_version_outbound tellsBack rfl rfl]
        exact .introduced tells tellsBack.2.1
  | finished initiatorTold responderTold quiet silent requested =>
      obtain ⟨notVersion, notVerack⟩ := quiet message (by simp [queued])
      have continues := Session.Continues.handleMessage prim initiatorNode now
        ⟨link.initiator, []⟩ notVersion notVerack
      obtain ⟨more, sentEq, traffic⟩ := continues.sent_eq
      rw [List.nil_append] at sentEq
      refine .finished ?_ responderTold ?_ ?_ requested
      · rw [Link.deliverToInitiator, continues.peer_eq]
        exact initiatorTold
      · intro other member
        simp only [Link.deliverToInitiator, sentEq, List.mem_append] at member
        rcases member with member | member | member
        · exact quiet other (by simp [queued, member])
        · exact quiet other (by simp [member])
        · have plain := Message.command_of_isTraffic (traffic other member)
          exact ⟨plain.1, plain.2.1⟩
      · intro other member
        simp only [Link.deliverToInitiator, sentEq, List.mem_append] at member
        rcases member with member | member
        · exact silent other member
        · exact (Message.command_of_isTraffic (traffic other member)).2.2

/-- A delivery to the responder goes on to the next phase. -/
theorem toResponder
    (phase : Phase initiatorNode.localHeight responderNode.localHeight link)
    (queued : link.toResponder = message :: rest) (now : Int64) :
    Phase initiatorNode.localHeight responderNode.localHeight (link.deliverToResponder
      (handleMessage prim responderNode now ⟨link.responder, []⟩ message) rest) := by
  cases phase with
  | answered tells greets => cases queued
  | acknowledged tells greets => cases queued
  | opened greets =>
      rcases greets with rfl | ⟨told, rfl, tells⟩
      · cases queued
      · cases queued
        obtain ⟨greeting, greets, handled⟩ := @handleMessage_version_inbound prim
          responderNode now (.new true) _ initiatorNode.localHeight tells rfl rfl
        rw [handled]
        exact .answered tells greets
  | @introduced opening sent tells fits =>
      cases queued
      have silent : ∀ message ∈ [opening, verackMessage], message.command ≠ .getblocks := by
        simp [tells.1, verackMessage]
      rcases Nat.lt_or_ge responderNode.localHeight initiatorNode.localHeight with
        behind | level
      · obtain ⟨payload, packed, handled⟩ := @handleMessage_verack_behind prim responderNode
          now ((PeerConnection.new true).told initiatorNode.localHeight) rfl fits
          (Int.ofNat_lt.mpr behind)
        rw [handled]
        refine .finished rfl rfl ?_ silent ?_
        · simp [Link.deliverToResponder]
        · exact fun _ => ⟨payload, packed, by simp [Link.deliverToResponder]⟩
      · rw [handleMessage_verack_level (Int.ofNat_le.mpr level)]
        refine .finished rfl rfl (by simp [Link.deliverToResponder]) silent ?_
        intro ahead
        exact (Int.not_lt.mpr (Int.ofNat_le.mpr level) ahead).elim
  | finished initiatorTold responderTold quiet silent requested =>
      obtain ⟨notVersion, notVerack⟩ := quiet message (by simp [queued])
      have continues := Session.Continues.handleMessage prim responderNode now
        ⟨link.responder, []⟩ notVersion notVerack
      obtain ⟨more, sentEq, traffic⟩ := continues.sent_eq
      rw [List.nil_append] at sentEq
      have sameHeight : (handleMessage prim responderNode now ⟨link.responder, []⟩
          message).peer.peerHeight = link.responder.peerHeight := by
        rw [continues.peer_eq]
      refine .finished initiatorTold (sameHeight.trans responderTold) ?_ silent
        (requested.mono sameHeight (List.subset_append_left _ _))
      intro other member
      simp only [Link.deliverToResponder, sentEq, List.mem_append] at member
      rcases member with (member | member) | member
      · exact quiet other (by simp [member])
      · have plain := Message.command_of_isTraffic (traffic other member)
        exact ⟨plain.1, plain.2.1⟩
      · exact quiet other (by simp [queued, member])

end Phase

/-- Every interleaving runs through the phases. -/
theorem LinkReaches.phase {prim : Primitives} {initiatorNode responderNode : LocalNode}
    {link : Link} (reached : LinkReaches prim initiatorNode responderNode link) :
    Phase initiatorNode.localHeight responderNode.localHeight link := by
  induction reached with
  | connect now => exact phase_connectToPeer initiatorNode responderNode.localHeight now
  | toInitiator _ queued _ now ih => exact ih.toInitiator queued now
  | toResponder _ queued _ now ih => exact ih.toResponder queued now

/-- After the handshake both ends have asked for the blocks they miss exactly
if the initiator misses none. -/
theorem handshake_synchronised_iff (prim : Primitives) (initiatorNode responderNode : LocalNode)
    (link : Link) (reached : LinkReaches prim initiatorNode responderNode link)
    (done : link.HandshakeDone) :
    (HasRequested initiatorNode.localHeight link.initiator link.sentByInitiator ∧
      HasRequested responderNode.localHeight link.responder link.sentByResponder) ↔
      responderNode.localHeight ≤ initiatorNode.localHeight := by
  cases reached.phase with
  | opened greets => cases done.2.1
  | answered tells greets => cases done.2.1
  | acknowledged tells greets => cases done.2.1
  | introduced tells fits => cases done.2.1
  | finished initiatorTold responderTold quiet silent requested =>
      constructor
      · rintro ⟨asked, -⟩
        by_contra behind
        obtain ⟨payload, -, member⟩ := asked (by
          rw [initiatorTold]
          exact Int.ofNat_lt.mpr (Nat.not_le.mp behind))
        exact silent _ member rfl
      · intro ahead
        refine ⟨?_, requested⟩
        intro behind
        rw [initiatorTold] at behind
        exact (Int.not_lt.mpr (Int.ofNat_le.mpr ahead) behind).elim

/-! ## Two sample runs -/

/-- A node that is asked for nothing but its height. -/
def LocalNode.ofHeight (localHeight : Nat) : LocalNode :=
  ⟨localHeight, fun _ => .ok none, fun _ => .ok none, fun _ => none⟩

/-- The initiator handles its next message, if any. -/
def Link.advanceInitiator (prim : Primitives) (node : LocalNode) (link : Link) : Link :=
  match link.toInitiator with
  | [] => link
  | message :: rest =>
      link.deliverToInitiator (handleMessage prim node 0 ⟨link.initiator, []⟩ message) rest

/-- The responder handles its next message, if any. -/
def Link.advanceResponder (prim : Primitives) (node : LocalNode) (link : Link) : Link :=
  match link.toResponder with
  | [] => link
  | message :: rest =>
      link.deliverToResponder (handleMessage prim node 0 ⟨link.responder, []⟩ message) rest

namespace LinkReaches

variable {prim : Primitives} {initiatorNode responderNode : LocalNode} {link : Link}

theorem advanceInitiator (reached : LinkReaches prim initiatorNode responderNode link)
    (connected : link.initiator.isConnected = true) :
    LinkReaches prim initiatorNode responderNode
      (link.advanceInitiator prim initiatorNode) := by
  rw [Link.advanceInitiator]
  cases queued : link.toInitiator with
  | nil => exact reached
  | cons message rest => exact reached.toInitiator queued connected 0

theorem advanceResponder (reached : LinkReaches prim initiatorNode responderNode link)
    (connected : link.responder.isConnected = true) :
    LinkReaches prim initiatorNode responderNode
      (link.advanceResponder prim responderNode) := by
  rw [Link.advanceResponder]
  cases queued : link.toResponder with
  | nil => exact reached
  | cons message rest => exact reached.toResponder queued connected 0

end LinkReaches

/-- No handler of the handshake hashes anything. -/
def handshakePrimitives : Primitives := .ofDigests []

/-- Two nodes after the four deliveries of their handshake. -/
def sampleLink (initiatorHeight responderHeight : Nat) : Link :=
  ((((connectToPeer (.ofHeight initiatorHeight) 0).advanceResponder handshakePrimitives
    (.ofHeight responderHeight)).advanceInitiator handshakePrimitives
    (.ofHeight initiatorHeight)).advanceInitiator handshakePrimitives
    (.ofHeight initiatorHeight)).advanceResponder handshakePrimitives
    (.ofHeight responderHeight)

/-- An initiator at height 1 and a responder at height 0: the responder asks. -/
theorem sampleLink_ahead :
    (sampleLink 1 0).HandshakeDone ∧ (0 : Int) < (sampleLink 1 0).responder.peerHeight ∧
      ∃ payload, packHeight 0 = .ok payload ∧
        ⟨.getblocks, payload⟩ ∈ (sampleLink 1 0).sentByResponder := by
  have reached : LinkReaches handshakePrimitives (.ofHeight 1) (.ofHeight 0)
      (sampleLink 1 0) := by
    refine LinkReaches.advanceResponder (.advanceInitiator (.advanceInitiator
      (.advanceResponder (.connect 0) ?_) ?_) ?_) ?_ <;> decide
  have done : (sampleLink 1 0).HandshakeDone := by
    rw [Link.HandshakeDone]
    decide
  have told : (0 : Int) < (sampleLink 1 0).responder.peerHeight := by decide
  exact ⟨done, told, ((handshake_synchronised_iff handshakePrimitives (.ofHeight 1)
    (.ofHeight 0) (sampleLink 1 0) reached done).mpr (by decide)).2 told⟩

/-- An initiator at height 0 and a responder at height 1: the initiator learns
the height and never asks. -/
theorem sampleLink_behind :
    LinkReaches handshakePrimitives (.ofHeight 0) (.ofHeight 1) (sampleLink 0 1) ∧
      (sampleLink 0 1).HandshakeDone ∧ (sampleLink 0 1).initiator.peerHeight = 1 ∧
      (sampleLink 0 1).sentByInitiator.map Message.command = [.version, .verack] ∧
      ¬ HasRequested 0 (sampleLink 0 1).initiator (sampleLink 0 1).sentByInitiator := by
  have commands : (sampleLink 0 1).sentByInitiator.map Message.command =
      [.version, .verack] := by decide
  have told : (sampleLink 0 1).initiator.peerHeight = 1 := by decide
  refine ⟨?_, ?_, told, commands, ?_⟩
  · refine LinkReaches.advanceResponder (.advanceInitiator (.advanceInitiator
      (.advanceResponder (.connect 0) ?_) ?_) ?_) ?_ <;> decide
  · rw [Link.HandshakeDone]
    decide
  · intro requested
    obtain ⟨payload, -, member⟩ := requested (by rw [told]; decide)
    have command := List.mem_map_of_mem (f := Message.command) member
    rw [commands] at command
    simp at command

end QuantyCoin
