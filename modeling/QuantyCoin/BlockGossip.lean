import Mathlib.Data.Fintype.Prod
import QuantyCoin.BlockDownload

/-!
# Block gossip

A node that accepts a block announces it to its peers with an `inv`.  Every
`inv` is answered by a `getdata` for all of its items, also for blocks the node
has, so the traffic ends only because `process_block` accepts no hash twice.

A network is any number of nodes over a finite set of connections.  Messages
are delivered in any order, may be lost with their connection, and are handled
as `_handle_message` of `network/p2p_server.py` and the callbacks of
`node/daemon.py` handle them.
-/

namespace QuantyCoin

open BranchSwitch ByteDecoder

/-! ## The life of a chainstate -/

/-- The states a chainstate goes through from some state on, whatever the calls
return, with the hashes of the blocks for which `process_block` has returned
`True`. -/
inductive Life (prim : Primitives) (start : Chainstate) : Chainstate → List Bytes → Prop
  | start : Life prim start start []
  | accepted {cs next : Chainstate} {hashes : List Bytes} {block : Block} {message : String}
      (life : Life prim start cs hashes)
      (processed : cs.processBlock prim block = some (.ok (true, message), next)) :
      Life prim start next (block.hash prim :: hashes)
  | refused {cs next : Chainstate} {hashes : List Bytes} {block : Block}
      {outcome : Except PyException (Bool × String)} (life : Life prim start cs hashes)
      (processed : cs.processBlock prim block = some (outcome, next))
      (notTrue : ∀ message, outcome ≠ .ok (true, message)) : Life prim start next hashes
  | transaction {cs : Chainstate} {hashes : List Bytes} (life : Life prim start cs hashes)
      (tx : Transaction) (now : Nat) :
      Life prim start (cs.addTransaction prim tx now).2 hashes

namespace Chainstate

/-- A call for a block keeps every hash of the index, also when it raises. -/
theorem mem_processBlock {prim : Primitives} {cs next : Chainstate} {block : Block}
    {outcome : Except PyException (Bool × String)}
    (processed : cs.processBlock prim block = some (outcome, next)) {hash : Bytes}
    (stored : hash ∈ cs.blockIndex) : hash ∈ next.blockIndex := by
  rcases processBlock_cases prim cs block with
    ⟨result, unchanged, -, -⟩ | ⟨fresh, parent, work, -, chosen⟩
  · rw [processed] at unchanged
    cases unchanged
    exact stored
  · rw [processed] at chosen
    rcases chooseFork_blockIndex fresh chosen.symm with kept | kept
    · rwa [kept]
    · rw [kept, storeNode, Finmap.mem_insert]
      exact Or.inr stored

/-- An accepted block was not in the index and is there afterwards. -/
theorem accepted_fresh {prim : Primitives} {cs next : Chainstate} {block : Block}
    {message : String}
    (accepted : cs.processBlock prim block = some (.ok (true, message), next)) :
    block.hash prim ∉ cs.blockIndex ∧ block.hash prim ∈ next.blockIndex := by
  constructor
  · intro stored
    rw [processBlock, if_pos stored] at accepted
    cases accepted
  · obtain ⟨parent, work, -, stored⟩ := stored_of_accepted accepted
    rw [stored, storeNode, Finmap.mem_insert]
    exact Or.inl rfl

end Chainstate

/-- The accepted hashes are all different and stay in the index. -/
theorem Life.accepted_nodup {prim : Primitives} {start cs : Chainstate} {hashes : List Bytes}
    (life : Life prim start cs hashes) :
    hashes.Nodup ∧ ∀ hash ∈ hashes, hash ∈ cs.blockIndex := by
  induction life with
  | start => simp
  | accepted _ processed ih =>
      obtain ⟨fresh, stored⟩ := Chainstate.accepted_fresh processed
      refine ⟨List.nodup_cons.mpr ⟨fun again => fresh (ih.2 _ again), ih.1⟩, ?_⟩
      intro hash member
      rcases List.mem_cons.mp member with rfl | member
      · exact stored
      · exact Chainstate.mem_processBlock processed (ih.2 hash member)
  | refused _ processed _ ih =>
      exact ⟨ih.1, fun hash member =>
        Chainstate.mem_processBlock processed (ih.2 hash member)⟩
  | transaction _ tx now ih => exact ih

/-! ## Networks -/

/-- The connections of a network.  A channel is one of the two directions of a
connection, that is, an ordered pair of connected nodes; the node at its source
has a session with the node at its target.  Two nodes may be connected more than
once, and a node may be connected to itself. -/
structure Network (Node Channel : Type) where
  source : Channel → Node
  target : Channel → Node
  opposite : Channel → Channel
  source_opposite : ∀ channel, source (opposite channel) = target channel
  target_opposite : ∀ channel, target (opposite channel) = source channel
  /-- The session at the source was accepted and not dialled. -/
  isInbound : Channel → Bool
  channels : List Channel
  nodup : channels.Nodup
  complete : ∀ channel, channel ∈ channels

/-- Whether a message goes back to a call of `broadcast_block`: its `inv`, the
answers to it and the answers to these. -/
inductive Origin
  | broadcast
  | other
  deriving DecidableEq

structure Envelope (Channel : Type) where
  channel : Channel
  origin : Origin
  message : Message

/-- The nodes and their sessions, the messages under way, and what has happened
so far: all messages sent and the calls of `broadcast_block`. -/
structure NetworkState (Node Channel : Type) where
  chainstates : Node → Chainstate
  peers : Channel → PeerConnection
  inFlight : List (Envelope Channel)
  sent : List (Envelope Channel)
  broadcasts : List (Node × Bytes)

namespace NetworkState

variable {Node Channel : Type} [DecidableEq Node] [DecidableEq Channel]

/-- Put messages on the wire. -/
def post (state : NetworkState Node Channel) (envelopes : List (Envelope Channel)) :
    NetworkState Node Channel :=
  { state with
    inFlight := state.inFlight ++ envelopes
    sent := state.sent ++ envelopes }

/-- The session of a channel and the messages it has put on the wire. -/
def commit (state : NetworkState Node Channel) (channel : Channel) (origin : Origin)
    (session : Session) : NetworkState Node Channel :=
  { state with peers := Function.update state.peers channel session.peer }.post
    (session.sent.map fun message => ⟨channel, origin, message⟩)

def setChainstate (state : NetworkState Node Channel) (node : Node) (cs : Chainstate) :
    NetworkState Node Channel :=
  { state with chainstates := Function.update state.chainstates node cs }

/-- `peer.send_message(command, payload)`. -/
def sendOn (origin : Origin) (command : Command) (payload : Bytes)
    (state : NetworkState Node Channel) (channel : Channel) : NetworkState Node Channel :=
  state.commit channel origin ((⟨state.peers channel, []⟩ : Session).sendMessage command payload)

/-- The peers a broadcast of a node goes to. -/
def greeted (net : Network Node Channel) (state : NetworkState Node Channel) (node : Node) :
    List Channel :=
  net.channels.filter fun channel =>
    decide (net.source channel = node) && (state.peers channel).handshakeComplete

/-- The common body of `broadcast_block` and `broadcast_tx`. -/
def broadcastItem (net : Network Node Channel) (node : Node) (origin : Origin)
    (item : InvItem) (state : NetworkState Node Channel) : NetworkState Node Channel :=
  match buildInvPayload [item] with
  | .error _ => state
  | .ok payload => (state.greeted net node).foldl (sendOn origin .inv payload) state

/-- `broadcast_block`. -/
def broadcastBlock (net : Network Node Channel) (node : Node) (blockHash : Bytes)
    (state : NetworkState Node Channel) : NetworkState Node Channel :=
  broadcastItem net node .broadcast (invTypeBlock, blockHash)
    { state with broadcasts := (node, blockHash) :: state.broadcasts }

/-- `broadcast_tx`. -/
def broadcastTx (net : Network Node Channel) (node : Node) (txid : Bytes)
    (state : NetworkState Node Channel) : NetworkState Node Channel :=
  broadcastItem net node .other (invTypeTx, txid) state

/-- `process_block`, with a broadcast if it returns `True`: the common part of
`_on_p2p_block`, `_rpc_submitblock` and `_rpc_generatetoaddress`. -/
def offerBlock (prim : Primitives) (net : Network Node Channel) (node : Node) (block : Block)
    (state : NetworkState Node Channel) : Option (NetworkState Node Channel) :=
  match (state.chainstates node).processBlock prim block with
  | none => none
  | some (.ok (true, _), cs) =>
      some ((state.setChainstate node cs).broadcastBlock net node (block.hash prim))
  | some (_, cs) => some (state.setChainstate node cs)

/-- `add_transaction`, with a broadcast if it returns `True`. -/
def offerTx (prim : Primitives) (net : Network Node Channel) (now : Nat) (node : Node)
    (tx : Transaction) (state : NetworkState Node Channel) : NetworkState Node Channel :=
  match (state.chainstates node).addTransaction prim tx now with
  | ((true, _), cs) => (state.setChainstate node cs).broadcastTx net node (tx.txid prim)
  | ((false, _), cs) => state.setChainstate node cs

/-- `_on_p2p_block`. -/
def onP2pBlock (prim : Primitives) (net : Network Node Channel) (node : Node)
    (rawPayload : Bytes) (state : NetworkState Node Channel) :
    Option (NetworkState Node Channel) :=
  match Block.deserialize rawPayload with
  | .error _ => some state
  | .ok (block, _) => state.offerBlock prim net node block

/-- `_on_p2p_tx`. -/
def onP2pTx (prim : Primitives) (net : Network Node Channel) (now : Nat) (node : Node)
    (rawPayload : Bytes) (state : NetworkState Node Channel) : NetworkState Node Channel :=
  match Transaction.deserialize rawPayload with
  | .error _ => state
  | .ok (tx, _) => state.offerTx prim net now node tx

/-- The target of a channel handles a message from it.  The answers go the
opposite way and have the origin of the message. -/
def handle (prim : Primitives) (net : Network Node Channel) (now : Nat)
    (envelope : Envelope Channel) (state : NetworkState Node Channel) :
    Option (NetworkState Node Channel) :=
  let node := net.target envelope.channel
  let back := net.opposite envelope.channel
  let handled := state.commit back envelope.origin
    (handleMessage prim (.ofChainstate (state.chainstates node)) (.ofNat now)
      ⟨state.peers back, []⟩ envelope.message)
  match envelope.message.command with
  | .block => handled.onP2pBlock prim net node envelope.message.payload
  | .tx => some (handled.onP2pTx prim net now node envelope.message.payload)
  | _ => some handled

/-- The rest of `connect_to_peer` behind the new session. -/
def greet (net : Network Node Channel) (now : Nat) (channel : Channel)
    (state : NetworkState Node Channel) : NetworkState Node Channel :=
  state.commit channel .other
    (sendVersion (state.chainstates (net.source channel)).bestTip.height (.ofNat now)
      ⟨state.peers channel, []⟩).2

/-- All nodes at genesis and no message sent. -/
def initial (net : Network Node Channel) (genesis : Chainstate) : NetworkState Node Channel where
  chainstates _ := genesis
  peers channel := .new (net.isInbound channel)
  inFlight := []
  sent := []
  broadcasts := []

end NetworkState

/-- The states of a network into which only certain blocks are introduced from
outside, by the RPC calls of its nodes. -/
inductive NetworkReaches {Node Channel : Type} [DecidableEq Node] [DecidableEq Channel]
    (prim : Primitives) (net : Network Node Channel) (introduced : Block → Prop) :
    NetworkState Node Channel → Prop
  | genesis {cs : Chainstate} (built : Chainstate.initGenesis prim = .ok cs) :
      NetworkReaches prim net introduced (.initial net cs)
  | connect {state : NetworkState Node Channel}
      (reached : NetworkReaches prim net introduced state) (now : Nat) (channel : Channel) :
      NetworkReaches prim net introduced (state.greet net now channel)
  | introduce {state next : NetworkState Node Channel}
      (reached : NetworkReaches prim net introduced state) (node : Node) {block : Block}
      (isIntroduced : introduced block) (wellFormed : block.WellFormed)
      (offered : state.offerBlock prim net node block = some next) :
      NetworkReaches prim net introduced next
  | transaction {state : NetworkState Node Channel}
      (reached : NetworkReaches prim net introduced state) (now : Nat) (node : Node)
      (tx : Transaction) :
      NetworkReaches prim net introduced (state.offerTx prim net now node tx)
  | deliver {state next : NetworkState Node Channel}
      (reached : NetworkReaches prim net introduced state) (now : Nat)
      {before after : List (Envelope Channel)} {envelope : Envelope Channel}
      (underWay : state.inFlight = before ++ envelope :: after)
      (connected : (state.peers (net.opposite envelope.channel)).isConnected = true)
      (handled : { state with inFlight := before ++ after }.handle prim net now envelope =
        some next) :
      NetworkReaches prim net introduced next
  | lose {state : NetworkState Node Channel}
      (reached : NetworkReaches prim net introduced state)
      {before after : List (Envelope Channel)} {envelope : Envelope Channel}
      (underWay : state.inFlight = before ++ envelope :: after) :
      NetworkReaches prim net introduced { state with inFlight := before ++ after }
  | disconnect {state : NetworkState Node Channel}
      (reached : NetworkReaches prim net introduced state) (channel : Channel) :
      NetworkReaches prim net introduced
        (state.commit channel .other (⟨state.peers channel, []⟩ : Session).disconnect)

/-! ## Answers -/

/-- The payload of an inventory with a single block. -/
def blockInventory (blockHash : Bytes) : Bytes :=
  [UInt8.ofNat 1] ++ [(invTypeBlock, blockHash)].flatMap packInvItem

theorem buildInvPayload_block (blockHash : Bytes) :
    buildInvPayload [(invTypeBlock, blockHash)] = .ok (blockInventory blockHash) :=
  rfl

theorem blockInventory_injective : Function.Injective blockInventory := by
  intro first second same
  simpa [blockInventory, packInvItem] using same

theorem parseInvPayload_block {blockHash : Bytes} (length : blockHash.length = 32) :
    parseInvPayload (blockInventory blockHash) = .ok [(invTypeBlock, blockHash)] := by
  obtain ⟨payload, built, parsed⟩ :=
    @parseInvPayload_build [(invTypeBlock, blockHash)] (by simp) (by simpa using length)
  rw [buildInvPayload_block] at built
  cases built
  exact parsed

theorem sendMessage_sent (peer : PeerConnection) (command : Command) (payload : Bytes) :
    ((⟨peer, []⟩ : Session).sendMessage command payload).sent = [] ∨
      ((⟨peer, []⟩ : Session).sendMessage command payload).sent = [⟨command, payload⟩] := by
  rw [Session.sendMessage]
  split_ifs
  · exact Or.inl rfl
  · exact Or.inl rfl
  · exact Or.inr rfl

/-- An announced block is requested at most once. -/
theorem handleInv_block {blockHash : Bytes} (length : blockHash.length = 32)
    (peer : PeerConnection) :
    (handleInv (blockInventory blockHash) ⟨peer, []⟩).2.sent = [] ∨
      (handleInv (blockInventory blockHash) ⟨peer, []⟩).2.sent =
        [⟨.getdata, blockInventory blockHash⟩] := by
  simp only [handleInv, parseInvPayload_block length, sendInventory, buildInvPayload_block]
  exact sendMessage_sent peer .getdata _

/-- A requested block is sent at most once. -/
theorem handleGetdata_block {blockHash : Bytes} (length : blockHash.length = 32)
    (node : LocalNode) (peer : PeerConnection) :
    (handleGetdata node (blockInventory blockHash) ⟨peer, []⟩).2.sent = [] ∨
      ∃ raw, (handleGetdata node (blockInventory blockHash) ⟨peer, []⟩).2.sent =
        [⟨.block, raw⟩] := by
  simp only [handleGetdata, parseInvPayload_block length, runAll_singleton, serveItem, if_true]
  cases node.getBlockByHash blockHash with
  | error error => exact Or.inl rfl
  | ok answer =>
      cases truthy : whenTruthy answer with
      | none => simp [truthy]
      | some raw =>
          simp only [truthy]
          rcases sendMessage_sent peer .block raw with nothing | sent
          · exact Or.inl nothing
          · exact Or.inr ⟨raw, sent⟩

/-- Blocks that were not sent before come from the node's own index. -/
def Session.SendsOwn (node : LocalNode) (session later : Session) : Prop :=
  ∀ message ∈ later.sent, message ∈ session.sent ∨ (message.command = .block →
    ∃ blockHash, node.getBlockByHash blockHash = .ok (some message.payload))

namespace Session.SendsOwn

variable {node : LocalNode}

theorem refl (session : Session) : session.SendsOwn node session :=
  fun _ member => Or.inl member

theorem trans (first second third : Session) (start : first.SendsOwn node second)
    (rest : second.SendsOwn node third) : first.SendsOwn node third := by
  intro message member
  rcases rest message member with earlier | own
  · exact start message earlier
  · exact Or.inr own

theorem sendMessage (session : Session) {command : Command} {payload : Bytes}
    (own : command = .block →
      ∃ blockHash, node.getBlockByHash blockHash = .ok (some payload)) :
    session.SendsOwn node (session.sendMessage command payload) := by
  rw [Session.sendMessage]
  split_ifs
  · exact refl session
  · exact fun _ member => Or.inl member
  · intro message member
    rcases List.mem_append.mp member with earlier | new
    · exact Or.inl earlier
    · rw [List.mem_singleton.mp new]
      exact Or.inr own

theorem sendInventory (session : Session) {command : Command} (notBlock : command ≠ .block)
    (items : List InvItem) :
    session.SendsOwn node (QuantyCoin.sendInventory command items session).2 := by
  rw [QuantyCoin.sendInventory]
  cases buildInvPayload items with
  | error error => exact refl session
  | ok payload => exact sendMessage session fun isBlock => (notBlock isBlock).elim

theorem sendVersion (session : Session) (height : Nat) (now : Int64) :
    session.SendsOwn node (QuantyCoin.sendVersion height now session).2 := by
  rw [QuantyCoin.sendVersion]
  cases buildVersionPayload height now with
  | error error => exact refl session
  | ok payload => exact sendMessage session fun isBlock => by cases isBlock

theorem handleVersion (session : Session) (now : Int64) (payload : Bytes) :
    session.SendsOwn node (QuantyCoin.handleVersion node now payload session).2 := by
  rw [QuantyCoin.handleVersion]
  split
  · exact refl session
  · rename_i info parsed
    have told : session.SendsOwn node
        (Session.sendMessage { session with
          peer := { session.peer with
            peerVersion := some info.version
            peerHeight := info.startHeight.toInt
            userAgent := info.userAgent } } .verack []) := by
      refine trans _ { session with peer := _ } _ (fun _ member => Or.inl member) ?_
      exact sendMessage _ fun isBlock => by cases isBlock
    simp only
    split_ifs
    · exact trans _ _ _ told (sendVersion _ node.localHeight now)
    · exact told

theorem handleVerack (session : Session) :
    session.SendsOwn node (QuantyCoin.handleVerack node session).2 := by
  rw [QuantyCoin.handleVerack]
  simp only
  split_ifs
  · cases packHeight node.localHeight with
    | error error => exact fun _ member => Or.inl member
    | ok payload =>
        refine trans _ { session with peer := _ } _ (fun _ member => Or.inl member) ?_
        exact sendMessage _ fun isBlock => by cases isBlock
  · exact fun _ member => Or.inl member

theorem handleGetblocks (prim : Primitives) (session : Session) (payload : Bytes) :
    session.SendsOwn node (QuantyCoin.handleGetblocks prim node payload session).2 := by
  rw [QuantyCoin.handleGetblocks]
  split
  · exact refl session
  · exact refl session
  · exact sendInventory session (by decide) _

theorem handleInv (session : Session) (payload : Bytes) :
    session.SendsOwn node (QuantyCoin.handleInv payload session).2 := by
  rw [QuantyCoin.handleInv]
  split
  · exact refl session
  · exact refl session
  · exact sendInventory session (by decide) _

theorem serveItem (session : Session) (item : InvItem) :
    session.SendsOwn node (QuantyCoin.serveItem node session item).2 := by
  rw [QuantyCoin.serveItem]
  split_ifs
  · cases found : node.getBlockByHash item.2 with
    | error error => exact refl session
    | ok answer =>
        cases answer with
        | none => exact refl session
        | some raw =>
            cases truthy : whenTruthy (some raw) with
            | none => simpa [truthy] using refl session
            | some kept =>
                have same : kept = raw := by
                  have isSome := Option.filter_eq_some_iff.mp truthy
                  exact (Option.some.inj isSome.1).symm
                subst same
                simp only [truthy]
                exact sendMessage session fun _ => ⟨item.2, found⟩
  · cases whenTruthy (node.getTxByHash item.2) with
    | none => exact refl session
    | some raw => exact sendMessage session fun isBlock => by cases isBlock
  · exact refl session

/-- Whatever a node answers, the blocks in it are its own. -/
theorem handleMessage (prim : Primitives) (now : Int64) (session : Session)
    (message : Message) :
    session.SendsOwn node (QuantyCoin.handleMessage prim node now session message) := by
  rw [QuantyCoin.handleMessage]
  cases message.command with
  | version => exact handleVersion session now message.payload
  | verack => exact handleVerack session
  | getblocks => exact handleGetblocks prim session message.payload
  | inv => exact handleInv session message.payload
  | getdata =>
      simp only [QuantyCoin.handleGetdata]
      cases parseInvPayload message.payload with
      | error error => exact refl session
      | ok items => exact runAll_relates refl trans serveItem session items
  | block => exact refl session
  | tx => exact refl session

end Session.SendsOwn

/-! ## What is known in the network -/

/-- The hashes of the genesis block and of the blocks introduced. -/
def Known (prim : Primitives) (introduced : Block → Prop) (hash : Bytes) : Prop :=
  hash = (rootNode prim).hash ∨ ∃ block, introduced block ∧ block.hash prim = hash

/-- The blocks a node of the network can be offered. -/
def Offered (prim : Primitives) (introduced : Block → Prop) (_ : Chainstate) (block : Block) :
    Prop :=
  block.WellFormed ∧ Known prim introduced (block.hash prim)

theorem Reaches.mono {prim : Primitives} {admits admits' : Chainstate → Block → Prop}
    (weaker : ∀ cs block, admits cs block → admits' cs block) {cs : Chainstate}
    (reached : Reaches prim admits cs) : Reaches prim admits' cs := by
  induction reached with
  | genesis built => exact .genesis built
  | block _ admitted processed ih => exact .block ih (weaker _ _ admitted) processed
  | transaction _ tx now ih => exact .transaction ih tx now

theorem Reaches.known {prim : Primitives} {introduced : Block → Prop} {cs : Chainstate}
    (reached : Reaches prim (Offered prim introduced) cs) {hash : Bytes}
    {node : BlockIndexNode} (stored : cs.blockIndex.lookup hash = some node) :
    Known prim introduced hash := by
  have tree : IndexTree prim (fun block => Known prim introduced (block.hash prim))
      cs.blockIndex := by
    apply reached.indexTree
    intro _ block offered
    exact offered.2
  obtain rfl := tree.hash_eq hash node stored
  rcases tree.origin _ node stored with rfl | ⟨block, parent, work, known, -, rfl⟩
  · exact Or.inl rfl
  · exact known

/-- An accepted block was introduced: the genesis block is there from the
start. -/
theorem Reaches.introduced_of_accepted {prim : Primitives} {introduced : Block → Prop}
    {cs next : Chainstate} (reached : Reaches prim (Offered prim introduced) cs)
    {block : Block} {message : String} (known : Known prim introduced (block.hash prim))
    (accepted : cs.processBlock prim block = some (.ok (true, message), next)) :
    ∃ other, introduced other ∧ other.hash prim = block.hash prim := by
  rcases known with isGenesis | isIntroduced
  · have tree : IndexTree prim (fun _ => True) cs.blockIndex :=
      reached.indexTree fun _ _ _ => trivial
    have fresh := (Chainstate.accepted_fresh accepted).1
    rw [isGenesis] at fresh
    exact (fresh (Finmap.mem_of_lookup_eq_some tree.root_stored)).elim
  · exact isIntroduced

/-- A block served under its hash is read back as a known block. -/
theorem Reaches.reads_known {prim : Primitives} {introduced : Block → Prop} {cs : Chainstate}
    (reached : Reaches prim (Offered prim introduced) cs) {blockHash raw : Bytes}
    (served : (LocalNode.ofChainstate cs).getBlockByHash blockHash = .ok (some raw))
    {block : Block} {used : Nat} (read : Block.deserialize raw = .ok (block, used)) :
    Known prim introduced (block.hash prim) := by
  cases stored : cs.blockIndex.lookup blockHash with
  | none =>
      simp only [LocalNode.ofChainstate, Chainstate.getBlockByHash, stored, Except.map,
        Option.map] at served
      cases served
  | some node =>
      have wellFormed : Reaches prim (fun _ block => block.WellFormed) cs :=
        reached.mono fun _ _ offered => offered.1
      obtain ⟨own, serves⟩ := wellFormed.serves stored
      have same : own.serialize = raw := by
        simp only [LocalNode.ofChainstate, serves.found, Except.map, Option.map] at served
        exact Option.some.inj (Except.ok.inj served)
      rw [← same, serves.read] at read
      cases read
      rw [serves.hash_eq]
      exact reached.known stored

/-! ## The invariant of the traffic -/

/-- The messages of a kind that go back to a broadcast. -/
def causedBy {Channel : Type} (command : Command) (envelope : Envelope Channel) : Bool :=
  decide (envelope.origin = .broadcast) && decide (envelope.message.command = command)

/-- The number of messages of a kind that go back to a broadcast. -/
def causedCount {Channel : Type} (command : Command) (envelopes : List (Envelope Channel)) :
    Nat :=
  envelopes.countP (causedBy command)

/-- The connections and payloads of the `inv` messages of broadcasts. -/
def announcements {Channel : Type} (envelopes : List (Envelope Channel)) :
    List (Channel × Bytes) :=
  (envelopes.filter (causedBy .inv)).map fun envelope =>
    (envelope.channel, envelope.message.payload)

/-- A message that goes back to a broadcast is about a single block. -/
def Envelope.Relays {Channel : Type} (envelope : Envelope Channel) : Prop :=
  envelope.message.command = .block ∨
    (envelope.message.command = .inv ∨ envelope.message.command = .getdata) ∧
      ∃ blockHash, blockHash.length = 32 ∧ envelope.message.payload = blockInventory blockHash

theorem handleMessage_inv (prim : Primitives) (node : LocalNode) (now : Int64) (session : Session)
    (payload : Bytes) :
    handleMessage prim node now session ⟨.inv, payload⟩ = (handleInv payload session).2 := rfl

theorem handleMessage_getdata (prim : Primitives) (node : LocalNode) (now : Int64)
    (session : Session) (payload : Bytes) :
    handleMessage prim node now session ⟨.getdata, payload⟩ =
      (handleGetdata node payload session).2 := rfl

/-- A message about a single block has at most one answer: an `inv` the request
for the block, a request the block. -/
theorem answers_of_relays {Channel : Type} {sender : Channel} {origin : Origin}
    {command : Command} {payload : Bytes}
    (relays : (⟨sender, origin, ⟨command, payload⟩⟩ : Envelope Channel).Relays)
    (prim : Primitives) (node : LocalNode) (now : Int64) (peer : PeerConnection) :
    (handleMessage prim node now ⟨peer, []⟩ ⟨command, payload⟩).sent = [] ∨
      (command = .inv ∧ ∃ blockHash, blockHash.length = 32 ∧
        (handleMessage prim node now ⟨peer, []⟩ ⟨command, payload⟩).sent =
          [⟨.getdata, blockInventory blockHash⟩]) ∨
      (command = .getdata ∧ ∃ raw,
        (handleMessage prim node now ⟨peer, []⟩ ⟨command, payload⟩).sent = [⟨.block, raw⟩]) := by
  rcases relays with isBlock | ⟨isInv | isGetdata, blockHash, length, same⟩
  · obtain rfl : command = .block := isBlock
    exact Or.inl rfl
  · obtain rfl : command = .inv := isInv
    obtain rfl : payload = blockInventory blockHash := same
    rw [handleMessage_inv]
    rcases handleInv_block length peer with nothing | request
    · exact Or.inl nothing
    · exact Or.inr (Or.inl ⟨rfl, blockHash, length, request⟩)
  · obtain rfl : command = .getdata := isGetdata
    obtain rfl : payload = blockInventory blockHash := same
    rw [handleMessage_getdata]
    rcases handleGetdata_block length node peer with nothing | ⟨raw, reply⟩
    · exact Or.inl nothing
    · exact Or.inr (Or.inr ⟨rfl, raw, reply⟩)

/-- What holds of the traffic in every state of a network.  Every call of
`broadcast_block` is the node's first for its hash, every `inv` belongs to a
call, and every answer uses up the message it answers. -/
structure Gossip {Node Channel : Type} (prim : Primitives) (net : Network Node Channel)
    (introduced : Block → Prop) (state : NetworkState Node Channel) : Prop where
  reaches : ∀ node, Reaches prim (Offered prim introduced) (state.chainstates node)
  readable : ∀ envelope ∈ state.inFlight, envelope.message.command = .block →
    ∀ block used, Block.deserialize envelope.message.payload = .ok (block, used) →
      Known prim introduced (block.hash prim)
  relays : ∀ envelope ∈ state.inFlight, envelope.origin = .broadcast → envelope.Relays
  logged : state.broadcasts.Nodup
  stored : ∀ entry ∈ state.broadcasts, entry.2 ∈ (state.chainstates entry.1).blockIndex ∧
    ∃ block, introduced block ∧ block.hash prim = entry.2
  announced : (announcements state.sent).Nodup
  announced_logged : ∀ entry ∈ announcements state.sent, ∃ blockHash,
    (net.source entry.1, blockHash) ∈ state.broadcasts ∧ entry.2 = blockInventory blockHash
  requested : causedCount .getdata state.sent + causedCount .inv state.inFlight ≤
    causedCount .inv state.sent
  served : causedCount .block state.sent + causedCount .getdata state.inFlight ≤
    causedCount .getdata state.sent

section Counting

variable {Channel : Type}

@[simp]
theorem causedCount_nil (command : Command) :
    causedCount command ([] : List (Envelope Channel)) = 0 :=
  rfl

@[simp]
theorem causedCount_append (command : Command) (first second : List (Envelope Channel)) :
    causedCount command (first ++ second) =
      causedCount command first + causedCount command second :=
  List.countP_append

theorem causedCount_cons (command : Command) (envelope : Envelope Channel)
    (envelopes : List (Envelope Channel)) :
    causedCount command (envelope :: envelopes) =
      causedCount command [envelope] + causedCount command envelopes := by
  rw [← List.singleton_append, causedCount_append]

@[simp]
theorem causedCount_singleton (command : Command) (envelope : Envelope Channel) :
    causedCount command [envelope] = if causedBy command envelope = true then 1 else 0 := by
  simp [causedCount, List.countP_singleton]

theorem causedCount_eq_zero {command : Command} {envelopes : List (Envelope Channel)}
    (none : ∀ envelope ∈ envelopes, causedBy command envelope = false) :
    causedCount command envelopes = 0 := by
  rw [causedCount, List.countP_eq_zero]
  intro envelope member
  simp [none envelope member]

theorem causedBy_other {command : Command} {envelope : Envelope Channel}
    (other : envelope.origin = .other) : causedBy command envelope = false := by
  simp [causedBy, other]

@[simp]
theorem announcements_append (first second : List (Envelope Channel)) :
    announcements (first ++ second) = announcements first ++ announcements second := by
  simp [announcements]

theorem announcements_eq_nil {envelopes : List (Envelope Channel)}
    (none : causedCount .inv envelopes = 0) : announcements envelopes = [] := by
  rw [causedCount, List.countP_eq_zero] at none
  rw [announcements, List.filter_eq_nil_iff.mpr none, List.map_nil]

theorem announcements_length (envelopes : List (Envelope Channel)) :
    (announcements envelopes).length = causedCount .inv envelopes := by
  rw [announcements, List.length_map, causedCount, List.countP_eq_length_filter]

end Counting

/-! ## Broadcasts -/

/-- The `inv` messages of a broadcast. -/
def announce {Channel : Type} (origin : Origin) (payload : Bytes) (channels : List Channel) :
    List (Envelope Channel) :=
  channels.map fun channel => ⟨channel, origin, ⟨.inv, payload⟩⟩

section Announce

variable {Channel : Type} {origin : Origin} {payload : Bytes} {channels : List Channel}

theorem of_mem_announce {envelope : Envelope Channel}
    (member : envelope ∈ announce origin payload channels) :
    envelope.origin = origin ∧ envelope.message = ⟨.inv, payload⟩ := by
  obtain ⟨channel, -, rfl⟩ := List.mem_map.mp member
  exact ⟨rfl, rfl⟩

theorem causedCount_announce {command : Command} (notInv : command ≠ .inv) :
    causedCount command (announce origin payload channels) = 0 := by
  apply causedCount_eq_zero
  intro envelope member
  simp [causedBy, (of_mem_announce member).2, notInv.symm]

theorem announcements_announce :
    announcements (announce .broadcast payload channels) =
      channels.map fun channel => (channel, payload) := by
  rw [announcements, List.filter_eq_self.mpr, announce, List.map_map]
  · rfl
  · intro envelope member
    simp [causedBy, of_mem_announce member]

end Announce

namespace NetworkState

variable {Node Channel : Type}

@[simp]
theorem post_nil (state : NetworkState Node Channel) : state.post [] = state := by
  simp [post]

theorem post_post (state : NetworkState Node Channel) (first second : List (Envelope Channel)) :
    (state.post first).post second = state.post (first ++ second) := by
  simp [post, List.append_assoc]

variable [DecidableEq Channel]

theorem sendOn_eq (origin : Origin) (command : Command) {payload : Bytes}
    (short : payload.length < 2 ^ 32) (state : NetworkState Node Channel) (channel : Channel) :
    sendOn origin command payload state channel =
      state.post (if (state.peers channel).isConnected = true then
        [⟨channel, origin, ⟨command, payload⟩⟩] else []) := by
  rw [sendOn, Session.sendMessage]
  by_cases connected : (state.peers channel).isConnected = true
  · rw [if_neg (by simp [connected]), if_neg (Nat.not_le.mpr short), if_pos connected]
    simp [commit]
  · rw [if_pos (by simp [connected]), if_neg connected]
    simp [commit]

/-- Messages of one kind to a list of peers reach those that are connected. -/
theorem foldl_sendOn (origin : Origin) (command : Command) {payload : Bytes}
    (short : payload.length < 2 ^ 32) (state : NetworkState Node Channel)
    (channels : List Channel) :
    channels.foldl (sendOn origin command payload) state =
      state.post ((channels.filter fun channel => (state.peers channel).isConnected).map
        fun channel => ⟨channel, origin, ⟨command, payload⟩⟩) := by
  induction channels generalizing state with
  | nil => simp
  | cons channel channels ih =>
      rw [List.foldl_cons, sendOn_eq origin command short, ih, post_post, List.filter_cons]
      by_cases connected : (state.peers channel).isConnected = true
      · simp [connected, post]
      · simp [connected, post]

/-- A broadcast goes to some of the node's peers, once to each. -/
theorem broadcastItem_eq [DecidableEq Node] (net : Network Node Channel) (node : Node)
    (origin : Origin) {item : InvItem} (length : item.2.length = 32)
    (state : NetworkState Node Channel) :
    ∃ (payload : Bytes) (peers : List Channel), buildInvPayload [item] = .ok payload ∧ peers.Nodup ∧
      (∀ channel ∈ peers, net.source channel = node) ∧
      state.broadcastItem net node origin item =
        state.post (announce origin payload peers) := by
  cases built : buildInvPayload [item] with
  | error error => simp [buildInvPayload] at built
  | ok payload =>
      have short : payload.length < 2 ^ 32 := by
        rw [buildInvPayload_length built (by simpa using length)]
        simp
      refine ⟨payload, (state.greeted net node).filter fun channel =>
        (state.peers channel).isConnected, rfl, (net.nodup.filter _).filter _, ?_, ?_⟩
      · intro channel member
        have greetedPeer := List.mem_of_mem_filter member
        simp only [greeted, List.mem_filter, Bool.and_eq_true, decide_eq_true_eq] at greetedPeer
        exact greetedPeer.2.1
      · rw [broadcastItem, built]
        exact foldl_sendOn origin .inv short state _

end NetworkState

/-! ## The invariant is kept -/

namespace Gossip

variable {Node Channel : Type} {prim : Primitives} {net : Network Node Channel}
  {introduced : Block → Prop} {state : NetworkState Node Channel}

theorem genesis {cs : Chainstate} (built : Chainstate.initGenesis prim = .ok cs) :
    Gossip prim net introduced (.initial net cs) where
  reaches _ := .genesis built
  readable _ member := by cases member
  relays _ member := by cases member
  logged := List.nodup_nil
  stored _ member := by cases member
  announced := List.nodup_nil
  announced_logged _ member := by cases member
  requested := le_rfl
  served := le_rfl

/-- The sessions do not matter. -/
theorem setPeers (gossip : Gossip prim net introduced state)
    (peers : Channel → PeerConnection) :
    Gossip prim net introduced { state with peers := peers } :=
  ⟨gossip.reaches, gossip.readable, gossip.relays, gossip.logged, gossip.stored,
    gossip.announced, gossip.announced_logged, gossip.requested, gossip.served⟩

/-- A message under way is replaced by the answers to it. -/
theorem answer (gossip : Gossip prim net introduced state)
    {before after answers : List (Envelope Channel)} {envelope : Envelope Channel}
    (underWay : state.inFlight = before ++ envelope :: after)
    (readable : ∀ answer ∈ answers, answer.message.command = .block →
      ∀ block used, Block.deserialize answer.message.payload = .ok (block, used) →
        Known prim introduced (block.hash prim))
    (relays : ∀ answer ∈ answers, answer.origin = .broadcast → answer.Relays)
    (quiet : causedCount .inv answers = 0)
    (requests : causedCount .getdata answers ≤ causedCount .inv [envelope])
    (serves : causedCount .block answers ≤ causedCount .getdata [envelope]) :
    Gossip prim net introduced ({ state with inFlight := before ++ after }.post answers) := by
  have remaining : ∀ other ∈ before ++ after, other ∈ state.inFlight := by
    intro other member
    rw [underWay]
    rcases List.mem_append.mp member with member | member
    · exact List.mem_append_left _ member
    · exact List.mem_append_right _ (List.mem_cons_of_mem _ member)
  have requested := gossip.requested
  have served := gossip.served
  rw [underWay, causedCount_append, causedCount_cons] at requested served
  have sent : announcements (state.sent ++ answers) = announcements state.sent := by
    rw [announcements_append, announcements_eq_nil quiet, List.append_nil]
  refine ⟨gossip.reaches, ?_, ?_, gossip.logged, gossip.stored, ?_, ?_, ?_, ?_⟩
  · intro other member
    rcases List.mem_append.mp member with member | member
    · exact gossip.readable other (remaining other member)
    · exact readable other member
  · intro other member
    rcases List.mem_append.mp member with member | member
    · exact gossip.relays other (remaining other member)
    · exact relays other member
  · simp only [NetworkState.post, sent]
    exact gossip.announced
  · simp only [NetworkState.post, sent]
    exact gossip.announced_logged
  · simp only [NetworkState.post, causedCount_append]
    omega
  · simp only [NetworkState.post, causedCount_append]
    omega

/-- A message under way is lost. -/
theorem lose (gossip : Gossip prim net introduced state)
    {before after : List (Envelope Channel)} {envelope : Envelope Channel}
    (underWay : state.inFlight = before ++ envelope :: after) :
    Gossip prim net introduced { state with inFlight := before ++ after } := by
  have lost := gossip.answer underWay (by simp) (by simp) (causedCount_nil _)
    (Nat.zero_le (causedCount .inv [envelope])) (Nat.zero_le (causedCount .getdata [envelope]))
  simpa [NetworkState.post] using lost

/-- Messages that do not go back to a broadcast do not matter, as long as the
blocks in them are known. -/
theorem post_other (gossip : Gossip prim net introduced state)
    {envelopes : List (Envelope Channel)}
    (other : ∀ envelope ∈ envelopes, envelope.origin = .other)
    (readable : ∀ envelope ∈ envelopes, envelope.message.command = .block →
      ∀ block used, Block.deserialize envelope.message.payload = .ok (block, used) →
        Known prim introduced (block.hash prim)) :
    Gossip prim net introduced (state.post envelopes) := by
  have uncaused : ∀ command, causedCount command envelopes = 0 := by
    intro command
    exact causedCount_eq_zero fun envelope member => causedBy_other (other envelope member)
  have sent : announcements (state.sent ++ envelopes) = announcements state.sent := by
    rw [announcements_append, announcements_eq_nil (uncaused .inv), List.append_nil]
  refine ⟨gossip.reaches, ?_, ?_, gossip.logged, gossip.stored, ?_, ?_, ?_, ?_⟩
  · intro envelope member
    rcases List.mem_append.mp member with member | member
    · exact gossip.readable envelope member
    · exact readable envelope member
  · intro envelope member isBroadcast
    rcases List.mem_append.mp member with member | member
    · exact gossip.relays envelope member isBroadcast
    · rw [other envelope member] at isBroadcast
      cases isBroadcast
  · simp only [NetworkState.post, sent]
    exact gossip.announced
  · simp only [NetworkState.post, sent]
    exact gossip.announced_logged
  · simpa only [NetworkState.post, causedCount_append, uncaused, Nat.add_zero]
      using gossip.requested
  · simpa only [NetworkState.post, causedCount_append, uncaused, Nat.add_zero]
      using gossip.served

/-- A chainstate moves on and keeps its index. -/
theorem setChainstate [DecidableEq Node] (gossip : Gossip prim net introduced state) (node : Node)
    {cs : Chainstate} (reached : Reaches prim (Offered prim introduced) cs)
    (kept : ∀ hash, hash ∈ (state.chainstates node).blockIndex → hash ∈ cs.blockIndex) :
    Gossip prim net introduced (state.setChainstate node cs) := by
  refine ⟨?_, gossip.readable, gossip.relays, gossip.logged, ?_, gossip.announced,
    gossip.announced_logged, gossip.requested, gossip.served⟩
  · intro other
    by_cases same : other = node
    · subst same
      simpa [NetworkState.setChainstate] using reached
    · simpa [NetworkState.setChainstate, same] using gossip.reaches other
  · intro entry member
    obtain ⟨stored, isIntroduced⟩ := gossip.stored entry member
    refine ⟨?_, isIntroduced⟩
    by_cases same : entry.1 = node
    · subst same
      simpa [NetworkState.setChainstate] using kept _ stored
    · simpa [NetworkState.setChainstate, same] using stored

/-- The blocks a node sends in answer to a message are known. -/
theorem readable_of_own (gossip : Gossip prim net introduced state) {node : Node}
    {peer : PeerConnection} {session : Session}
    (own : Session.SendsOwn (.ofChainstate (state.chainstates node)) ⟨peer, []⟩ session)
    {channel : Channel} {origin : Origin} {envelope : Envelope Channel}
    (member : envelope ∈ session.sent.map fun message => ⟨channel, origin, message⟩)
    (isBlock : envelope.message.command = .block) {block : Block} {used : Nat}
    (read : Block.deserialize envelope.message.payload = .ok (block, used)) :
    Known prim introduced (block.hash prim) := by
  obtain ⟨message, sent, rfl⟩ := List.mem_map.mp member
  rcases own message sent with earlier | fromIndex
  · cases earlier
  · obtain ⟨blockHash, served⟩ := fromIndex isBlock
    exact (gossip.reaches node).reads_known served read

variable [DecidableEq Channel]

/-- A session sends something that does not go back to a broadcast. -/
theorem commit_other (gossip : Gossip prim net introduced state)
    (node : Node) {channel : Channel} {peer : PeerConnection} {session : Session}
    (own : Session.SendsOwn (.ofChainstate (state.chainstates node)) ⟨peer, []⟩ session) :
    Gossip prim net introduced (state.commit channel .other session) := by
  refine (gossip.setPeers _).post_other ?_ ?_
  · intro envelope member
    obtain ⟨message, -, rfl⟩ := List.mem_map.mp member
    rfl
  · intro envelope member isBlock block used read
    exact gossip.readable_of_own own member isBlock read

/-- The session of a message that is handled sends the answers to it. -/
theorem commit_answers (gossip : Gossip prim net introduced state)
    {before after : List (Envelope Channel)} {envelope : Envelope Channel}
    (underWay : state.inFlight = before ++ envelope :: after) (now : Int64) (node : Node)
    (peer : PeerConnection) (channel : Channel) :
    Gossip prim net introduced ({ state with inFlight := before ++ after }.commit channel
      envelope.origin (handleMessage prim (.ofChainstate (state.chainstates node)) now
        ⟨peer, []⟩ envelope.message)) := by
  have own := @Session.SendsOwn.handleMessage (.ofChainstate (state.chainstates node)) prim now
    ⟨peer, []⟩ envelope.message
  obtain ⟨sender, origin, command, payload⟩ := envelope
  cases origin with
  | other => exact (gossip.lose underWay).commit_other node own
  | broadcast =>
      have member : (⟨sender, .broadcast, ⟨command, payload⟩⟩ : Envelope Channel) ∈
          state.inFlight := by
        rw [underWay]
        simp
      have readable : ∀ answer ∈ (handleMessage prim (.ofChainstate (state.chainstates node)) now
          ⟨peer, []⟩ ⟨command, payload⟩).sent.map fun message =>
            (⟨channel, .broadcast, message⟩ : Envelope Channel),
          answer.message.command = .block → ∀ block used,
            Block.deserialize answer.message.payload = .ok (block, used) →
              Known prim introduced (block.hash prim) := by
        intro answer isAnswer isBlock block used read
        exact gossip.readable_of_own own isAnswer isBlock read
      rcases answers_of_relays (gossip.relays _ member rfl) prim
        (.ofChainstate (state.chainstates node)) now peer with
        nothing | ⟨rfl, blockHash, length, request⟩ | ⟨rfl, raw, reply⟩
      · refine (gossip.setPeers _).answer underWay readable ?_ ?_ ?_ ?_ <;> simp [nothing]
      · refine (gossip.setPeers _).answer underWay readable ?_ ?_ ?_ ?_
        · simpa [request, Envelope.Relays] using ⟨blockHash, length, rfl⟩
        · simp [request, causedBy]
        · simp [request, causedBy]
        · simp [request, causedBy]
      · refine (gossip.setPeers _).answer underWay readable ?_ ?_ ?_ ?_
        · simp [reply, Envelope.Relays]
        · simp [reply, causedBy]
        · simp [reply, causedBy]
        · simp [reply, causedBy]

/-- The `inv` messages of broadcasts, one for each connection and block at most. -/
theorem announced_le (gossip : Gossip prim net introduced state) {blocks : Finset Block}
    (all : ∀ block, introduced block → block ∈ blocks) :
    causedCount .inv state.sent ≤
      net.channels.length * (blocks.image (Block.hash prim)).card := by
  have within : (announcements state.sent).toFinset ⊆
      net.channels.toFinset ×ˢ (blocks.image (Block.hash prim)).image blockInventory := by
    intro entry member
    obtain ⟨blockHash, logged, payload⟩ :=
      gossip.announced_logged entry (List.mem_toFinset.mp member)
    obtain ⟨-, block, isIntroduced, hash⟩ := gossip.stored _ logged
    refine Finset.mem_product.mpr ⟨List.mem_toFinset.mpr (net.complete _), ?_⟩
    rw [payload]
    refine Finset.mem_image_of_mem _ (Finset.mem_image.mpr ⟨block, all block isIntroduced, ?_⟩)
    exact hash
  calc
    causedCount .inv state.sent = (announcements state.sent).toFinset.card := by
      rw [List.toFinset_card_of_nodup gossip.announced, announcements_length]
    _ ≤ (net.channels.toFinset ×ˢ
          (blocks.image (Block.hash prim)).image blockInventory).card :=
      Finset.card_le_card within
    _ ≤ net.channels.length * (blocks.image (Block.hash prim)).card := by
      rw [Finset.card_product]
      exact Nat.mul_le_mul (List.toFinset_card_le _) Finset.card_image_le

variable [DecidableEq Node]

/-- The first broadcast of a block by a node. -/
theorem broadcastBlock (gossip : Gossip prim net introduced state) {node : Node}
    {blockHash : Bytes} (length : blockHash.length = 32)
    (fresh : (node, blockHash) ∉ state.broadcasts)
    (stored : blockHash ∈ (state.chainstates node).blockIndex)
    (isIntroduced : ∃ block, introduced block ∧ block.hash prim = blockHash) :
    Gossip prim net introduced (state.broadcastBlock net node blockHash) := by
  obtain ⟨payload, peers, built, peersNodup, fromNode, broadcast⟩ :=
    @NetworkState.broadcastItem_eq _ _ _ _ net node .broadcast (invTypeBlock, blockHash) length
      { state with broadcasts := (node, blockHash) :: state.broadcasts }
  rw [buildInvPayload_block] at built
  cases built
  rw [NetworkState.broadcastBlock, broadcast]
  refine ⟨gossip.reaches, ?_, ?_, List.nodup_cons.mpr ⟨fresh, gossip.logged⟩, ?_, ?_, ?_, ?_, ?_⟩
  · intro envelope member isBlock
    rcases List.mem_append.mp member with member | member
    · exact gossip.readable envelope member isBlock
    · rw [(of_mem_announce member).2] at isBlock
      cases isBlock
  · intro envelope member isBroadcast
    rcases List.mem_append.mp member with member | member
    · exact gossip.relays envelope member isBroadcast
    · rw [Envelope.Relays, (of_mem_announce member).2]
      exact Or.inr ⟨Or.inl rfl, blockHash, length, rfl⟩
  · intro entry member
    rcases List.mem_cons.mp member with rfl | member
    · exact ⟨stored, isIntroduced⟩
    · exact gossip.stored entry member
  · simp only [NetworkState.post, announcements_append, announcements_announce]
    refine List.Nodup.append gossip.announced ?_ ?_
    · exact peersNodup.map fun _ _ same => (Prod.mk.inj same).1
    · -- an earlier `inv` for this block would belong to an earlier call
      intro entry earlier new
      obtain ⟨channel, ofPeer, rfl⟩ := List.mem_map.mp new
      obtain ⟨otherHash, logged, same⟩ := gossip.announced_logged _ earlier
      rw [fromNode channel ofPeer, ← blockInventory_injective same] at logged
      exact fresh logged
  · simp only [NetworkState.post, announcements_append, announcements_announce]
    intro entry member
    rcases List.mem_append.mp member with earlier | new
    · obtain ⟨otherHash, logged, same⟩ := gossip.announced_logged entry earlier
      exact ⟨otherHash, List.mem_cons_of_mem _ logged, same⟩
    · obtain ⟨channel, ofPeer, rfl⟩ := List.mem_map.mp new
      refine ⟨blockHash, ?_, rfl⟩
      rw [fromNode channel ofPeer]
      exact List.mem_cons_self
  · have requested := gossip.requested
    have notGetdata := @causedCount_announce Channel .broadcast (blockInventory blockHash) peers
      .getdata (by decide)
    simp only [NetworkState.post, causedCount_append, notGetdata]
    omega
  · have served := gossip.served
    have notGetdata := @causedCount_announce Channel .broadcast (blockInventory blockHash) peers
      .getdata (by decide)
    have notBlock := @causedCount_announce Channel .broadcast (blockInventory blockHash) peers
      .block (by decide)
    simp only [NetworkState.post, causedCount_append, notGetdata, notBlock]
    omega

/-- A block is offered to the chainstate of a node. -/
theorem offerBlock (gossip : Gossip prim net introduced state) {node : Node} {block : Block}
    (wellFormed : block.WellFormed) (known : Known prim introduced (block.hash prim))
    {next : NetworkState Node Channel}
    (offered : state.offerBlock prim net node block = some next) :
    Gossip prim net introduced next := by
  have before := gossip.reaches node
  have moves : ∀ outcome cs,
      (state.chainstates node).processBlock prim block = some (outcome, cs) →
      Gossip prim net introduced (state.setChainstate node cs) := by
    intro outcome cs processed
    exact gossip.setChainstate node (.block before ⟨wellFormed, known⟩ processed)
      fun hash stored => Chainstate.mem_processBlock processed stored
  rw [NetworkState.offerBlock] at offered
  split at offered
  · cases offered
  · rename_i message cs processed
    cases offered
    obtain ⟨fresh, stored⟩ := Chainstate.accepted_fresh processed
    refine (moves _ cs processed).broadcastBlock (prim.hash256_length _) ?_ ?_
      (before.introduced_of_accepted known processed)
    · intro again
      exact fresh (gossip.stored _ again).1
    · simpa [NetworkState.setChainstate] using stored
  · rename_i outcome cs _ processed
    cases offered
    exact moves outcome cs processed

/-- A transaction is offered to the chainstate of a node. -/
theorem offerTx (gossip : Gossip prim net introduced state) (now : Nat) (node : Node)
    (tx : Transaction) : Gossip prim net introduced (state.offerTx prim net now node tx) := by
  have moves : Gossip prim net introduced (state.setChainstate node
      ((state.chainstates node).addTransaction prim tx now).2) :=
    gossip.setChainstate node (.transaction (gossip.reaches node) tx now) fun _ stored => stored
  rw [NetworkState.offerTx]
  split
  · rename_i message cs added
    rw [added] at moves
    obtain ⟨payload, peers, -, -, -, broadcast⟩ :=
      @NetworkState.broadcastItem_eq _ _ _ _ net node .other (invTypeTx, tx.txid prim)
        (prim.hash256_length _) (state.setChainstate node cs)
    rw [NetworkState.broadcastTx, broadcast]
    refine moves.post_other ?_ ?_
    · intro envelope member
      exact (of_mem_announce member).1
    · intro envelope member isBlock
      rw [(of_mem_announce member).2] at isBlock
      cases isBlock
  · rename_i message cs added
    rwa [added] at moves

/-- A message under way is handled. -/
theorem deliver (gossip : Gossip prim net introduced state) {now : Nat}
    {before after : List (Envelope Channel)} {envelope : Envelope Channel}
    (underWay : state.inFlight = before ++ envelope :: after)
    {next : NetworkState Node Channel}
    (handled : { state with inFlight := before ++ after }.handle prim net now envelope =
      some next) : Gossip prim net introduced next := by
  have member : envelope ∈ state.inFlight := by
    rw [underWay]
    simp
  have answered := gossip.commit_answers underWay (.ofNat now) (net.target envelope.channel)
    (state.peers (net.opposite envelope.channel)) (net.opposite envelope.channel)
  rw [NetworkState.handle] at handled
  simp only at handled
  split at handled
  · rename_i isBlock
    rw [NetworkState.onP2pBlock] at handled
    split at handled
    · cases handled
      exact answered
    · rename_i block used read
      exact answered.offerBlock (deserialize_wellFormed read)
        (gossip.readable envelope member isBlock block used read) handled
  · cases handled
    rw [NetworkState.onP2pTx]
    split
    · exact answered
    · exact answered.offerTx now _ _
  · cases handled
    exact answered

end Gossip

/-! ## Whole runs -/

section Runs

variable {Node Channel : Type} [DecidableEq Node] [DecidableEq Channel] {prim : Primitives}
  {net : Network Node Channel} {introduced : Block → Prop} {state : NetworkState Node Channel}

theorem NetworkReaches.gossip (reached : NetworkReaches prim net introduced state) :
    Gossip prim net introduced state := by
  induction reached with
  | genesis built => exact .genesis built
  | connect _ now channel ih =>
      exact ih.commit_other (net.source channel) (Session.SendsOwn.sendVersion _ _ _)
  | introduce _ node isIntroduced wellFormed offered ih =>
      exact ih.offerBlock wellFormed (Or.inr ⟨_, isIntroduced, rfl⟩) offered
  | transaction _ now node tx ih => exact ih.offerTx now node tx
  | deliver _ now underWay _ handled ih => exact ih.deliver underWay handled
  | lose _ underWay ih => exact ih.lose underWay
  | disconnect _ channel ih =>
      exact ih.commit_other (net.source channel) (Session.SendsOwn.refl _)

/-- Gossip cannot loop.  In the whole life of a chainstate `process_block`
returns `True` at most once for each hash.  In every state a network can reach
each node has broadcast each block at most once, and if the blocks introduced
are among finitely many, broadcasts have caused no more messages of each kind
than there are pairs of a channel and a block. -/
theorem gossip_bounded (prim : Primitives) (net : Network Node Channel)
    (introduced : Block → Prop) (state : NetworkState Node Channel)
    (reached : NetworkReaches prim net introduced state) :
    (∀ start cs hashes, Life prim start cs hashes → hashes.Nodup) ∧
    state.broadcasts.Nodup ∧
    ∀ blocks : Finset Block, (∀ block, introduced block → block ∈ blocks) →
      ∀ command ∈ [Command.inv, .getdata, .block],
        causedCount command state.sent ≤
          net.channels.length * (blocks.image (Block.hash prim)).card := by
  have gossip := reached.gossip
  refine ⟨fun start cs hashes life => life.accepted_nodup.1, gossip.logged, ?_⟩
  intro blocks all command kind
  have announced := gossip.announced_le all
  have requested := gossip.requested
  have served := gossip.served
  simp only [List.mem_cons, List.not_mem_nil, or_false] at kind
  rcases kind with rfl | rfl | rfl <;> omega

/-- Deliver the oldest message again and again. -/
def NetworkState.drive (prim : Primitives) (net : Network Node Channel) (now : Nat) :
    Nat → NetworkState Node Channel → Option (NetworkState Node Channel)
  | 0, state => some state
  | fuel + 1, state =>
      match state.inFlight with
      | [] => some state
      | envelope :: rest =>
          if (state.peers (net.opposite envelope.channel)).isConnected then
            ({ state with inFlight := rest }.handle prim net now envelope).bind
              (drive prim net now fuel)
          else drive prim net now fuel { state with inFlight := rest }

theorem NetworkReaches.drive {now fuel : Nat} {last : NetworkState Node Channel}
    (reached : NetworkReaches prim net introduced state)
    (driven : state.drive prim net now fuel = some last) :
    NetworkReaches prim net introduced last := by
  induction fuel generalizing state with
  | zero =>
      cases driven
      exact reached
  | succ fuel ih =>
      rw [NetworkState.drive] at driven
      split at driven
      · cases driven
        exact reached
      · rename_i envelope rest oldest
        have underWay : state.inFlight = [] ++ envelope :: rest := oldest
        split_ifs at driven with connected
        · obtain ⟨next, handled, driven⟩ := Option.bind_eq_some_iff.mp driven
          exact ih (.deliver reached now underWay connected handled) driven
        · exact ih (.lose reached underWay) driven

end Runs

/-! ## A triangle of nodes -/

/-- Three nodes, each connected to the next. -/
def triangle : Network (Fin 3) (Fin 3 × Bool) where
  source channel := if channel.2 then channel.1 else channel.1 + 1
  target channel := if channel.2 then channel.1 + 1 else channel.1
  opposite channel := (channel.1, !channel.2)
  source_opposite := by decide
  target_opposite := by decide
  isInbound channel := !channel.2
  channels := [(0, true), (0, false), (1, true), (1, false), (2, true), (2, false)]
  nodup := by decide
  complete := by decide

def triangleGreeted : NetworkState (Fin 3) (Fin 3 × Bool) :=
  (((NetworkState.initial triangle (genesisState chainPrimitives)).greet triangle 0
    (0, true)).greet triangle 0 (1, true)).greet triangle 0 (2, true)

/-- The handshakes, then a block at the first node and all that follows. -/
def triangleRun : Option (NetworkState (Fin 3) (Fin 3 × Bool)) :=
  (triangleGreeted.drive chainPrimitives triangle 0 12).bind fun state =>
    (state.offerBlock chainPrimitives triangle 0 coinbaseBlock).bind
      (NetworkState.drive chainPrimitives triangle 0 18)

/-- Every node has broadcast the block once, and with no message left under way
there has been one of each kind for each channel. -/
theorem triangleRun_traffic :
    (triangleRun.map fun state => (state.inFlight.length, state.broadcasts.length,
      [Command.inv, .getdata, .block].map fun command => causedCount command state.sent)) =
      some (0, 3, [6, 6, 6]) := by
  decide +kernel

theorem coinbaseBlock_wellFormed : coinbaseBlock.WellFormed :=
  @deserialize_wellFormed coinbaseBlock.serialize coinbaseBlock coinbaseBlock.serialize.length
    (by decide +kernel)

theorem triangleRun_reaches {state : NetworkState (Fin 3) (Fin 3 × Bool)}
    (run : triangleRun = some state) :
    NetworkReaches chainPrimitives triangle (· = coinbaseBlock) state := by
  obtain ⟨ready, greeted, run⟩ := Option.bind_eq_some_iff.mp run
  obtain ⟨mined, offered, run⟩ := Option.bind_eq_some_iff.mp run
  have start : NetworkReaches chainPrimitives triangle (· = coinbaseBlock) triangleGreeted :=
    .connect (.connect (.connect (.genesis chainPrimitives_initGenesis) 0 _) 0 _) 0 _
  exact ((start.drive greeted).introduce 0 rfl coinbaseBlock_wellFormed offered).drive run

/-- In the triangle the bound is reached. -/
theorem triangle_bounded :
    ∃ state, NetworkReaches chainPrimitives triangle (· = coinbaseBlock) state ∧
      state.broadcasts.Nodup ∧
      ∀ command ∈ [Command.inv, .getdata, .block], causedCount command state.sent = 6 ∧
        causedCount command state.sent ≤ 6 * 1 := by
  have traffic := triangleRun_traffic
  cases run : triangleRun with
  | none =>
      rw [run] at traffic
      cases traffic
  | some state =>
      rw [run] at traffic
      have reached := triangleRun_reaches run
      obtain ⟨-, logged, bounded⟩ :=
        gossip_bounded chainPrimitives triangle (· = coinbaseBlock) state reached
      have only := bounded {coinbaseBlock} (by simp)
      refine ⟨state, reached, logged, ?_⟩
      intro command kind
      have counts : [Command.inv, .getdata, .block].map
          (fun command => causedCount command state.sent) = [6, 6, 6] :=
        (Prod.mk.inj (Prod.mk.inj (Option.some.inj traffic)).2).2
      refine ⟨?_, by simpa [triangle] using only command kind⟩
      simp only [List.map_cons, List.map_nil, List.cons.injEq, and_true] at counts
      simp only [List.mem_cons, List.not_mem_nil, or_false] at kind
      rcases kind with rfl | rfl | rfl
      · exact counts.1
      · exact counts.2.1
      · exact counts.2.2

end QuantyCoin
