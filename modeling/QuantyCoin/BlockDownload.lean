import QuantyCoin.PeerMessages
import QuantyCoin.ChainGrowth

/-!
# Downloading blocks

A node asks for the blocks behind a height with `getblocks`.  The answer is one
`inv` with their hashes, which is answered by one `getdata` with the same
items, and that by the blocks.  The callbacks that look up the blocks are those
`node/daemon.py` sets.

An inventory counts its items in a single byte.  Behind 256 missing blocks
`build_inv_payload` raises, the exception is swallowed, and nothing is sent.
-/

namespace QuantyCoin

open AncestorWalk BranchSwitch ByteDecoder

/-! ## The callbacks of the daemon -/

/-- `get_block_by_height`. -/
def Chainstate.getBlockByHeight (cs : Chainstate) (height : Int) :
    Except PyException (Option Block) :=
  if within : 0 ≤ height ∧ height < cs.activeChain.length then
    cs.getBlockByHash (cs.activeChain.get ⟨height.toNat, by omega⟩)
  else .ok none

/-- `get_transaction`. -/
def Mempool.getTransaction (pool : Mempool) (txid : Bytes) : Option Transaction :=
  (pool.entries.lookup txid).map MempoolEntry.tx

/-- The callbacks to a chainstate. -/
def LocalNode.ofChainstate (cs : Chainstate) : LocalNode where
  localHeight := cs.bestTip.height
  getBlockByHeight height := (cs.getBlockByHeight height).map (Option.map Block.serialize)
  getBlockByHash blockHash :=
    (cs.getBlockByHash blockHash).map (Option.map Block.serialize)
  getTxByHash txid :=
    (cs.mempool.getTransaction txid).map fun tx => tx.serialize true

/-- The messages a node sends to a peer when it handles one. -/
def replies (prim : Primitives) (node : LocalNode) (now : Int64) (peer : PeerConnection)
    (message : Message) : List Message :=
  (handleMessage prim node now ⟨peer, []⟩ message).sent

/-- A requester gets all blocks behind a height, in order and each once. -/
def DownloadComplete (prim : Primitives) (cs : Chainstate) (requester : LocalNode)
    (now : Int64) (requesterPeer serverPeer : PeerConnection) (start : Nat)
    (request : Bytes) : Prop :=
  let server := LocalNode.ofChainstate cs
  let missing := cs.activeChain.drop (start + 1)
  if missing = [] then replies prim server now requesterPeer ⟨.getblocks, request⟩ = []
  else
    ∃ (inventory getdata : Bytes) (blocks : List Block),
      replies prim server now requesterPeer ⟨.getblocks, request⟩ = [⟨.inv, inventory⟩] ∧
      parseInvPayload inventory =
        .ok (missing.map fun blockHash => (invTypeBlock, blockHash)) ∧
      replies prim requester now serverPeer ⟨.inv, inventory⟩ = [⟨.getdata, getdata⟩] ∧
      replies prim server now requesterPeer ⟨.getdata, getdata⟩ =
        blocks.map (fun block => ⟨.block, block.serialize⟩) ∧
      blocks.map (Block.hash prim) = missing ∧ missing.Nodup ∧
      ∀ block ∈ blocks, cs.getBlockByHash (block.hash prim) = .ok (some block)

/-! ## The blocks of the active chain -/

/-- A block that can be served under its hash. -/
structure Serves (prim : Primitives) (cs : Chainstate) (blockHash : Bytes) (block : Block) :
    Prop where
  hash_eq : block.hash prim = blockHash
  found : cs.getBlockByHash blockHash = .ok (some block)
  read : Block.deserialize block.serialize = .ok (block, block.serialize.length)
  short : block.serialize.length < 2 ^ 32
  nonempty : block.serialize ≠ []

theorem Block.serialize_ne_nil (block : Block) : block.serialize ≠ [] := by
  simp [Block.serialize, BlockHeader.serialize, packI32, leBytes]

theorem genesisBlock_serialize_length (prim : Primitives) :
    (genesisBlock prim).serialize.length < 2 ^ 32 := by
  have header := (genesisBlock_wellFormed prim).header.serialize_length
  have body : (encodeVarint 1 ++ genesisCoinbase.serialize true).length < 1000 := by
    decide +kernel
  have whole : (genesisBlock prim).serialize.length = 80 +
      (encodeVarint 1 ++ genesisCoinbase.serialize true).length := by
    rw [Block.serialize, List.length_append, header]
    simp [genesisBlock]
  rw [whole]
  omega

/-- Every block in the index can be served. -/
theorem Reaches.serves {prim : Primitives} {cs : Chainstate}
    (reached : Reaches prim (fun _ block => block.WellFormed) cs) {blockHash : Bytes}
    {node : BlockIndexNode} (stored : cs.blockIndex.lookup blockHash = some node) :
    ∃ block, Serves prim cs blockHash block := by
  have tree : IndexTree prim Block.WellFormed cs.blockIndex := by
    apply reached.indexTree
    intro _ block wellFormed
    exact wellFormed
  obtain ⟨block, raw, back, short⟩ : ∃ block, node.rawBlock = block.serialize ∧
      ReadsBack prim blockHash node block ∧ block.serialize.length < 2 ^ 32 := by
    obtain rfl := tree.hash_eq blockHash node stored
    rcases tree.origin _ node stored with
      rfl | ⟨block, parent, work, wellFormed, admissible, rfl⟩
    · exact ⟨_, rfl, readsBack_rootNode prim, genesisBlock_serialize_length prim⟩
    · refine ⟨block, rfl, readsBack_childNode wellFormed admissible.structured, ?_⟩
      exact lt_of_le_of_lt admissible.structured.size (by decide)
  refine ⟨block, back.hash_eq, ?_, ?_, short, block.serialize_ne_nil⟩
  · rw [Chainstate.getBlockByHash, stored]
    simp only [back.read, Except.map]
  · rw [← raw]
    exact back.read

/-- The blocks of a list of hashes. -/
theorem exists_served {prim : Primitives} {cs : Chainstate} {hashes : List Bytes}
    (served : ∀ blockHash ∈ hashes, ∃ block, Serves prim cs blockHash block) :
    ∃ blocks, List.Forall₂ (Serves prim cs) hashes blocks := by
  induction hashes with
  | nil => exact ⟨[], .nil⟩
  | cons blockHash hashes ih =>
      obtain ⟨block, serves⟩ := served blockHash (by simp)
      obtain ⟨blocks, rest⟩ := ih fun other member => served other (by simp [member])
      exact ⟨block :: blocks, .cons serves rest⟩

theorem Serves.map_hash {prim : Primitives} {cs : Chainstate} {hashes : List Bytes}
    {blocks : List Block} (served : List.Forall₂ (Serves prim cs) hashes blocks) :
    blocks.map (Block.hash prim) = hashes ∧
      ∀ block ∈ blocks, cs.getBlockByHash (block.hash prim) = .ok (some block) := by
  induction served with
  | nil => simp
  | cons serves _ ih =>
      refine ⟨by rw [List.map_cons, ih.1, serves.hash_eq], ?_⟩
      intro other member
      rcases List.mem_cons.mp member with rfl | member
      · rw [serves.hash_eq]
        exact serves.found
      · exact ih.2 other member

theorem Serves.invItem_length {prim : Primitives} {cs : Chainstate} {hashes : List Bytes}
    (served : ∀ blockHash ∈ hashes, ∃ block, Serves prim cs blockHash block) :
    ∀ item ∈ hashes.map (fun blockHash => (invTypeBlock, blockHash)), item.2.length = 32 := by
  intro item member
  obtain ⟨blockHash, memberOf, rfl⟩ := List.mem_map.mp member
  obtain ⟨block, serves⟩ := served blockHash memberOf
  rw [← serves.hash_eq]
  exact prim.hash256_length _

/-- Position by position, the heights behind a start and the rest of the active
chain are looked up with the same result. -/
theorem forall₂_heightsAfter (cs : Chainstate) {height : Nat}
    (covers : cs.activeChain.length = height + 1) (start : Nat) :
    List.Forall₂ (fun at' blockHash => cs.getBlockByHeight at' = cs.getBlockByHash blockHash)
      (heightsAfter start height) (cs.activeChain.drop (start + 1)) := by
  rw [List.forall₂_iff_get]
  refine ⟨?_, ?_⟩
  · simp [heightsAfter]
    omega
  · intro step within within'
    have inside : start + 1 + step < cs.activeChain.length := by
      simp at within'
      omega
    have same : ((start : Int) + 1 + step).toNat = start + 1 + step := by omega
    have covered : 0 ≤ (start : Int) + 1 + step ∧
        (start : Int) + 1 + step < cs.activeChain.length := by omega
    simp only [heightsAfter, List.get_eq_getElem, List.getElem_map, List.getElem_range,
      List.getElem_drop]
    rw [Chainstate.getBlockByHeight, dif_pos covered]
    simp only [List.get_eq_getElem, same]

theorem parseStartHeight_packHeight {start : Nat} {request : Bytes}
    (packed : packHeight start = .ok request) : parseStartHeight request = .ok start := by
  obtain ⟨fits, rfl⟩ := packHeight_eq_ok.mp packed
  have bound : (Int32.ofNat start).toUInt32.toNat < 256 ^ 4 := UInt32.toNat_lt _
  have back : (UInt32.ofNat (Int32.ofNat start).toUInt32.toNat).toInt32 = Int32.ofNat start := by
    rw [UInt32.ofNat_toNat]
    rfl
  rw [parseStartHeight, if_pos (by simp [packI32]), packI32, unpack_leBytes bound]
  simp only [Except.map, back, Int32.toInt_ofNat_of_lt fits]

/-! ## The three handlers -/

section Handlers

variable {prim : Primitives} {cs : Chainstate}

@[simp]
theorem whenTruthy_some {data : Bytes} (nonempty : data ≠ []) :
    whenTruthy (some data) = some data := by
  simp [whenTruthy, nonempty]

/-- The blocks at consecutive heights are listed by their hashes. -/
theorem collectInvItems_eq {heights : List Int} {hashes : List Bytes}
    (aligned : List.Forall₂
      (fun height blockHash => cs.getBlockByHeight height = cs.getBlockByHash blockHash)
      heights hashes)
    (served : ∀ blockHash ∈ hashes, ∃ block, Serves prim cs blockHash block) :
    collectInvItems prim (.ofChainstate cs) heights =
      .ok (hashes.map fun blockHash => (invTypeBlock, blockHash)) := by
  induction aligned with
  | nil => rfl
  | @cons height blockHash heights hashes same _ ih =>
      obtain ⟨block, serves⟩ := served blockHash (by simp)
      have rest := ih fun other member => served other (by simp [member])
      have answer : (LocalNode.ofChainstate cs).getBlockByHeight height =
          .ok (some block.serialize) := by
        simp only [LocalNode.ofChainstate, same, serves.found]
        rfl
      simp only [collectInvItems, answer, bind, Except.bind, whenTruthy_some serves.nonempty,
        serves.read, rest, serves.hash_eq, List.map_cons]

/-- The blocks are sent one after another. -/
theorem runAll_serveItem {hashes : List Bytes} {blocks : List Block}
    (served : List.Forall₂ (Serves prim cs) hashes blocks) {session : Session}
    (connected : session.peer.isConnected = true) :
    runAll (serveItem (.ofChainstate cs)) session
        (hashes.map fun blockHash => (invTypeBlock, blockHash)) =
      (.ok (), { session with
        sent := session.sent ++ blocks.map fun block => ⟨.block, block.serialize⟩ }) := by
  induction served generalizing session with
  | nil => simp [runAll]
  | @cons blockHash block hashes blocks serves _ ih =>
      have answer : (LocalNode.ofChainstate cs).getBlockByHash blockHash =
          .ok (some block.serialize) := by
        simp only [LocalNode.ofChainstate, serves.found]
        rfl
      have sent : serveItem (.ofChainstate cs) session (invTypeBlock, blockHash) =
          (.ok (), { session with
            sent := session.sent ++ [⟨.block, block.serialize⟩] }) := by
        simp only [serveItem, if_true, answer, whenTruthy_some serves.nonempty,
          sendMessage_small connected .block serves.short]
      refine runAll_cons_ok.mpr ⟨_, sent, ?_⟩
      have rest := @ih ⟨session.peer, session.sent ++ [⟨.block, block.serialize⟩]⟩ connected
      rw [List.append_assoc, List.singleton_append] at rest
      exact rest

/-- Up to 255 items are put on the wire as they are. -/
theorem sendInventory_eq {session : Session} (connected : session.peer.isConnected = true)
    (command : Command) {items : List InvItem} (short : items.length ≤ 255)
    (lengths : ∀ item ∈ items, item.2.length = 32) :
    ∃ payload, parseInvPayload payload = .ok items ∧
      sendInventory command items session =
        (.ok (), { session with sent := session.sent ++ [⟨command, payload⟩] }) := by
  obtain ⟨payload, built, parsed⟩ := parseInvPayload_build short lengths
  have small : payload.length < 2 ^ 32 := by
    rw [buildInvPayload_length built lengths]
    omega
  refine ⟨payload, parsed, ?_⟩
  simp only [sendInventory, built, sendMessage_small connected command small]

/-- What the answer to a request for blocks depends on. -/
theorem replies_getblocks {now : Int64} {peer : PeerConnection} {height start : Nat}
    {request : Bytes} (tip : cs.bestTip.height = height)
    (covers : cs.activeChain.length = height + 1)
    (served : ∀ blockHash ∈ cs.activeChain, ∃ block, Serves prim cs blockHash block)
    (packed : packHeight start = .ok request) :
    replies prim (.ofChainstate cs) now peer ⟨.getblocks, request⟩ =
      if cs.activeChain.drop (start + 1) = [] then []
      else
        (sendInventory .inv ((cs.activeChain.drop (start + 1)).map
          fun blockHash => (invTypeBlock, blockHash)) ⟨peer, []⟩).2.sent := by
  have collected : collectInvItems prim (.ofChainstate cs)
      (heightsAfter start (LocalNode.ofChainstate cs).localHeight) =
        .ok ((cs.activeChain.drop (start + 1)).map
          fun blockHash => (invTypeBlock, blockHash)) := by
    apply collectInvItems_eq
    · rw [show (LocalNode.ofChainstate cs).localHeight = height from tip]
      exact forall₂_heightsAfter cs covers start
    · intro blockHash member
      exact served blockHash (List.mem_of_mem_drop member)
  rw [replies, handleMessage]
  simp only [handleGetblocks, parseStartHeight_packHeight packed, Except.bind, collected]
  cases cs.activeChain.drop (start + 1) with
  | nil => rfl
  | cons blockHash rest => rfl

/-- An inventory is answered by a request for all of it. -/
theorem replies_inv {requester : LocalNode} {now : Int64} {peer : PeerConnection}
    {payload : Bytes} {items : List InvItem} (connected : peer.isConnected = true)
    (parsed : parseInvPayload payload = .ok items) (nonempty : items ≠ [])
    (short : items.length ≤ 255) (lengths : ∀ item ∈ items, item.2.length = 32) :
    ∃ getdata, replies prim requester now peer ⟨.inv, payload⟩ = [⟨.getdata, getdata⟩] ∧
      parseInvPayload getdata = .ok items := by
  obtain ⟨getdata, parsedAgain, sent⟩ :=
    @sendInventory_eq ⟨peer, []⟩ connected .getdata items short lengths
  refine ⟨getdata, ?_, parsedAgain⟩
  rw [replies, handleMessage]
  cases items with
  | nil => exact (nonempty rfl).elim
  | cons item items => simp only [handleInv, parsed, sent, List.nil_append]

/-- The request is answered by the blocks. -/
theorem replies_getdata {now : Int64} {peer : PeerConnection} {payload : Bytes}
    {hashes : List Bytes} {blocks : List Block} (connected : peer.isConnected = true)
    (parsed : parseInvPayload payload =
      .ok (hashes.map fun blockHash => (invTypeBlock, blockHash)))
    (served : List.Forall₂ (Serves prim cs) hashes blocks) :
    replies prim (.ofChainstate cs) now peer ⟨.getdata, payload⟩ =
      blocks.map fun block => ⟨.block, block.serialize⟩ := by
  rw [replies, handleMessage]
  simp only [handleGetdata, parsed,
    @runAll_serveItem prim cs hashes blocks served ⟨peer, []⟩ connected, List.nil_append]

end Handlers

/-- The active chain of a reached state: as long as the tip is high, without
repetitions, and served. -/
theorem Reaches.servesActive {prim : Primitives} (hashNonzero : prim.HashNonzero)
    {cs : Chainstate} (reached : Reaches prim (fun _ block => block.WellFormed) cs) :
    cs.activeChain.length = cs.bestTip.height + 1 ∧ cs.activeChain.Nodup ∧
      ∀ blockHash ∈ cs.activeChain, ∃ block, Serves prim cs blockHash block := by
  obtain ⟨line, tip, active⟩ := reached.active hashNonzero
  rw [active]
  refine ⟨by rw [List.length_map, tip.length_eq], tip.keys_nodup, ?_⟩
  intro blockHash member
  obtain ⟨node, memberOf, rfl⟩ := List.mem_map.mp member
  exact reached.serves (tip.stored node memberOf)

section Download

variable {prim : Primitives} {cs : Chainstate} {requester : LocalNode} {now : Int64}
  {requesterPeer serverPeer : PeerConnection} {start : Nat} {request : Bytes}

/-- More than 255 missing blocks are not answered at all. -/
theorem replies_getblocks_of_long (hashNonzero : prim.HashNonzero)
    (reached : Reaches prim (fun _ block => block.WellFormed) cs)
    (packed : packHeight start = .ok request) (long : start + 256 < cs.activeChain.length) :
    replies prim (.ofChainstate cs) now requesterPeer ⟨.getblocks, request⟩ = [] := by
  obtain ⟨length, -, served⟩ := reached.servesActive hashNonzero
  rw [replies_getblocks rfl length served packed]
  split_ifs
  · rfl
  · have tooMany : 255 < ((cs.activeChain.drop (start + 1)).map
        fun blockHash => (invTypeBlock, blockHash)).length := by
      rw [List.length_map, List.length_drop]
      omega
    rw [sendInventory, buildInvPayload_of_long tooMany]

/-- A download that needs an answer and gets none is not complete. -/
theorem DownloadComplete.answered
    (complete : DownloadComplete prim cs requester now requesterPeer serverPeer start request)
    (more : start + 1 < cs.activeChain.length) :
    replies prim (.ofChainstate cs) now requesterPeer ⟨.getblocks, request⟩ ≠ [] := by
  rw [DownloadComplete, if_neg (by rw [List.drop_eq_nil_iff]; omega)] at complete
  obtain ⟨inventory, getdata, blocks, sent, -⟩ := complete
  rw [sent]
  simp

/-- Up to 255 missing blocks are announced, requested and sent. -/
theorem downloadComplete_of_short (hashNonzero : prim.HashNonzero)
    (reached : Reaches prim (fun _ block => block.WellFormed) cs)
    (serverConnected : requesterPeer.isConnected = true)
    (requesterConnected : serverPeer.isConnected = true)
    (packed : packHeight start = .ok request) (short : cs.activeChain.length ≤ start + 256) :
    DownloadComplete prim cs requester now requesterPeer serverPeer start request := by
  obtain ⟨length, distinct, served⟩ := reached.servesActive hashNonzero
  have missingShort : (cs.activeChain.drop (start + 1)).length ≤ 255 := by
    rw [List.length_drop]
    omega
  have servedMissing : ∀ blockHash ∈ cs.activeChain.drop (start + 1),
      ∃ block, Serves prim cs blockHash block :=
    fun blockHash member => served blockHash (List.mem_of_mem_drop member)
  have distinctMissing := distinct.sublist (List.drop_sublist (start + 1) cs.activeChain)
  rw [DownloadComplete, replies_getblocks rfl length served packed]
  generalize cs.activeChain.drop (start + 1) = missing at *
  by_cases nothing : missing = []
  · rw [if_pos nothing, if_pos nothing]
  rw [if_neg nothing, if_neg nothing]
  obtain ⟨blocks, all⟩ := exists_served servedMissing
  obtain ⟨hashes, found⟩ := Serves.map_hash all
  have itemsShort : (missing.map fun blockHash => (invTypeBlock, blockHash)).length ≤ 255 := by
    rwa [List.length_map]
  have lengths := Serves.invItem_length servedMissing
  obtain ⟨inventory, parsed, sent⟩ :=
    @sendInventory_eq ⟨requesterPeer, []⟩ serverConnected .inv _ itemsShort lengths
  obtain ⟨getdata, requested, parsedAgain⟩ := @replies_inv prim requester now serverPeer _ _
    requesterConnected parsed (by simpa using nothing) itemsShort lengths
  refine ⟨inventory, getdata, blocks, by rw [sent]; rfl, parsed, requested, ?_, hashes,
    distinctMissing, found⟩
  exact replies_getdata serverConnected parsedAgain all

end Download

/-- A download is complete exactly if no more than 255 blocks are missing. -/
theorem downloadComplete_iff (prim : Primitives) (hashNonzero : prim.HashNonzero)
    (cs : Chainstate) (reached : Reaches prim (fun _ block => block.WellFormed) cs)
    (height : Nat) (covers : cs.activeChain.length = height + 1) (requester : LocalNode)
    (now : Int64) (requesterPeer serverPeer : PeerConnection)
    (serverConnected : requesterPeer.isConnected = true)
    (requesterConnected : serverPeer.isConnected = true) (start : Nat) (request : Bytes)
    (packed : packHeight start = .ok request) :
    DownloadComplete prim cs requester now requesterPeer serverPeer start request ↔
      height ≤ start + 255 := by
  constructor
  · intro complete
    by_contra long
    exact complete.answered (by omega)
      (replies_getblocks_of_long hashNonzero reached packed (by omega))
  · intro short
    exact downloadComplete_of_short hashNonzero reached serverConnected requesterConnected
      packed (by omega)

/-! ## A chain of 256 blocks -/

/-- A node can reach a chain of 256 blocks behind genesis. -/
theorem longChain_reached : ∃ cs,
    Reaches longChainPrimitives (fun _ block => block.WellFormed) cs ∧
      cs.activeChain.length = 256 + 1 := by
  obtain ⟨cs, reached, grown, -⟩ := @longChain_grown (fun _ block => block.WellFormed)
    fun _ mined _ _ member _ _ => MinedBlock.toBlock_wellFormed (longChain_coinbases mined member)
  refine ⟨cs, reached, ?_⟩
  have atGenesis : (genesisState longChainPrimitives).bestTip.height = 0 := rfl
  rw [(reached.servesActive longChainPrimitives_hashNonzero).1, grown.height, longChain_length,
    atGenesis]

/-- From height 1 on the whole chain is downloaded. -/
theorem longChain_download : ∃ cs,
    Reaches longChainPrimitives (fun _ block => block.WellFormed) cs ∧
      cs.activeChain.length = 256 + 1 ∧ packHeight 1 = .ok (packI32 1) ∧
      DownloadComplete longChainPrimitives cs (.ofChainstate (genesisState longChainPrimitives))
        0 (.new true) (.new false) 1 (packI32 1) := by
  obtain ⟨cs, reached, length⟩ := longChain_reached
  refine ⟨cs, reached, length, rfl, ?_⟩
  exact (downloadComplete_iff longChainPrimitives longChainPrimitives_hashNonzero cs reached 256
    length _ 0 (.new true) (.new false) rfl rfl 1 (packI32 1) rfl).mpr (by decide)

/-- From genesis on nothing is downloaded. -/
theorem longChain_silent : ∃ cs,
    Reaches longChainPrimitives (fun _ block => block.WellFormed) cs ∧
      cs.activeChain.length = 256 + 1 ∧ packHeight 0 = .ok (packI32 0) ∧
      replies longChainPrimitives (.ofChainstate cs) 0 (.new true)
        ⟨.getblocks, packI32 0⟩ = [] ∧
      ¬ DownloadComplete longChainPrimitives cs
        (.ofChainstate (genesisState longChainPrimitives)) 0 (.new true) (.new false) 0
        (packI32 0) := by
  obtain ⟨cs, reached, length⟩ := longChain_reached
  have packed : packHeight 0 = .ok (packI32 0) := rfl
  have silent := @replies_getblocks_of_long longChainPrimitives cs 0 (.new true) 0 (packI32 0)
    longChainPrimitives_hashNonzero reached packed (by omega)
  exact ⟨cs, reached, length, packed, silent,
    fun complete => complete.answered (by omega) silent⟩

end QuantyCoin
