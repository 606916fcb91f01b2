import QuantyCoin.MempoolInvariant
import QuantyCoin.StoredBlocks

/-!
# Growing the active chain

A block behind the tip becomes the tip if its transactions can be applied.  Blocks
with nothing but a coinbase can be put on top of each other this way, as far as their
digests are known.  The unspent outputs that they do not create stay, so that an output
can be left to mature.
-/

namespace QuantyCoin

open AncestorWalk BranchSwitch ByteDecoder MapJournal

/-! ## One block -/

/-- A block behind the tip whose transactions can be applied becomes the tip. -/
theorem Reaches.processBlock_grows {prim : Primitives} (hashNonzero : prim.HashNonzero)
    {admits : Chainstate → Block → Prop} {cs : Chainstate} (reached : Reaches prim admits cs)
    {block : Block} (wellFormed : block.WellFormed) (fresh : block.hash prim ∉ cs.blockIndex)
    {work : Nat} (admissible : Admissible prim cs.blockIndex block cs.bestTip work)
    (positive : 0 < work) {undo : BlockUndo} {utxoSet : UTXOSet}
    (applied : cs.utxoSet.applyBlock prim (block.hash prim) (cs.bestTip.height + 1)
      block.transactions = (.ok undo, utxoSet)) :
    ∃ message next, cs.processBlock prim block = some (.ok (true, message), next) ∧
      next.bestTip = childNode prim block cs.bestTip work ∧
      next.blockIndex = storeNode cs.blockIndex (childNode prim block cs.bestTip work) ∧
      next.utxoSet = utxoSet := by
  obtain ⟨line, tip, active⟩ := reached.active hashNonzero
  have index : IndexTree prim (fun _ => True) cs.blockIndex :=
    reached.indexTree fun _ _ _ => trivial
  rcases Chainstate.processBlock_cases prim cs block with
    ⟨result, -, -, known | refused⟩ | ⟨-, parent, work', admitted, chosen⟩
  · exact (fresh known).elim
  · exact (refused _ _ admissible).elim
  obtain ⟨rfl, rfl⟩ := admissible.unique admitted
  have heavier : cs.bestTip.chainwork < (childNode prim block cs.bestTip work).chainwork :=
    Nat.lt_add_of_pos_right positive
  obtain ⟨shared, old, new, currentEq, targetEq, apart, forked⟩ :=
    Chainstate.chooseFork_heavier index ⟨line, tip, active⟩ hashNonzero admissible rfl fresh
      heavier tip tip
  -- The new branch starts with the old one, which it is apart from.
  have newEq : new = old ++ [childNode prim block cs.bestTip work] := by
    rw [currentEq, List.append_assoc] at targetEq
    exact (List.append_cancel_left targetEq).symm
  have noOld : old = [] := by
    cases old with
    | nil => rfl
    | cons first old => exact (apart first (by simp [newEq]) (by simp [currentEq])).elim
  have connected : connectNode prim cs.utxoSet (childNode prim block cs.bestTip work) =
      (.ok (), utxoSet) := by
    rw [connectNode, childNode_rawBlock,
      deserialize_serialize wellFormed admissible.structured.inputs]
    simp only
    rw [show (childNode prim block cs.bestTip work).hash = block.hash prim from rfl,
      show (childNode prim block cs.bestTip work).height = cs.bestTip.height + 1 from rfl,
      applied]
  have switched : switchBranch (connectNode prim) disconnectNode cs.utxoSet old.reverse new =
      (.ok none, utxoSet) := by
    rw [newEq, noOld]
    have run : runAll (connectNode prim) cs.utxoSet
        ([] ++ [childNode prim block cs.bestTip work]) = (.ok (), utxoSet) := by
      rw [List.nil_append, runAll_singleton, connected]
    exact @switchBranch_completes _ _ _ _ _ cs.utxoSet _ _ [] _ trivial rfl run
  rw [forked, switched] at chosen
  exact ⟨_, _, chosen, rfl, rfl, rfl⟩

/-- Outputs that a block neither creates nor spends stay as they are. -/
theorem lookup_applyBlock {prim : Primitives} {set next : UTXOSet} {blockHash : Bytes}
    {height : Nat} {transactions : List Transaction} {undo : BlockUndo} {outpoint : Outpoint}
    (applied : set.applyBlock prim blockHash height transactions = (.ok undo, next))
    (notCreated : outpoint ∉ createdOutpoints prim transactions)
    (notSpent : outpoint ∉ spentOutpoints transactions) :
    next.utxos.lookup outpoint = set.utxos.lookup outpoint := by
  obtain ⟨journal, completed, -, rfl⟩ := applyBlock_eq_ok.mp applied
  rw [← putKeys_blockEvents prim height] at notCreated
  rw [← take_mem_blockEvents prim height] at notSpent
  have tracked := run_lookup completed outpoint
  rw [track_untouched outpoint _ notSpent notCreated] at tracked
  exact congrArg Prod.fst tracked

/-- The only output of a coinbase is there once it is applied. -/
theorem lookup_applyBlock_coinbase {prim : Primitives} {set next : UTXOSet} {blockHash : Bytes}
    {height : Nat} {coinbase : Transaction} {out : TxOut} {undo : BlockUndo}
    (applied : set.applyBlock prim blockHash height [coinbase] = (.ok undo, next))
    (isCoinbase : coinbase.isCoinbase = true) (only : coinbase.vout = [out]) :
    next.utxos.lookup (coinbase.txid prim, 0) =
      some ⟨out.value, out.scriptPubkey, height, true⟩ := by
  obtain ⟨journal, completed, -, rfl⟩ := applyBlock_eq_ok.mp applied
  have events : blockEvents prim height [coinbase] =
      [.put (coinbase.txid prim, 0) ⟨out.value, out.scriptPubkey, height, true⟩] := by
    simp [blockEvents, transactionEvents, spendEvents, createEvents, isCoinbase, only]
  rw [events] at completed
  have tracked := run_lookup completed (coinbase.txid prim, 0)
  simp only [List.foldl_cons, List.foldl_nil, track, if_true] at tracked
  exact congrArg Prod.fst tracked

/-- A block behind the tip of a replayed chain meets the set of the node. -/
theorem ReplayedChain.offers {prim : Primitives} {offered : Block → Prop} {cs : Chainstate}
    (chain : ReplayedChain prim offered cs) {good : BlockIndexNode → Block → UTXOSet → Prop}
    {block : Block} (wellFormed : block.WellFormed)
    (onTip : block.header.prevBlock = cs.bestTip.hash)
    (holds : ∀ work, good (childNode prim block cs.bestTip work) block cs.utxoSet) :
    Offers prim good cs block := by
  obtain ⟨line, tip, -⟩ := chain.tree.active
  intro parent work above admissible lineage base read used replayed readBack
  have stored := admissible.parent_stored
  rw [onTip, tip.node_stored] at stored
  cases stored
  rw [chain.replayed above lineage] at replayed
  cases replayed
  rw [childNode_rawBlock, deserialize_serialize wellFormed admissible.structured.inputs]
    at readBack
  cases readBack
  exact holds work

/-! ## Mined blocks -/

/-- A block with nothing but a coinbase, and the digests of its coinbase and header. -/
structure MinedBlock where
  coinbase : Transaction
  nonce : UInt32
  txid : Nat
  digest : Nat

/-- The block on top of a block with the given digest. -/
def MinedBlock.toBlock (mined : MinedBlock) (previous : Nat) : Block where
  header :=
    { version := 1
      prevBlock := leBytes 32 previous
      merkleRoot := leBytes 32 mined.txid
      timestamp := genesisTimestamp + 120
      bits := 0x207fffff
      nonce := mined.nonce }
  transactions := [mined.coinbase]

/-- The headers of blocks on top of each other. -/
def minedHeaders : Nat → List MinedBlock → List BlockHeader
  | _, [] => []
  | previous, mined :: chain => (mined.toBlock previous).header :: minedHeaders mined.digest chain

/-- The serialized headers of blocks on top of each other, with the digest of each. -/
def minedDigests : Nat → List MinedBlock → List (Bytes × Nat)
  | _, [] => []
  | previous, mined :: chain =>
      ((mined.toBlock previous).header.serialize, mined.digest) ::
        minedDigests mined.digest chain

/-- The serialized coinbases, with the digest of each. -/
def coinbaseDigests (chain : List MinedBlock) : List (Bytes × Nat) :=
  chain.map fun mined => (mined.coinbase.serialize false, mined.txid)

/-- The digest of the last block. -/
def lastDigest (previous : Nat) (chain : List MinedBlock) : Nat :=
  (chain.map MinedBlock.digest).getLastD previous

def easyTarget : Nat := 0x7fffff * 256 ^ 29

/-- A coinbase that passes the checks on a single transaction. -/
structure SoundCoinbase (tx : Transaction) : Prop where
  isCoinbase : tx.isCoinbase = true
  valid : tx.validateStructure.1 = true
  wellFormed : tx.WellFormed
  small : (encodeVarint 1 ++ tx.serialize true).length < 1000

/-- What the primitives have to give for blocks to be mined. -/
structure Mined (prim : Primitives) (previous : Nat) (chain : List MinedBlock) : Prop where
  hashes : ∀ entry ∈ minedDigests previous chain, prim.hash256 entry.1 = leBytes 32 entry.2
  txids : ∀ mined ∈ chain, mined.coinbase.txid prim = leBytes 32 mined.txid
  coinbases : ∀ mined ∈ chain, SoundCoinbase mined.coinbase
  targets : ∀ mined ∈ chain, mined.digest ≤ easyTarget
  fits : ∀ mined ∈ chain, mined.txid < 256 ^ 32
  distinct : (chain.map MinedBlock.digest).Nodup
  distinctTxids : (chain.map MinedBlock.txid).Nodup

theorem leBytes_injective {width first second : Nat} (firstFits : first < 256 ^ width)
    (secondFits : second < 256 ^ width) (same : leBytes width first = leBytes width second) :
    first = second := by
  rw [← leValue_leBytes firstFits, same, leValue_leBytes secondFits]

namespace MinedBlock

variable {mined : MinedBlock} {previous : Nat}

theorem toBlock_wellFormed (sound : SoundCoinbase mined.coinbase) :
    (mined.toBlock previous).WellFormed := by
  refine ⟨⟨leBytes_length 32 previous, leBytes_length 32 mined.txid⟩, ?_, ?_⟩
  · rw [toBlock, List.length_singleton]
    decide
  · intro tx member
    rw [List.mem_singleton.mp member]
    exact sound.wellFormed

theorem toBlock_powType : (mined.toBlock previous).header.powType = 0 := by
  have version : (mined.toBlock previous).header.version = 1 := rfl
  rw [BlockHeader.powType, version]
  decide

theorem toBlock_structured {prim : Primitives}
    (hashed : (mined.toBlock previous).hash prim = leBytes 32 mined.digest)
    (txid : mined.coinbase.txid prim = leBytes 32 mined.txid)
    (met : mined.digest ≤ easyTarget) (sound : SoundCoinbase mined.coinbase) :
    (mined.toBlock previous).Structured prim := by
  have target : (mined.toBlock previous).header.getTarget = easyTarget := by
    have bits : (mined.toBlock previous).header.bits = 0x207fffff := rfl
    rw [BlockHeader.getTarget, bits]
    decide
  refine ⟨?_, ⟨mined.coinbase, [], rfl, sound.isCoinbase, by simp⟩, ?_, ?_, ?_⟩
  · have value : leValue (leBytes 32 mined.digest) = mined.digest :=
      leValue_leBytes (lt_of_le_of_lt met (by decide))
    rw [BlockHeader.verifyPow, BlockHeader.powHash, toBlock_powType, if_neg (by decide), target]
    rw [Block.hash] at hashed
    rw [hashed, value]
    exact decide_eq_true met
  · intro tx member
    rw [List.mem_singleton.mp member]
    exact sound.valid
  · have root : (mined.toBlock previous).calculateMerkleRoot prim = mined.coinbase.txid prim :=
      rfl
    rw [Block.verifyMerkleRoot, root, txid]
    exact decide_eq_true rfl
  · have header := (@toBlock_wellFormed mined previous sound).header.serialize_length
    rw [Block.serialize, List.length_append, header]
    have body : (encodeVarint (mined.toBlock previous).transactions.length ++
        (mined.toBlock previous).transactions.flatMap fun tx =>
          tx.serialize true).length < 1000 := by
      rw [toBlock, List.flatMap_singleton]
      exact sound.small
    exact Nat.le_trans (Nat.add_lt_add_left body 80).le (by decide)

theorem getBlockWork_toBlock : ∃ work, 0 < work ∧
    getBlockWork (mined.toBlock previous).header.bits.toNat
      (mined.toBlock previous).header.powType = .ok work := by
  have bits : (mined.toBlock previous).header.bits = 0x207fffff := rfl
  refine ⟨2, by decide, ?_⟩
  rw [bits, toBlock_powType]
  decide

theorem spentOutpoints_toBlock (sound : SoundCoinbase mined.coinbase) :
    spentOutpoints (mined.toBlock previous).transactions = [] := by
  simp [spentOutpoints, toBlock, sound.isCoinbase]

theorem of_mem_createdOutpoints {prim : Primitives}
    (txid : mined.coinbase.txid prim = leBytes 32 mined.txid) {outpoint : Outpoint}
    (created : outpoint ∈ createdOutpoints prim (mined.toBlock previous).transactions) :
    outpoint.1 = leBytes 32 mined.txid := by
  rw [createdOutpoints, toBlock, List.flatMap_singleton, List.mem_map] at created
  obtain ⟨out, -, rfl⟩ := created
  exact txid

end MinedBlock

namespace Mined

variable {prim : Primitives} {previous : Nat} {mined : MinedBlock} {chain : List MinedBlock}

theorem hash_eq (possible : Mined prim previous (mined :: chain)) :
    (mined.toBlock previous).hash prim = leBytes 32 mined.digest :=
  possible.hashes ((mined.toBlock previous).header.serialize, mined.digest)
    (by simp [minedDigests])

theorem txid_eq (possible : Mined prim previous (mined :: chain)) :
    mined.coinbase.txid prim = leBytes 32 mined.txid :=
  possible.txids mined List.mem_cons_self

theorem sound (possible : Mined prim previous (mined :: chain)) : SoundCoinbase mined.coinbase :=
  possible.coinbases mined List.mem_cons_self

theorem structured (possible : Mined prim previous (mined :: chain)) :
    (mined.toBlock previous).Structured prim :=
  MinedBlock.toBlock_structured possible.hash_eq possible.txid_eq
    (possible.targets mined List.mem_cons_self) possible.sound

theorem tail (possible : Mined prim previous (mined :: chain)) : Mined prim mined.digest chain where
  hashes entry member := possible.hashes entry (by simp [minedDigests, member])
  txids entry member := possible.txids entry (by simp [member])
  coinbases entry member := possible.coinbases entry (by simp [member])
  targets entry member := possible.targets entry (by simp [member])
  fits entry member := possible.fits entry (by simp [member])
  distinct := (List.nodup_cons.mp possible.distinct).2
  distinctTxids := (List.nodup_cons.mp possible.distinctTxids).2

/-- The digest of the first block does not come back. -/
theorem apart (possible : Mined prim previous (mined :: chain)) :
    ∀ later ∈ chain, leBytes 32 later.digest ≠ leBytes 32 mined.digest := by
  intro later member same
  have fits : ∀ other ∈ mined :: chain, other.digest < 256 ^ 32 := fun other memberOf =>
    lt_of_le_of_lt (possible.targets other memberOf) (by decide)
  have equal := leBytes_injective (fits later (by simp [member])) (fits mined (by simp)) same
  exact (List.nodup_cons.mp possible.distinct).1 (equal ▸ List.mem_map_of_mem member)

/-- Neither does the digest of its coinbase. -/
theorem apart_txid (possible : Mined prim previous (mined :: chain)) :
    ∀ later ∈ chain, leBytes 32 later.txid ≠ leBytes 32 mined.txid := by
  intro later member same
  have equal := leBytes_injective (possible.fits later (by simp [member]))
    (possible.fits mined (by simp)) same
  exact (List.nodup_cons.mp possible.distinctTxids).1 (equal ▸ List.mem_map_of_mem member)

end Mined

/-- What a chainstate is after blocks were mined on top of its tip. -/
structure Grown (prim : Primitives) (cs last : Chainstate) (previous : Nat)
    (chain : List MinedBlock) : Prop where
  height : last.bestTip.height = cs.bestTip.height + chain.length
  tip : last.bestTip.hash = leBytes 32 (lastDigest previous chain)
  time : last.bestTip.header.timestamp ≤ genesisTimestamp + 120
  stored : ∀ hash ∈ last.blockIndex,
    hash ∈ cs.blockIndex ∨ ∃ mined ∈ chain, hash = leBytes 32 mined.digest
  untouched : ∀ outpoint, (∀ mined ∈ chain, outpoint.1 ≠ leBytes 32 mined.txid) →
    last.utxoSet.utxos.lookup outpoint = cs.utxoSet.utxos.lookup outpoint
  outputs : ∀ index mined out, chain[index]? = some mined → mined.coinbase.vout = [out] →
    last.utxoSet.utxos.lookup (leBytes 32 mined.txid, 0) =
      some ⟨out.value, out.scriptPubkey, cs.bestTip.height + index + 1, true⟩
  headers : ∀ line, Ancestry prim cs.blockIndex line cs.bestTip →
    ∃ longer, Ancestry prim last.blockIndex longer last.bestTip ∧
      longer.map BlockIndexNode.header =
        line.map BlockIndexNode.header ++ minedHeaders previous chain

/-- One block more. -/
theorem Grown.cons {prim : Primitives} {cs next last : Chainstate} {previous : Nat}
    {mined : MinedBlock} {chain : List MinedBlock}
    (first : Grown prim cs next previous [mined])
    (rest : Grown prim next last mined.digest chain)
    (apart : ∀ later ∈ chain, leBytes 32 later.txid ≠ leBytes 32 mined.txid) :
    Grown prim cs last previous (mined :: chain) where
  height := by
    rw [rest.height, first.height, List.length_singleton, List.length_cons]
    omega
  tip := by
    rw [rest.tip, lastDigest, lastDigest, List.map_cons, List.getLastD_cons]
  time := rest.time
  stored hash member := by
    rcases rest.stored hash member with known | ⟨later, isLater, same⟩
    · rcases first.stored hash known with before | ⟨only, isOnly, same⟩
      · exact Or.inl before
      · exact Or.inr ⟨mined, List.mem_cons_self, List.mem_singleton.mp isOnly ▸ same⟩
    · exact Or.inr ⟨later, List.mem_cons_of_mem _ isLater, same⟩
  untouched outpoint others := by
    rw [rest.untouched outpoint fun later member => others later (List.mem_cons_of_mem _ member)]
    apply first.untouched outpoint
    intro only isOnly
    rw [List.mem_singleton.mp isOnly]
    exact others mined List.mem_cons_self
  outputs index found out isFound only := by
    cases index with
    | zero =>
        obtain rfl : mined = found := by simpa using isFound
        rw [rest.untouched _ fun later member => (apart later member).symm]
        exact first.outputs 0 mined out rfl only
    | succ index =>
        rw [rest.outputs index found out (by simpa using isFound) only, first.height,
          List.length_singleton, Nat.add_right_comm cs.bestTip.height 1 index]
        rfl
  headers line above := by
    obtain ⟨longer, next, headers⟩ := first.headers line above
    obtain ⟨longest, last, more⟩ := rest.headers longer next
    refine ⟨longest, last, ?_⟩
    rw [more, headers, List.append_assoc]
    rfl

/-- A block can be mined on top of the tip. -/
theorem Reaches.mine_one {prim : Primitives} (hashNonzero : prim.HashNonzero)
    {admits : Chainstate → Block → Prop} {cs : Chainstate} (reached : Reaches prim admits cs)
    {previous : Nat} {mined : MinedBlock} {chain : List MinedBlock}
    (possible : Mined prim previous (mined :: chain))
    (tip : cs.bestTip.hash = leBytes 32 previous)
    (tipTime : cs.bestTip.header.timestamp ≤ genesisTimestamp + 120)
    (fresh : leBytes 32 mined.digest ∉ cs.blockIndex)
    (admitted : admits cs (mined.toBlock previous)) :
    ∃ next, Reaches prim admits next ∧ Grown prim cs next previous [mined] := by
  obtain ⟨work, positive, worked⟩ := @MinedBlock.getBlockWork_toBlock mined previous
  obtain ⟨line, tipLine, -⟩ := reached.active hashNonzero
  have parentStored : cs.blockIndex.lookup (leBytes 32 previous) = some cs.bestTip := by
    rw [← tip]
    exact tipLine.node_stored
  have timely : (cs.bestTip.header.timestamp.toNat : Int) - 7200 <
      (mined.toBlock previous).header.timestamp.toNat := by
    have later : cs.bestTip.header.timestamp.toNat ≤
        (mined.toBlock previous).header.timestamp.toNat := tipTime
    omega
  have freshHash : (mined.toBlock previous).hash prim ∉ cs.blockIndex := by
    rwa [possible.hash_eq]
  have admissible : Admissible prim cs.blockIndex (mined.toBlock previous) cs.bestTip work :=
    ⟨possible.structured, parentStored, timely, worked⟩
  have spendsNothing := @MinedBlock.spentOutpoints_toBlock mined previous possible.sound
  obtain ⟨undo, utxoSet, applied⟩ := @applyBlock_of_distinct cs.utxoSet
    (mined.toBlock previous).transactions (by simp [spendsNothing]) (by simp [spendsNothing]) prim
    ((mined.toBlock previous).hash prim) (cs.bestTip.height + 1)
  obtain ⟨message, next, processed, nextTip, nextIndex, nextSet⟩ := reached.processBlock_grows
    hashNonzero (MinedBlock.toBlock_wellFormed possible.sound) freshHash admissible positive applied
  have index : IndexTree prim (fun _ => True) cs.blockIndex :=
    reached.indexTree fun _ _ _ => trivial
  refine ⟨next, .block reached admitted processed, ⟨?_, ?_, ?_, ?_, ?_, ?_, ?_⟩⟩
  · rw [nextTip]
    rfl
  · rw [nextTip]
    exact possible.hash_eq
  · rw [nextTip]
    exact UInt32.le_refl _
  · intro hash member
    rw [nextIndex, storeNode, Finmap.mem_insert] at member
    rcases member with same | known
    · exact Or.inr ⟨mined, List.mem_singleton_self mined, same.trans possible.hash_eq⟩
    · exact Or.inl known
  · intro outpoint apart
    rw [nextSet]
    refine lookup_applyBlock applied (fun created => ?_) (by simp [spendsNothing])
    exact apart mined (List.mem_singleton_self mined)
      (MinedBlock.of_mem_createdOutpoints possible.txid_eq created)
  · intro index found out isFound only
    obtain ⟨rfl, rfl⟩ : index = 0 ∧ mined = found := by
      cases index with
      | zero => simpa using isFound
      | succ index => simp at isFound
    rw [nextSet, ← possible.txid_eq]
    exact lookup_applyBlock_coinbase applied possible.sound.isCoinbase only
  · intro before above
    have child := index.ancestry_child hashNonzero admissible rfl freshHash above
    rw [← nextIndex] at child
    refine ⟨_, nextTip.symm ▸ child, ?_⟩
    rw [List.map_append, nextTip]
    rfl

/-- Blocks can be mined on top of a tip one after another, if each may be offered while
its coinbase is not unspent yet. -/
theorem Reaches.mine {prim : Primitives} (hashNonzero : prim.HashNonzero)
    {admits : Chainstate → Block → Prop} {cs : Chainstate} (reached : Reaches prim admits cs)
    {previous : Nat} {chain : List MinedBlock} (possible : Mined prim previous chain)
    (tip : cs.bestTip.hash = leBytes 32 previous)
    (tipTime : cs.bestTip.header.timestamp ≤ genesisTimestamp + 120)
    (fresh : ∀ mined ∈ chain, leBytes 32 mined.digest ∉ cs.blockIndex)
    (unspent : ∀ mined ∈ chain, ∀ vout,
      cs.utxoSet.utxos.lookup (leBytes 32 mined.txid, vout) = none)
    (admitted : ∀ cs mined previous, Reaches prim admits cs → mined ∈ chain →
      cs.bestTip.hash = leBytes 32 previous →
      (∀ vout, cs.utxoSet.utxos.lookup (leBytes 32 mined.txid, vout) = none) →
      admits cs (mined.toBlock previous)) :
    ∃ last, Reaches prim admits last ∧ Grown prim cs last previous chain := by
  induction chain generalizing cs previous with
  | nil =>
      exact ⟨cs, reached, rfl, tip, tipTime, fun _ => Or.inl, fun _ _ => rfl,
        fun index mined out found => by simp at found,
        fun line above => ⟨line, above, (List.append_nil _).symm⟩⟩
  | cons mined chain ih =>
      obtain ⟨next, reachedNext, first⟩ := reached.mine_one hashNonzero possible tip tipTime
        (fresh mined List.mem_cons_self)
        (admitted cs mined previous reached List.mem_cons_self tip
          (unspent mined List.mem_cons_self))
      have nextFresh : ∀ later ∈ chain, leBytes 32 later.digest ∉ next.blockIndex := by
        intro later member known
        rcases first.stored _ known with before | ⟨only, isOnly, same⟩
        · exact fresh later (List.mem_cons_of_mem _ member) before
        · rw [List.mem_singleton.mp isOnly] at same
          exact possible.apart later member same
      have nextUnspent : ∀ later ∈ chain, ∀ vout,
          next.utxoSet.utxos.lookup (leBytes 32 later.txid, vout) = none := by
        intro later member vout
        rw [first.untouched]
        · exact unspent later (List.mem_cons_of_mem _ member) vout
        · intro only isOnly
          rw [List.mem_singleton.mp isOnly]
          exact possible.apart_txid later member
      obtain ⟨last, reachedLast, rest⟩ := ih reachedNext possible.tail first.tip first.time
        nextFresh nextUnspent fun cs later previous reached member =>
          admitted cs later previous reached (List.mem_cons_of_mem _ member)
      exact ⟨last, reachedLast, first.cons rest possible.apart_txid⟩

/-! ### Digests of mined blocks -/

theorem lookup_of_nodup_keys {table : List (Bytes × Nat)} (key : Bytes → Nat)
    (distinct : (table.map fun entry => key entry.1).Nodup) :
    ∀ entry ∈ table, table.lookup entry.1 = some entry.2 := by
  induction table with
  | nil => simp
  | cons first table ih =>
      obtain ⟨absent, distinctTail⟩ := List.nodup_cons.mp distinct
      intro entry member
      rcases List.mem_cons.mp member with rfl | member
      · exact List.lookup_cons_self
      · have other : entry.1 ≠ first.1 := by
          intro same
          have isKey := List.mem_map_of_mem (f := fun entry : Bytes × Nat => key entry.1) member
          rw [same] at isKey
          exact absent isKey
        rw [List.lookup_cons, beq_false_of_ne other]
        exact ih distinctTail entry member

theorem lookup_eq_none_of_key {table : List (Bytes × Nat)} (key : Bytes → Nat) {data : Bytes}
    (foreign : key data ∉ table.map fun entry => key entry.1) : table.lookup data = none := by
  rw [List.lookup_eq_none_iff]
  intro entry member
  rw [bne_iff_ne]
  rintro rfl
  exact foreign (List.mem_map_of_mem (f := fun entry : Bytes × Nat => key entry.1) member)

/-- The digest of the parent, read out of a serialized header. -/
def parentDigest (header : Bytes) : Nat := leValue ((header.drop 4).take 32)

theorem parentDigest_toBlock {mined : MinedBlock} {previous : Nat} (fits : previous < 256 ^ 32) :
    parentDigest (mined.toBlock previous).header.serialize = previous := by
  have version : (packI32 (mined.toBlock previous).header.version).length = 4 :=
    leBytes_length 4 _
  have parent : (mined.toBlock previous).header.prevBlock.length = 32 :=
    leBytes_length 32 previous
  rw [parentDigest, BlockHeader.serialize, List.drop_left' version, List.take_left' parent]
  exact leValue_leBytes fits

/-- The parents of the mined blocks are the block they start from and all but the last
of them. -/
theorem parentDigests_eq {previous : Nat} {chain : List MinedBlock}
    (fits : ∀ digest ∈ previous :: chain.map MinedBlock.digest, digest < 256 ^ 32) :
    ((minedDigests previous chain).map fun entry => parentDigest entry.1) =
      (previous :: chain.map MinedBlock.digest).dropLast := by
  induction chain generalizing previous with
  | nil => rfl
  | cons mined chain ih =>
      rw [minedDigests, List.map_cons, parentDigest_toBlock (fits previous List.mem_cons_self),
        ih fun digest member => fits digest (List.mem_cons_of_mem _ member), List.map_cons,
        List.dropLast_cons_of_ne_nil (List.cons_ne_nil _ _)]

/-! ## A chain of 256 blocks -/

/-- `GENESIS_HASH` as a number. -/
def genesisDigest : Nat :=
  0x000004eb1e117df3168d6d27118982e0a23c236120183e8390a6bbb82ee6fde3

def genesisTxid : Nat := 0x3526817e09d5a065247d15a45a7aa5cf351479e011d32ecfd752e94acfae55ea

/-- A coinbase that names its height, with a nonce of its own. -/
def heightCoinbase (height extraNonce : Nat) : Transaction :=
  ⟨1, [⟨zeroHash, 0xFFFFFFFF, 4 :: (leBytes 2 height ++ leBytes 2 extraNonce), 0xFFFFFFFF, []⟩],
    [sampleOut], 0⟩

/-- The blocks with these nonces and digests, from a height on. -/
def minedFrom : Nat → List (Nat × UInt32 × Nat × Nat) → List MinedBlock
  | _, [] => []
  | height, (extraNonce, nonce, txid, digest) :: rest =>
      ⟨heightCoinbase height extraNonce, nonce, txid, digest⟩ :: minedFrom (height + 1) rest

/-- The nonces and digests of 255 blocks from height 2 on.  The low bits of the digests
count up. -/
def longChainTable : List (Nat × UInt32 × Nat × Nat) :=
  [(477, 1343, 0xf485b982b2f65520dd97ca3bc05756374efd2ca8dd13be8cd5411d601b015602,
      0x7e5ed2bbbe9d6356a05f1d0ad726c7a0a7f6c145de60cdd2d20cbeca5c0dc202),
    (61, 3911, 0x4af13b60f0f57676e1df9dac05fa2b2444feb23db4fe6bbed8eefafa48158e03,
      0x6ad4950488b8cf1ae334dc015b9d269a24b6d3d0685b98bea8dd7087b6fd4203),
    (162, 901, 0x40db311bf8d554f9af0d41e4d5649cff1485b0f2b2104ee53d3e9f2207b2b604,
      0x762cc1e8af53077245b3876cd7acc9799a8666cbb23ad2421ca5f790c3d2ca04),
    (240, 4851, 0xb5e8ee8c6edf468946defc699999e722da0f72cb0f2fab4e68d6ca3ec5c92a05,
      0x2d6e220bec73c357a3b6cfe5228c0ff9086eeb5e67cef457e2444090ce6b4605),
    (772, 4966, 0x25750c7f7bde063873f93559aa66f745494ac4a7926811d12a83436997251a06,
      0x1aee9d3673977f893731ace912403e12278fdf2593998511f24d1fa290470606),
    (43, 1898, 0xfd2160432acae1f43daba741ec1d36cb40b43db3e4d60348d0975ab817966a07,
      0x39a87e6a9844a9654e356ae574e5a476771a1f0fd719d5008d8c81a5f5c7ce07),
    (811, 539, 0x9ea05a40cbbcf31ffda444541677bc268874b98f94bf3a6d4ee4764182db9a08,
      0x6041e6710ee4b2e52a1c528240aef9824e4d2b4bd6b2a0b77fdafa0111312208),
    (107, 9731, 0x172ebc8c8555ac4b36fe337a339eef06e7d59b6852ec2fd6bcf53aeb7ae9ca09,
      0x74fdfcde049419eb2b5b104d2353e3a1b33e064f1eea61e71ed49ff4a03e3a09),
    (1362, 1365, 0xdd7b26776896354173953f458b602873835a744394105dc3ce98516dfb43420a,
      0x5c6139e349114bcce929810b3b082132a6773d21275ee706fb638754b692be0a),
    (1200, 5669, 0x89f3d1819dc23e7b12d9532e327ed73944f2377e4adf1641ec1085c4703bba0b,
      0x6687988f698defdaf0d6f17f978f29a044ae5cea75c98ec37b203eece403ea0b),
    (4302, 729, 0xf20179a94886a59d3617a4ef385a374f000c82ac0d797337d170617027afaa0c,
      0x1f35179bc93baae4b93c0ecd561f44a5253af177d8b532b8a722b8b5537b220c),
    (126, 6492, 0x7ac360fa585024a7641ad09387040f2e9a36df10552a51adb13291a113b73a0d,
      0x47be2767cc0725657f02fa4d821d816bbaed805f5a1d949ef036a530e8659a0d),
    (208, 1860, 0xd87a86c0bf9c83f83f9148b12412375e953c2835ea2f2b56023268969e2e620e,
      0x60c77cc7131ef9b03d389958b1fb34ac1e44377075e6c1de030b63545e5bf60e),
    (290, 974, 0x27777d93fcb0f78fd04d7dc3e6a5143d105a287da5e902aa3c6b936e8664320f,
      0x13227c1c08d87f8f78594cbade5cb6c7895b3c68477faefa882c37992118ba0f),
    (390, 1984, 0xf8e3cba1735ec9e391fb3c7a2cc801ea9328e747cea062a855936e0efa5b4e10,
      0x3f8d94aa481dbeaabcb16a903b9d28c9645971eca67598cb1d76c23fd26dae10),
    (1033, 2957, 0x6a828415cc0258f173f9dae6b18e5cf8c00600d4846e949690c4c231a6e37211,
      0x4780f9e561371393ae055995d9dbe3b10703c325d0fda54eae031672ae354211),
    (28, 7772, 0x8e488527e3f1a845fd9aae72f74f28c191b60470701173a717859f53e26c9e12,
      0x38d0a1d72dbca286f65940eae4cec25096309d7743c4fc472e2695eac9474a12),
    (29, 298, 0x53cfbe8164895fc646832619d5b8ae9a9e37e09c24e7fdc9a1b752c19f31ba13,
      0x07de9b7a24c831c1da4083c3c16961d1fbb5dac0700be387723ba5431e435a13),
    (259, 1689, 0x85d878033a8722e5655f879060c04ad87216e86c1f55fa02289fca0243c18214,
      0x708b2200011f016eb0b5bbe7d7f2699e4fbcc6a8694b1cd0bac74ea506d36a14),
    (584, 2620, 0xb7bc5ab341d0dd094e1f24f5acf67dc209c6dd32d1e9b1ea9d276b060fdf1615,
      0x51fcc86c69744fe2af1883dae8056d676cad29fe7a0c50757944c4a5c404d215),
    (2555, 1400, 0xdc95b8c162921762a17575fd772738fd620fb58a9fb72ed636d743d3cae9a216,
      0x5eb47242b4ece30b69fa44f07ac3d977afce9c6cee3ce585d7f5ffd2085f0a16),
    (635, 531, 0x7fc8efb647a0ccdecf60bc9382a4093964aa61d364941986a80858715c2bb217,
      0x184b938f3b9a95bc8370f8364edbf85ef497cc865bd700d705603e0477757617),
    (1086, 3923, 0x18ea3df3a266a40b7abe36bed111613bb7e9381c7959e023d6503057b1c09618,
      0x3b968b150274086a07563b1056937a440c565fa9296dc47e8ff5fcb9d8976a18),
    (530, 110, 0x63941a8dc1861062e46cce4074c8c055221737ea1b549276e1645937a3b0ca19,
      0x523275229db320ce08b10d971b65f73654860326630cd81a7f00f7d1e62a6e19),
    (669, 331, 0x592c4bf1cc1fd1c96a2cac13cc5559e428760437c714c3f0d6bd8b8492a6221a,
      0x6f5514d8c6a9322a57bb7305c566e1665502637c29231b8ad5ded0114a33721a),
    (1337, 11205, 0x72488122c3b2aad334a542f93a4b42a838cb783d670aeed914c92b7874dac21b,
      0x7d4078afb8c0c277fb33aa3b5ad644da179fcdd062b3d2bcca5f94779186ce1b),
    (66, 2539, 0x3f6b0cadeaa5a3bc4729b375c85912fa6ef520203713236ed9a71d4db80b2e1c,
      0x20d2a06e8bf5f41ab1794043f972d5f0c7a80ab6e9c4f229bf92f5199836161c),
    (1614, 98, 0xe5e1c220bbdaa98de7360449d8324dbbca80ed7fb3c4f40b613e1b5955d3d21d,
      0x1d891af1d33c2371cfdc3517eb440e06b2d9d91b6afe220fd20d9d906e961a1d),
    (3481, 455, 0x63ca5135e57ff81b250211fe634709c18108e30ba10ba77c5299a48820317e1e,
      0x5ad12b1ba8916850d5128480577813d3178a35457b8634a41014ea336848c21e),
    (336, 1762, 0xdf4f76019e4bef62d86df3c8493ab1003c4802b787d415491689787dd179ba1f,
      0x451ffae049afdd8cd57c0175c470173718e6cc8e089d25d331e103c487414a1f),
    (385, 918, 0x1fc2d9ba7faac2d4834cf9276ad458377652a49d0fa45866c4a7358a9a956220,
      0x0dd892be2239295df8dc7ae76b1a6ad2622d9c6400f693b3a917d2f0e243e220),
    (1689, 1107, 0x401ca5a32579150e8e7627631a8bd942141dd546c71fa6373db32ca78b472621,
      0x635a55cdfe86ab0eb3a70c938a3bd26c99bf736fe55f79a1532b320fb3bbc221),
    (130, 678, 0x3e9a3d925c2e1b1caf25831146f5992b66200130b66c8a752a73476ddb1f3222,
      0x29a13539f404477fe27a5b5451a48af8d2da47f4d216c2b38cca4428e9d6d222),
    (354, 6522, 0x4d771c1f51b64df2f8cc21640aafaf848587a5408dca730e54e03cc42f5cee23,
      0x7262f6bd8e2e71f48925855873ef5313d4e31a9a88f775470d04c39dec779223),
    (1066, 4339, 0x55c51c85175f7282ac978e5f142436441da7e70daa80dd05ddc31e569c5a5224,
      0x0ff7aa64cda40322fab120f19d984f14c1ede5959744c1e924912b8aa26b6224),
    (1197, 103, 0xb2a7136260abe32b5285696fd9af0133b4f94995af0b0c6627aea45e1fbba625,
      0x6980c8a81b4809545927bb10e9d784e46fefb7d230f3a100717b933f32226e25),
    (433, 2401, 0x6797b1e815373ce37bd12bae5c9dafb3431b3a8afa0a5e216eae6cb828c44226,
      0x5c1508994d107b730b67dd620d5d3e67ce395554bbd2caae7f42ce2fc7233226),
    (1446, 1625, 0xa8d3a52f335cb73b5f914f5c574019e38aa6b9dc8b661a2632b8912ece884a27,
      0x376cdf5c2b1019e838f0938afe61ecad75d7f734e4c8880a9a95006caf356a27),
    (472, 814, 0xafe37e1ee987c4a649c0e3b2d45eb93a7666e0e12e48e7c9f7fe89409ef1e228,
      0x0e0d79a729a99e7d840ea02d6de059ba6d77330cf006d97718c755af6f87a628),
    (183, 370, 0x2513c80d7c6f6c925905aa78ef2a559b253f554fd6af2c77e880a2d3312f4629,
      0x35f0f76c87d7c28c1e5182a43cf0d43078b58560e8c2997ada7ad3dedc9f0229),
    (289, 4002, 0xc26666d5a09048d8f4f793c0a245cb258eb11d2f21d6fa592e6d43f8b1f7de2a,
      0x6c62183918a7f5196d48c2a2bb7a3c4fc5629bd34b36cea12f886e5610d85e2a),
    (244, 167, 0xbb93f5d788bc70438942e81d77ddb5e380707110d1acd9f5cd95a2e2a9c85e2b,
      0x3df6143536531998053650363cf827960ec4d70c3b154fcf6d425ea95d51da2b),
    (500, 2207, 0xe4462eb9179c2e02388048e966d7fd8d1d3dca39f2687c76a9d6f92e4e6e522c,
      0x77ed460abd1024b059144b48004986720a35726d5fa4651552be1d3a7532a62c),
    (1586, 66, 0x70f6b0c8c98ce75378abbde49f1763df44cb4305b25908628f42ecb93f023a2d,
      0x6f00ba0f5b8d7f6e205dba7cf4b38615613c8ab621e2dbc438c1af803f4d4e2d),
    (6, 116, 0x086253e46010aa6b7e0670afea52d778d89e7d0e57db259f078a33552f0db62e,
      0x15baa3bad030acc50f87c3f622508f622d9a32935acf0682bf4e25ad70ee7e2e),
    (1446, 1979, 0x90a023203775bd14e85929292e0f653996268cf05e3b56ff5da5cf6f83624a2f,
      0x32a33b61a62c2bcf9654b5f25222363fa905a6bfe139044588302daaf232362f),
    (1303, 201, 0xcb2760db6629644e9b8b0aa718b78a8f668ebd4672acb5d1851c9ef021ba7630,
      0x45ffaf897b020c5cdf7be5b81ff1dfbf8a249dd0f02ff8cf78c73b273927fe30),
    (787, 2311, 0xe8152e6bdd88720457ff0abed10c2c9faff9d27fe7d913ca748174a5e82c4e31,
      0x20ae11f36a2914b483dd71ed65c64af35a3eb3416352e5a0407366597fb72e31),
    (132, 211, 0x3daeb6d532dafeb6b27c4b7163020b65f059db4dc5c9691b4c164378503f2632,
      0x46f81795965a053fb3319239f974328a94aa3ea3e0e6271b8b7e38cbf365e632),
    (584, 1210, 0x3ca354b72a4b7f9905f933a3d05a29273d57c7e767047bcf24e17e7e67a5b633,
      0x29a2419a7587c6cc6a4f0c1aba845e70348c8e53def0b958fd7a9e65baf78633),
    (974, 546, 0x82d95d541d33a3c0bcae6208e9e0ba6c6f7f4daf124cb320913e4fff7f7ff234,
      0x2eff98b101b1e2530e3c9a1f0a83f671c2c1ee58ead4d4bcb7aaaab060e97234),
    (964, 3021, 0xd8f2aa6a005d145aeacfb1a35698d1eda4eda69315951770757a0002243c1e35,
      0x3656a2392453f8c029bba516a471ffc22337f2aba22984defe218d0cb68d5a35),
    (782, 2769, 0xb5b634a47bc5fdb6d4eda693caae1e42562a9e90c0d95bc609d80f42d4180e36,
      0x3a05f9ab7629c5e7ef3a327ce1c2e4334b5c85aaacaf70d6c8811ab2383e9e36),
    (1080, 1234, 0xeb558b544a572ad2fca01cd6eb7914e6a5b73861f8a5f28894ea995295573a37,
      0x2daf2841d097f702084b67002c3752bd8631eed3472b8fdc3520418193377e37),
    (56, 284, 0xf5d8ca11aa1787299dacd294b31a68c94ae86be2a585ba245df3089f9029be38,
      0x32bdbc7dec912f71c8033e4e255b78c5cf6d330dec8c94893df022a7bde28a38),
    (1534, 705, 0x27f738f822cccc3d9d3cc33cfc3efe2865ebed575c7d805289925f28e46fc639,
      0x55424ba37e0710d096c0220447a6b53b3b482445857f4f25aaf33d09fa2b5239),
    (2119, 3679, 0x2f5becea3035279623d3f359600a2ea52a51cb3cfa921cb24b3a2710dfc0ea3a,
      0x4b91ff6f6ae8cd48013944e9f40efc4c31f3a378696c0fb345842641469d663a),
    (415, 4777, 0xe6711f313a51bac447035aef6a7f23ab13c09c2806dfd58ff5422c04a2b23e3b,
      0x657d0bb6b1337d0011090d76140faf1fea452d50da4151041b0de528b2a48e3b),
    (918, 3103, 0xa4575adb6588460f998e37eafe1823fc147c62f7b45f22ee2b75f10a7abf7e3c,
      0x53600a13328c7350b89ba827ac0c4c57efd81430e9ee2029d59295e45c45363c),
    (111, 2260, 0x9d2c8751e30bcbb60f3b12d7a90bb74a8c680c0db18bfc643488b16026a1ba3d,
      0x6dc821d5c6dd32cd2cbacbad8b4f15eedd2bea48ae98ae6f0f486da4d58a623d),
    (91, 702, 0x186d1fe0bf58b8d5ce0cfd134fc439d18a336a3b058d36224bca0301a09ba63e,
      0x2e5b9e0abeec8f3b941c24ca0ae39f0cddef14749a50eba15b418cc90a974e3e),
    (3183, 1576, 0xd041632192c99f4fcb464cebd5aee1a474708b087d84a6dc01c0a7edacff963f,
      0x10f65a056e371ea56f5dff5261a4d11f75fa1b1e7161ba9e50ecb2e6de99b23f),
    (1826, 306, 0x30c45b508be688b5a41a3c562ce0c946b18a4a89384ac0b8d2aaa20e76090e40,
      0x26043e28ac783eb370ee3401633b3947ccd1acb9bf00ab78fc0e1771cfe81640),
    (468, 4151, 0xdf638b3dd2944f75f77b846273ff6a636ecad8feae488c901f04e817cc41d641,
      0x6f9ea759f434c728edceecc35b4467409735adf5c5294b61bddad82a0fee3a41),
    (581, 650, 0xe3e572ddf75c1c127e855b7891fb1d5e2e434af8abec4a86aaace15389902a42,
      0x1481ad6f090d5017d57ef36f767d62ecc60c86f277ae222a24c9b4bdf2027242),
    (449, 4977, 0x7e1091e9c1dbfa901554b6dc89ddd5cf7a091d51653ca461d886bb85ee69ae43,
      0x782b48c0c30e508262f410323748ca13b412fde9b04a389c3a00311e53b85e43),
    (798, 482, 0x3846d2f39dc9a53d2f588d33956ba25f29c4b1cd01ed476de21afa270e6bd244,
      0x3dc2c4f0170e678aa963a15122127b71a6bad47f24c1f86d07cf9de6dc2b5244),
    (437, 5858, 0x234f89bc55ec73805d3013e8cf2872fe4b3a95475a798335cc8c6079707c5e45,
      0x614ed81fb1cb0fcf7875d0f199e3543e9d44bde90648ddf3d9adb6d95bc23245),
    (1606, 1617, 0x7a1afd416942e90c532f092129c75e40b39e2bab902fb9e9aa94b3939c648646,
      0x79c0a49c4e56782b84a967a9636942bc51f513074763106e12a2c5b7fd02e646),
    (731, 1948, 0xdd926eb48879cadbdef0ec817f7ccea0ce38a3a9bc8098d961e363b78b4cb647,
      0x71357d1fce88a2c4aa3b098891beddd168d40cd0e54f14c23ee7759a499fc647),
    (53, 2774, 0x2279f6381e8bd189dc1982156376fccb37c18b799f8a871be76e291ed512be48,
      0x43420fa7f08cfd157911c2d07b39bdad921dc8ff046fec3cccd9d5b4aa9c0e48),
    (1391, 890, 0x01b9e2aa528f95e185c8dd9160019c704260fd7089e1d40ee70d8e6d32029a49,
      0x31c454dda04c81a97021c250b33aec9e4154e369d4bb4bbc9bb905e9d566da49),
    (714, 2902, 0x3ca9918a88766971c6d6bbab46cf3601ff209f01489056e4b5a7e166cf59124a,
      0x19d6ec3121532bc2173ceab274b7ed0c9681220f0101d7e8d25d2bb9cd4e0e4a),
    (896, 514, 0xa95eaacb538247261cd1cae34f00372d3a5ad3c8b5b301ad6d4df11a5f1ffa4b,
      0x1f7a1fe83abee46556b1f3c136819d9a9e3d8fbc6bc7d46289324026878ada4b),
    (3532, 210, 0xe49cad90e5700e77226c1a156ca749d62bdd01884ee09a14d99587bae5b4864c,
      0x560609609b9943290c71d232baf0f794cd0348be47fb5825e9684501bace424c),
    (747, 2075, 0xd99ca5450e780524ddaf01ba0fdaa85fd24f8ec98e6953a4a8e9982a2f2ace4d,
      0x567511a1183927340d56a35e871ca5051c5400590cf5dd025118993cf93b5a4d),
    (1725, 4855, 0xc48959fd67d6e5d43ac79ac4a4aa1a27bbbcfabcdc08497c3773d094dff2964e,
      0x7151d01e73cad0efb5c0a36677bc1d11ce8d6c45f3d938d0155d8e7e9c620e4e),
    (3996, 3043, 0xcae0217e8b2ba9e8fde6bc1c9e220b1952f694de5be0a5bfbbf162edea310e4f,
      0x776b4cb8ee2ec1891de068fadb0349fd7c4ad42b4d4e104f2b980b814b88224f),
    (798, 7708, 0xd48681a3d2a8b44430f9a080056c05dd250ada1186f00e8a5b3276d5f7008a50,
      0x455ad039031e2275791e3f1fb58cb985626d393eb8bc14daa5d090a86e04c650),
    (356, 2849, 0x6010e9d2e092f1e1bfb4a8b8ab13c802306de81854709c7c2780ff92bd531251,
      0x050cb559b34fa8d81346cd2ab87f80cda351d29e16e134067cd60807bb8ba251),
    (837, 447, 0x48c2b953fa8cd806a4c781bde8279b2b5ab38a7c0113ef9b55d48ae89b873252,
      0x695240a4d11056b82f8e91975a94541cccd12b03eedab6e4a09b6e04ddafa652),
    (727, 1361, 0xb6b00e453a03d09c28ba3e0f666602cb59e19a7d56d056c8c90c99943c246e53,
      0x1d4d9a1b10da540a6dbe0a6d79a5136a07e59fbe093e2190b018512c4103a653),
    (3031, 3434, 0x1a169abdb771bc976db7924cfc8788f712a43945401cbb80ee9d51e302e5f254,
      0x73b7edf66381ea064aea81889827cb2e95978e5d406e42b7d60cc87fd0622654),
    (2539, 500, 0xf86e8ccff3af56732b90f8a3d2d76832ec034738b798f2fb302156ee6312fa55,
      0x4d4978e275d2ed9b13a1f7fc9e18c4bc745d208a0b41477446738fcf3b29d655),
    (1940, 1199, 0x5f168aa8aff4ab5f9e93e6306a861c952c14a84af40ac8c50f152c10383dce56,
      0x639b7828f121b063d2b70cb928cbe38b0a9ec35168f2bb055feab74c59744e56),
    (1525, 2391, 0x5d5c3b42efa0f347c81ae622e8f76fff160725852d8311eb002a07002ee31e57,
      0x37fd5653b01b6597596e0ceeda08f88916c8450e642509080032e88b2368b657),
    (1232, 1106, 0x4084fc0c5a2e38c4034b56f1f2eeb452a26027ca4201eb2abbecaefed5b3da58,
      0x052f65a4bc5539d49f4a84f1d06c87d0e664795e3e3ceab5b137707579489258),
    (48, 1126, 0xd943605b7051c18df3cc64ae2e5a5ba57f721c4d0a50fbd65ac929476a1c8659,
      0x53ee41ae62ab63e2e3e50cadcb74312318d52bf78f8a297f7e49d528bd7f5e59),
    (248, 2215, 0x3b0840a47b57a67e7cb45bd31fd146c2c395cb9429268eba6845a5b785ff065a,
      0x5d53bc764e8ab9d837c0111e84c2be627a963d74e32a1882549a496c2efd0e5a),
    (133, 5135, 0x363e0d0b4057d4a1f16e3ce929b0d70d547d4a31e2695a465b46061c4887a65b,
      0x4389c88fa355db04e81f1cd654aa6b1c3b8fa2f6c365aa93978e374bf73b725b),
    (3161, 406, 0x4830d25fb5a27e4a79841a0779db212aacd70e951634802c221885f4a28da25c,
      0x5f563d6391bb03e31a6d6cee210231607809908aab5e860391c0e631bfeb4e5c),
    (369, 1092, 0x766d6a6b6056cd36fb98591df7e84248342b8b36b84b92d81d57a79e4285365d,
      0x7fef0a8d3677f4b5d1002bf80a8739761b1dbb55f227d8cedccb2f6e30f1fa5d),
    (1182, 4554, 0x7ebcb99b841cf7b27daab3c3a0bc83eed8e2f28694444f16d6f81bb1a94c9e5e,
      0x7b699364b818dc33415754aadd5b4a232fb80be7c74229ee23386119dd5b665e),
    (3673, 2699, 0xaf604dba590a37c6180af09279cf6913939af7f0be2229ea6cc6cdef1c65765f,
      0x61463dce30ad786841e1a5f0ff02a79d4deba6e49be395465421757399f7e25f),
    (35, 2062, 0xf29a7e7e6e84b89bb638ef914f53048a520d5f4c0278060d07adcde8b40fd660,
      0x3f45ab6966b8759c71a33d615d5160f7c724d61561a45e812de78997c3c23a60),
    (885, 1104, 0x0c6ce868268b10f9865f8fec4ac7f7cca3ab6f0eb60867c74a25964d3c9c9e61,
      0x3878921a7c92aee6818c06eb63077c4e65a128adc4594b86ed55358ecd56a661),
    (2386, 4142, 0x2c1de5ce9d38a2be06cee017aba8c1f84b735cc57ebbdcc3fac89fb0bc3bca62,
      0x30228f7b6e52c55f8bd11164a0da284042f9d2d7fe6ca2f018f31f8f971a7a62),
    (75, 6296, 0x1fa22ec5ce2dca5f997a7df331b9c0907207961e0fe113f0d6227f32873a1a63,
      0x3fb47ae5d2468162c418e59525b2c9a488ecd28e1bf09930024096ba3b577263),
    (156, 2583, 0x591af713c2d9c6f9571d639ba6c4d5fb4f8ef701d57e76e8c42ee347bc441e64,
      0x7872eea72639159c3d799d36a7f4d18785f1c84c85b2a3f54d7f666b415bde64),
    (28, 2068, 0x7f1c32e335e375626025818b95a5595447440a941cf063c952146e335f5d5e65,
      0x61001313337694877770035eb139e441a13ed1925cc7c98de8caa05877f78665),
    (1682, 7330, 0x6099dc3d87db883af24f8937328c2d1b9b91e4f0c3bcbe9964302846a730c266,
      0x5f26f71fac073b3346e20bffd99a8e9c0d8adb307599b667edb653672c72a666),
    (2630, 2504, 0x35bbabb44d64b3213ed4e23f0be39e2522f8394a0d1f8c2fb78fea5d0e6d0a67,
      0x4e8385ee4862c22a6e777916c6e5b33b0fcd3065a4667c74432f17d77d39f267),
    (74, 1498, 0x254c2fbee6fc9e92e31f68695f66929965e92ca6ae6e3f1c6530e362cc61c268,
      0x5628eae17998c9ca8698c7f6fa59abd29b7842ad08c8dfc71935f0e85440a268),
    (603, 679, 0x11710ad79faff6c5ccc388ca6fc5e1f7f9977ccdbfba677f61031a553a3f0a69,
      0x34acc39057fa90b80fa379e85af2e8995620e1d580e0fa35b80007223e3b9a69),
    (509, 1003, 0x760ef416f27f516817f25af6534ba389682afb9dcd18349ccdb71c9469082a6a,
      0x3f4a65223232810848052c2fd75a57fb241dcb17263ced91408d78f314270a6a),
    (245, 2714, 0x24dc02fcd1163edf1c18ce16643abefbc2dc7d82091f201aa68b4bb6a598e66b,
      0x2b53be032bfb7c1a952c1eb5ac6b2ddb9d5dc57ec7b7cd8d3b4fb06ec16b866b),
    (359, 1311, 0x5acd59a78b9679eacc9b9d86feabeae527257a1878d49dfcbb8f5936cc0e566c,
      0x6cb4a1d0466a0ff6901bab69e0a53573087e1e9e7b8a39378b662235ba8f466c),
    (1952, 80, 0xe7c42e0424cba6327cd3abff45c571fc96070506175f907ec81213699254b66d,
      0x114fa182e689fe6e8e4a89e9725bed24f392adc9088cc473609cf80c7f7bde6d),
    (267, 443, 0xf29357540f578327e8a1946912bc078ba9d38d4d8f72e07440f3f1423875926e,
      0x382ffea840ec9019b0123d8d956d9a88264c12fc93e3690dd590c349746b966e),
    (214, 853, 0x21ccacc0a862fdede06cf10a7f351fb055e660c6b13605f4d7508cca6e26166f,
      0x02d0540d228c98b695da1d2f212e6c0c3cf8f88ec7c215ba93b2241430978a6f),
    (120, 928, 0xb1be8d244c3c8ea5cbbfa1e3630ca93133aa807b8cbbb16e198a4b37abeee270,
      0x7c4061a14e6dcfc23220eafe2e6adc8916a4a0b06797cd82ba0062333a23c670),
    (239, 1378, 0x7f96bfbacc1bd6f492ed2f6dd309b0484c395a259acc171831e63a26a9028271,
      0x24403d83fe4bc9b5fa806885a0475b4431660ee8001c0751db0880f572401e71),
    (1776, 3027, 0x78d9ef2a1746c83c3df8c59536c9540fe593c8cd669abf491db6cee35d2c6e72,
      0x7e5e7ecba035b321a4599fee9ce4070af1cceeb66f2d3efdfa699cf5b73b5e72),
    (1225, 4264, 0xa61cf53b10dbdfdd70ddd2e10122b1daacc179dad5198cbf9f802df5c719da73,
      0x3d77a2172d71c45abe6440d004b1c9da4442518088877522b96032320e82ee73),
    (1136, 855, 0x7f556279f41e3ac17a6e97a3a86ac4ac5106f0d7b90363694c50a6d9fc369e74,
      0x3cad8acf3355ffd13f235e516c939ae2dec44b1ffa5cb4cf67ba06418c9a4274),
    (79, 1150, 0x58b65fafd749bb55cdd4d05b1d7a41cb2b3821d2036147042af9bff388243a75,
      0x1969f614f83d0a14c18e2a752e4f4ff0cfcb1f02bd398b9662ea116168d77e75),
    (1356, 706, 0x2b6583aa87a9328670dbd59a129333e196b5eb89fa17e021381edb667aaf3a76,
      0x0f48eb4eb25b76720223ce89c8c6e68acb70b85027996dcc366a1e1b55628276),
    (2251, 2093, 0xbc14af15e620aa672a285e2188723d12afca8d738f91ef2fa50c72374ed88a77,
      0x01e4b0def35e3b98ac2efaf95d86196f168df83a029d1b2106105642448e0a77),
    (1904, 97, 0xc31768cfc669fdba13e9cf9e6d43328d54615a613c2ec3c4868da7841d4d8e78,
      0x1588d5939c07b71e340401532ccdf0abdf5e23caf4079fcda018b3b3b298ca78),
    (92, 2416, 0x740c9ecb72e252cc58ef01bdeff2498eba0bb976dc11b6a96773ae372867ea79,
      0x389ee2c6576b606799c6fe040f7e8ab1a1f26986686ebd45d2835880645f5679),
    (1897, 666, 0x8c65aec51b93987e910119876b5550325e138cb8996eacee40a79b08431ba67a,
      0x4dd848071b44955c4df33e38a3ddaab9e4e59deee754f5e59956bcfeee55767a),
    (381, 310, 0xc6c926cf52444d86e48fde7f11957fb0d58e4f11a7f83088f477b7ff1384fa7b,
      0x218cb79895e229f2955945a44e31fa53ecdf123c2413834b06e92c086dc80a7b),
    (809, 1764, 0xa6cdcfe5c1ea7e775c54f00857b8f8f5b1463f1eafc3dbd37b4c34b408dc727c,
      0x6daa34de1fdba3596c8c063595f7934c55201c80be89fc486b9cf2a194d37e7c),
    (2701, 100, 0x8c9798c94b275018fafe131a115439855d77c178b176c5080b35bb6ec729b27d,
      0x551b2f469461f2303330aa473063204d19ccc61e00259706cf355e6e4049be7d),
    (270, 1628, 0x9ae52519fc677b74d4424ea6d3c6a9839f8ee9cac58fdb708f8204108cc86e7e,
      0x09c53e9284912c15e5ed81710a3cd59bcdecef00801337ee9f0f51f9c2b8667e),
    (1237, 953, 0x8bf74d872168a639a661677155adf61d2c118b10ae7edf37f508cfd5883aea7f,
      0x0fa6b0399a5556f7d6faa6c443fbc136a16cd86a8e8f7a807c41a373770cb67f),
    (1249, 2612, 0x074a62bdf8a8c1e7a337b0187588d7c5241773068196d74ee8ac0086025a7a80,
      0x4a9577c1bc06ae48c697464a2f5e853b76cb8f3e584697b36c7142d40a324e80),
    (1129, 162, 0x5e0e86af44d2f83e4d5a104e15e5f8a3372f2fcc9081cda27b36ad27c5d0c281,
      0x30c0cf4ef786344a7ffd17d23edc7f9ca5048c109b0bb34407e7877d3081a281),
    (542, 1580, 0xc4b2b830569b68c8fe52f42bea56d573ec011693463025cb7d8312c5c9a6e282,
      0x7f3fe09117575584a638747d8c961bf8093164363b1df98fa55af1e5dae3ca82),
    (983, 2934, 0x3f302afac16e751b5243031359f2b8711cbd7073045ce00772269ba551c30283,
      0x5d83b98a271811b000f7a039c9340d9033f205226792b199b265a89e7bff8283),
    (1063, 767, 0x4d40741904cfa68b7afea8a935922bd7fbd9246760ef809d37224809556dee84,
      0x505ab5744b2aa200b8b31853d26fab8357ec0d2f29f7806d886e80f2e59c8e84),
    (579, 776, 0x33d493a575002fa7af6d2b6549a174a61b9f52e9034fd25e296690eadc1fca85,
      0x6ad2d843cc1efdbeffcd3ab8e0d0297ff84e10fc8d61a3f2b429832e7670fa85),
    (122, 892, 0xa6dc4e79e4cac5bfffcd58ba19c46b10db7b26902c463a6a27858b653fcca686,
      0x301b208b4ac0377c20e8d33d5bc8cb99df8669d26d54cc59c89e00b18461a286),
    (254, 1207, 0xc26351346c00335a357f50f5c396385cd0064f6ef665b4a1ba6c4aaaf6720287,
      0x07c9e8d36359323bceff616416525482b0de255ae86e6eef296e287d90aea287),
    (254, 81, 0x8fcb10663bbfa8aa3716056ddd7754b89ace1c23ffd2a8ce0171fb694b9d3688,
      0x1705869336eb79e65ffdd9aac0669c8ecf0a0580c1529ed708633e25fcbe7a88),
    (278, 1808, 0x0bdb91232a5d83fe43333932c85d7afcb70abbeaa61bf166acbdca6668f1a689,
      0x59e0f67dc074988535cd6f4a494003359bcfd3e8e9d9be5289d8bb18f00f8e89),
    (910, 70, 0xdd484496e2574d6f7355347a590bfaf00e203394950ee90f4d6b7b6342e16a8a,
      0x21d29fb6f851a254b5a57453de91ee5d76d22a9b9ed63d23abd36d58a10f5e8a),
    (2413, 131, 0x39f2f4985dd35d724113b8ffc5a571595268079d2ac7042380cb8cd90acb5e8b,
      0x367019b5ae8c8506c08b08d73ea8d2c97a0d3cd6dc98f48ed795a0e30ccdaa8b),
    (378, 6429, 0x195a0a22935a57a9eedb0a6399b5a6c87cd005b7026cf56ea6843e311fe7028c,
      0x5248a2b1ca66f6ec81b37bf4228b04539e79170b077cc3889008baee0cda668c),
    (526, 106, 0x4030ce5ac9dee7ada8947213ab6de35ed218ad6ed24a1f699070834d62f2828d,
      0x745fcc66d384df943a74ed90d3838de3e1c07d14d525d6da2b3638c05a3f2e8d),
    (620, 984, 0x3b0eb483feb20ffdc984eb14c5e172e60b37b7b1dbbf08c1bb60875a486a828e,
      0x7e589cfe792e87adbf9ec27d6139a3fab47a5a3bc716ff17d95cc387e58fd68e),
    (1684, 899, 0x410b70879edf886af2834bfb344b52e1f2cc69443d0f8557ed9a014704651e8f,
      0x4d681c6cb01cb5cf606fdc148d87db0f9fafed0352ea79a27a4bf65fcfa8f68f),
    (689, 315, 0x750f96bdc2e6e333f64be89fcc35db1712b30a59f70874cc632a0ac128392290,
      0x45076d8ba4ef03c11062669a516d5caf7577163a1759e6a8b583ffd367fcbe90),
    (1070, 2259, 0xe83f16eaffe932d07161136c0c41436f120779c9852db06a5c033f830bf31691,
      0x0d5a2ee276dd681cdb504849435486c5b484010795487cf3fbf19a6981c2b691),
    (2752, 6731, 0xb7c82b4ce160220143f8f14b85c8fe4c3105ef179ee693e92e87c3a5c7dba292,
      0x38197a70f7f83bd6bde822c26c61f82fc31739bd9012b9c47f39f9d18ef18a92),
    (724, 171, 0x1edf1b46a806e674d4b6d472598039341f12a66afa30c279376a931402b9aa93,
      0x361ab04ba0a13e466901e25004dc9a646a445ef2b00f7eb38a5df5a0c7c34e93),
    (70, 1467, 0xa815471ff5a46844c13b42dbc4e546c40c8a179e11b74acfa4366c79a986d694,
      0x745136fb2c99a09f8ab6889c342e653483d094656ca8b11f37c6f50eadd3a294),
    (163, 714, 0xc3404860a13afced6d56f0b531afd87f3f689a7e33d24bec6f49e823a6acfe95,
      0x74885de45c643f15a2eabb143d3278649f844a39c960e53684710324f451ca95),
    (2, 266, 0xe586786b21c43acb1bded04db3560348d2ad264967f57273e11f4c0017a1de96,
      0x1f66dfee87372f547f7b90ea3006fd2aee06a7b8e257969f0e3d4edb88eb0696),
    (637, 8931, 0x26f4b3fbcdb25954ba91e3aabdebfe9c2e097984a919151c7190ec3b7a182297,
      0x1d1c09116c065bf35407e5b42b0860fd13a825cd97b30ea56d5b4fdda5305a97),
    (515, 471, 0x9aee2d21a094ccc8c182c5b2ca5f98f15cea076fa181f994354341c06dd45298,
      0x41c554dfed7dccfd99dc5ff54007607e98436bd80fd7f7b91fc5d8082590b298),
    (2296, 89, 0x189d36605cc09ccc954ab9c449f7f4fd4e660998bcc50c3b7b5cd8f2a5661a99,
      0x4ede5cb7a7b30466d9252c077445c0d5c645682e1582bf60a8767f5fa9293e99),
    (64, 2373, 0xca216d58c125ef6757ce3cc7533df8aff11fea253dac1674413471d8be586e9a,
      0x6e44dafca6747d002ce3e8820c0958395a7df1fcfcc71c13abed0abf77c2ca9a),
    (887, 956, 0xaf378b883b9502e7f86d97a32d7eb508141b14e9f10587c88e49b6b594c4969b,
      0x54f450120fc362d4347174b2cb9892630a5d7a58a369cc53893413b9e811329b),
    (1453, 4937, 0xf5ebb1870884708a8f8e9c691d42effc8104224647fcd8f7e328d8631551b69c,
      0x0cb138fc474495ed53533101952e0eed1d4d6a8e6ea9c30182b5a7c23811ea9c),
    (538, 1037, 0x495d04cc40e1d896189babc35ec1c10d1182ee60684f95bddd8c57a35f3cee9d,
      0x65bc287fc1725fb85df3920294e941628eec8b822dff0cb454ba88f0b5ec629d),
    (241, 540, 0x7d63051d00bd476474e82bef65f4cb9a419ec250dd923a39a898d60e8cd3729e,
      0x7922ff4e07411a2a6ae55d6163d12adba1913569e1ff24049ffa5e98f5409a9e),
    (315, 414, 0x4ff24e77aa52c78aea316d9cb067c5fb1ef94926fbc44f2190bb1df97dc0929f,
      0x65f6e8de7e3759b97f654868c0818340305f9df5997e5a6addf7dfc7da616e9f),
    (64, 1550, 0xd314b72d8eda9a20adf75fefe16ffa4c31b2e2a9285bdbf90739dac7ab2762a0,
      0x27f4f0c4bcecdbff57605cada24ed05443397d538c2e09980b7ff34abe9396a0),
    (728, 2396, 0x0f32a1214af4243e9aa7b43031f5cb8a92959c824c695452ebbc754abd5d6ea1,
      0x780a91e9c41b128c70fcdeea6ec75084e52e45655b9dc2a56722a7dfd4606aa1),
    (426, 4748, 0xb0f9080e43b7d95e817c5f56420b0e4f0f1a39354421e7812e89fef61f4872a2,
      0x41f1dd4ce806f16f25f832d3b3813a7e2cbbb743eb48ad201ab34b132eb116a2),
    (235, 5217, 0x18df428341e99a12c4a76131f47cf84d70bd03a1e14acfe86ffd032a69332aa3,
      0x0d3d248572295c30bdd68f8425a0652edff8c6214128f4d3d5bd5e2db4f512a3),
    (425, 2366, 0x9a290774965abd221839d64ea3e361bb5fc9886aa802829ce9a5bc1a06de82a4,
      0x200ed704470aac4bec499bae3654bde9867478741df735ddda9d3e3754b9aea4),
    (2340, 1307, 0xbd25cae4641feeb823748cc54f1618a8e081ef03db1e5154ef8823c14528d2a5,
      0x131a514c8269372545e0186f5580e257d03fa0ecc39d880851c15cfdcfd4baa5),
    (1956, 1413, 0x1ffff8dc40347ab8f0300d1dc744935013122e943058352bb3986d9dd79966a6,
      0x65a0b67a70e0c851db99f5ae23656aed90b5e51cd82a574c5147a6f09a3722a6),
    (617, 4940, 0xf34763da0c2c3683dd9e04853e61d7adbcd3bd9a2041c208e7dc0e0269085aa7,
      0x4f24ce65c672245b6b8160d7e0ab000ae32482da1b04081e24e9faa36ff816a7),
    (518, 819, 0x89d9e15d6c47a8ab9e70c8bcedf1d2c47c85ec7c2f517fa4039ce419d07006a8,
      0x7e784cbf9ff5c7bb6729f14806d58888100b649a0d050b6c90977c194454b6a8),
    (121, 1183, 0x66b57e20363f320fb477c7f27f8ba6bbac29d663e8928b1992038ce34851eaa9,
      0x3047756aee5abc31c137cc081aac58ac64d40fd80751e346139e478bcfa052a9),
    (51, 4790, 0xb01788fa6ddc1ab0d79a62af95d39e98068735fa9797537dcbdd5b67581e7aaa,
      0x13395a4a0dc411d55bc1abd8c18aeebcf63f76217d93d5db4e9d68f897038aaa),
    (1168, 4158, 0xe4a0bea353dcfb2c0262a2ab05b207bf3d25c9c1b1393c19e7adddc0473776ab,
      0x5d7114623b73139d15db5d1e305fd2df3875f295dd1e383edc49894368d6b6ab),
    (686, 1403, 0x4d73e4a28a11c6dd46c1ed18953c6b45860644bd66194325e1356ba26c6356ac,
      0x2da5d21b53f52f8f0393d42847afc3ce6ce44c3068978262ab1afc07de983aac),
    (970, 1317, 0x653e9815014ffa958ace93c50edbdd8ec9696d748a5510fdca58cb5a5ab272ad,
      0x14281c2bdc174011dbf81957ae41a3af2ab8b2b41bb85f96d0107a2c50d0d6ad),
    (2658, 760, 0x70bd0c1fa090bf0a16a0b9cc01dcef0d22a7abd1574c8619cc040c569b075aae,
      0x20ecb7e210dc786ad80ed20fbdbab9cb4eb3bbeec27e9b5b601e5073ec8872ae),
    (2015, 497, 0x6d0a450b7771fb7b59936f1f659146b5878ac37b32b56ee47b5b03a10d423eaf,
      0x0ac1dc0ddb7eb2f60ed2dcac9a387276782a174b7b579cd394c0c7564c32aaaf),
    (323, 16, 0xcbdbe9ab30b67a5a6640d12d5d982075b2b0753c1073b3f292e8dd24adfffab0,
      0x4c66b077e005f2e53142b6587c3b9aaba5d435ade524f63d2f0b4c9f3b6666b0),
    (776, 100, 0xe31ebfafbe5f365f8579c16ba3af785af7d3c48bdc4b7b2b70a0a6274661bab1,
      0x1b1af9578fbd1ee659b8433fa99f60765b5f7a33d68807b8faa3b5780f617ab1),
    (462, 3210, 0x84a2f8f670523c6380b74fd8c8f93f734652d323936d8183972d0b004595f2b2,
      0x33f6a526731f12c71d27713b427d54150ae613d9dcacc94ef1c99273258892b2),
    (38, 855, 0x3dc6218b940b9b2465e9036eef1b065a01ca4de1c78eca11d3b3e55b90db46b3,
      0x6b3d2a2c3ee4774ef9f1f05c1414f2405e6513dd33f0ee52a4eab640f2e2b6b3),
    (223, 239, 0xd57c7a5e764d74c3d10a1b435958f6ee0e9cc6f8940403044406419191ff4ab4,
      0x740e85795ee9a3d2def0aa6480f79648e48ef477e167337df66b6f593f718eb4),
    (51, 3110, 0x371fac10d58969ef4da1608c3320d9a8f38c96bfcba4c3559cadc1788df2a6b5,
      0x1f5ae8407003bb681b3961dbdc2c75c0c35fbcf78c1856bb8329c53807683eb5),
    (354, 287, 0x6c710d990e979cc3332402c4679c625cf54cd36d5aa9413034e022795b4ccab6,
      0x304af720643821f87d2c027aa4252ebe272830791dd0c0801ca4bede9c2c22b6),
    (332, 5337, 0x634e1901329efa6e34516d42d1a36532789117f58685922b4b7bca5ee03d72b7,
      0x67a43d6c2f02a00e778b489baa3500a4c2f298db7e738246940f237b9dba1eb7),
    (1230, 1687, 0x7f52f5534eab04f2498492600749fb46b8b298f6adb34abdbd3547fde4b122b8,
      0x08b64784efcba056b3524aa423fdf63a4c047c43314d64f578a201b11f3d3eb8),
    (832, 2587, 0x5303e295b5f358aadd9bb1abea3697dc5a8df4d534d571519cf71a6fe62256b9,
      0x0321f0bfdc3a333e0c06dc0a18a965ad43d4577d6c03da165164b74ce9424eb9),
    (2276, 3185, 0x225cf2d18463c1e9ea501232f96e0aab16d46055782e71f4a4d6fbf31fc902ba,
      0x41668f0a7637a78715befccb7a217f50742bdfa618811fa91e47da9da2770aba),
    (891, 898, 0x29aa0d49004131fdbfa103fc3fd2125f616413b385e225e3a0379ab665cb86bb,
      0x2f874b2f26e9c55130e32f689b010be9a0e16b538f1d4c1b3786df1271fb92bb),
    (1916, 733, 0x0473ca197fc1da169d180c569c95d28c3a16ffde664a3ca70ac0660ceb512abc,
      0x61b5592bbb788a5e247d912bb96e4f8f8394baa541b3c557b527bc91276066bc),
    (1794, 641, 0x7a4818c2753d0c114f99866334788d32c71b009266b9316af800784efb7202bd,
      0x49cf41116a0e560a49ae4b5b9d56a2e0be8c9d8a9b20b4e602b60f0b001baebd),
    (436, 3011, 0x8bf4d62db9501cd8cfa40daeb7f866aaa9e09643c40346a16061f24fa9d92ebe,
      0x07590897b247922035ed3c07909ca8e4cc2d80508cd2d71df832a5c0abfd72be),
    (344, 163, 0x83c31c18124ccea8e5038f6a2b1b82b56e2f3f8b330aa3a7fa766ccc06e16ebf,
      0x5c9a8e28cbd7e223e436d7e0d5f4e83ddd13095f4173cee232466e2987262abf),
    (2522, 1622, 0x820e1eeca1b5446ee1e80a1597cd534d99748c021ecade633a20a630596f0ac0,
      0x54bb3c8d056ee8bb8ef6af327b38d2d3a421bd7e73d3d872e1b9d05f29f70ac0),
    (1075, 192, 0xc0f5b80fa3b920716d6713f537e8b1b0f44a2beabc4652595c36a060178152c1,
      0x00fd94c137b5b42aed1183857f255fb28773b5a25a103b03a6bf66cfb0b4c2c1),
    (26, 417, 0xc8af4e44684b211f28ceae5e7fb34ea72e7670a23c5f2fc0f6918aae2d541ac2,
      0x75ce521e05cd14711bd51c5a03e4da7e858f111ee9e66e2bb59c3313284236c2),
    (18, 5346, 0x6c8fcadb02ed7571a75bc0a9f92dac2db8cc03122bde35377c74feba8a422ec3,
      0x465dd408f4384b1c3dea772b844fa2624c81478d8bae22f0385bf3c40095cac3),
    (3009, 7048, 0x9cec03eee96185cc048da71d0f74af3305c36a090fd26143246ec4c6325472c4,
      0x739c213513ff08997d1309a323d704fa76b2f883d136170749057c694a00c2c4),
    (1610, 4125, 0x3763f87c386dff08128b8584a6ea2fb9c3afb823c2657f55e7b41ad53eb356c5,
      0x62fbe9f8f8074bc274d071064516e190820c24d38459a114f42b0eccb13b6ac5),
    (92, 785, 0x642b5bd1655c59ec18449e9a6b950fd6357f18611180396c1cbc022fd7a11ec6,
      0x155a3980a1e2f4aa5fc259d5cbcf4675f68c79d84c461973b38d6c3851206ec6),
    (888, 388, 0xb0a39f7ff6813be9a782be383ef8c334268c1da1e2526dff1cd9af49e245eac7,
      0x2d8e76c8c0a07ca4b14a805767a68e9b4b2d8b0ed69d6d3b06a32634822d06c7),
    (473, 6912, 0xd782c3d916152382369eabcf8cd69c8712469afc43277e69611c33aab7ae4ac8,
      0x3c23eb0696ebc40dd4c960a7be5719408bf0bc8ddd1049c0220e2e0308519ac8),
    (910, 820, 0xa3439b05da86231c905c23a14afb89e16818004f8943bde08cb93d6bb39ff2c9,
      0x7f5f10d586175f8102c4e4065a37bcbf084031116f74465000793f1c5d7b0ec9),
    (2046, 1018, 0xb6df69039c02cf615b33cf7f77f12609fb73bda5229cfb80ebac9d9de1d7aeca,
      0x3fb19554e486e90286c3b024e42755cefeeb9c36ad884b43a6978cec68f672ca),
    (1118, 152, 0x327f4c09b9ef979cf44196228f28257d8b4c07dfd6430031806ad458a9ab86cb,
      0x0cced943ee78fb70f54adf251ae03521801d03b11febc877e8c0a6f0b624c6cb),
    (656, 1903, 0x13f094aff7b787f84dfabd3b207cef5eb5fefec0150747fb21e561b39f0ddecc,
      0x15bd6f10767076707df55f94e2e3434c43b6ee091fe96c32daa5fabf172412cc),
    (216, 3661, 0x861a9570bc00b75f531a6b462f77c4a257d3758567e9675754720f7a2d114acd,
      0x389cfe5dc5911af29076b079526a9bbe4ddf0cd130a6a308a5e232b87028fecd),
    (276, 627, 0x4b3a76e40327428a2a177f56066f6e666b3eb62ea0f9a960e25dd7d33d5ac2ce,
      0x2dff1327d87d2e0b0169825d9e3345ab137af226ef59221d40e2637905625ace),
    (2054, 175, 0xd1db34c06d4a5e94e9584fcbec1e9cc89e8748071bc97074ce7e7fab2fe952cf,
      0x6d90212479a5ffe85b80458b477c037fcbe32cc92a69b0d058a06a4f545086cf),
    (886, 1095, 0x4794b740e2f1994e80e5ddd0ad6cf692092974d4ce6dafb9c0c3d7b798d49ad0,
      0x48c40fedd473fc6f04a6380238c421a71b1b5050dcc020675e4d8089caf3a2d0),
    (896, 2914, 0x4bbf6fd2caeffd969193a879c50901df0e7f364cf4a86fd8ffbfb6cfd6cd9ad1,
      0x6868b77a80a483cb1dd79219fe2b4aa40a380b77d62b2c77a29b0ff1d92352d1),
    (1091, 6518, 0x9fab3f111469585fe8acc6eb87f63b9e12d3c9f55a06d9ce43685994e0e196d2,
      0x005be3a9f5f1ae2e5900a1dcdfba57bc633865a62d5afbfbc3996e0bf02b5ad2),
    (955, 1398, 0xead7ca55ca782a8abfde8944b7504a0b11dae3e7fffedb4592c39db234438ad3,
      0x06d532f29e7b7bfbb45337b22eb169c78eb37e4afb07174a4be49032ac746ad3),
    (1050, 1276, 0x283c2a54e9b02b525bdb52756f1d2c1ecfb5ecc327782ff073728258c938f6d4,
      0x0537bead0e113cc43c54fcd29fb444ce01ec6d2cdb7929a318cd1e4f288e8ad4),
    (27, 1563, 0xc0ee1d28e3181ea4f568877aa439abd40d9081af954937489541bb18e3ac92d5,
      0x667f658a02d35542e4c99008abfb184741058e45568fbdcb9c2d5368ed452ed5),
    (934, 1341, 0xbbce1d909fb2403a31433cdff1772c27eabcc499385b48920391352e5a8d16d6,
      0x3b210cc3e4998c625ba8b26b45221401de344ba0df4c404f8a2643822acc1ad6),
    (353, 1647, 0x303587222b5b89565aa47ecb948518c67583ecc4f7ee1b18e961008254990ed7,
      0x5b9cf6f392d26807cca3b56729ff83021e517ef19b11b6a0e56e694b06fc12d7),
    (43, 1247, 0x485376301a7a35b1ae4c8ba203670f0968bcafab796aec0eb909f3b222577ad8,
      0x11f2e9530f673ea4e70ea2e60a70238c3de5c1661c09cab44d2a6c676bbb8ad8),
    (756, 98, 0xfd9996afcc69e9b2a5e80b25f518a5ca56a95e76765f46f0bd4223178430fed9,
      0x11bffbe67c66c319c43828ca7d3a45211b960ce118360c338a48c04d7c2be2d9),
    (4953, 1437, 0xa9796ddcaf583c21c84ee71e3fee48fd977392d93c589187ae9a484847bb3eda,
      0x69a3abd89c34b2c5759751ff80871d2ee3ae5d36309fd9033b47e3ff824372da),
    (231, 405, 0x1621d7690d64dc25d2b37ef7b03179e8e835a29ee256e71c815da2576f787edb,
      0x1102bdf844d134c3d596eecdccb47a6d34934d5b333dfbf89d71ec0bed1f6edb),
    (343, 4052, 0xa61ef261393cc492fd860f637f53a6d19ea73975fe90ce408bd290b4e65cd6dc,
      0x0ea5d108f22c3a1f349b33e0a05a03362d072ef5ffe04b65e5b13b1375e242dc),
    (530, 301, 0x8d2924521eda4bfb4cb2cc0faeeac4920bb8fdafb503ac096443f15d97a532dd,
      0x149b68edb357bd774e4afb39b93965dedf5cdcfddf3ff54986a9f7a7b31cbedd),
    (429, 4437, 0x9323f6684083d76d98275535841eea927894d61872fea083088793f57d1512de,
      0x45cbe7a078c4324338412047c36e9679fb1fb6a84b627f571dd7e28fbebd2ede),
    (240, 2218, 0x1e28832902da7791cb3ea36c4c1b2787959950044fd0f0c778809e6e34914edf,
      0x256bfbd48a76edfe6b3801dc01c39fea30df5241448e8c15e612a7504dfba6df),
    (1284, 1799, 0x43dfcf5b2c2073768e0a0585766712a2cb7a1585cba64c7b86b353da34436ae0,
      0x7184074761062019536d198e0e4c36850ab2327af1e97920c50c88ab3937aee0),
    (635, 2912, 0x6e6d6da4065bed07d00a92b58a9a25071a692ff81fc49234232cd633852b7ae1,
      0x2e287b37b0d822624caf11d49703eab963f27051840ecd019fa57d2db3a416e1),
    (461, 511, 0x09f2708700cc116c2a16cf5c9cbb51b10ed049770d501843c55c26ab07a62ae2,
      0x7273ae95142ffca70a8231137c27296baee5af9642dcbcf0f7761030203e8ee2),
    (323, 4894, 0x4137cea39a0a04b68511cd8e421a554fb5caa9d7b2ce18533868bcdff83c7ee3,
      0x69981f16827bcc43d1deb714739cf86f54d7d6cf104d817f78ad73b6ec27e2e3),
    (254, 4932, 0xdf7d5c7cb98ba27ca34e56d23d06803ad5c9cd7062aa2f66e5a4d04d273d02e4,
      0x56519429c31e0175f833f6c7924551d15bf8ebbe1bbff573cc41f2ff7eb13ee4),
    (330, 1233, 0x4e5391d923a3ef03e5dfe23a8758076085e9d91d9f75a311fb075827e17bc2e5,
      0x53320649ae8d5686b0f41c4bb653e6aaafe007bbba863c15330cd0270071eee5),
    (610, 1128, 0x768b357de4bb851e113aa826bb64a68e4f58e02e1a8c3b23f89a02fa115e3ee6,
      0x489741202df567cc34f8e2b0f9563461a8d34ae9424be0ff5a198a2fdd29c2e6),
    (2024, 1190, 0x3857e862781b5196b2bf315c9ad6f8b54cceb67f0a3fa3b34889d9d9eb2e02e7,
      0x3897ce6daf78385c90d5a7c7c1dadb50f25d29a40e8866a6b9163b0e3824c6e7),
    (1703, 385, 0x18a65520b6ff0827a7356e60c92c63eb6c4d64635aa6cd855434c442aec28ae8,
      0x6cb7eca9a1be164a4cfaff1b34a8527f599097c0db263cdffdc2e2705e1152e8),
    (778, 1614, 0xc1b9e2b755991bc87cd5a001189a1f15ab23de3675315687458f4c1d703f0ae9,
      0x49894e7c4fcb34a705c55225533bf8dc8dc08d381ee089a33617e84733ed32e9),
    (1680, 583, 0xdfd6865b216df4d0080bb7d2caa0fff16533bd2e57754670076dff30da949eea,
      0x3ec5a3ded16dda75879107658e47ddea0899213363d9ac6922ab7b02382f96ea),
    (332, 9547, 0xe26239e37fe7fefadc5893e4528a32419827e9f9d29143402f8f08ee54cbaaeb,
      0x4714587f266f75dd81028b2f17db7d48bc3bf94d195ca6280c555ccc87c67eeb),
    (312, 2881, 0xe6dafd77a890ad0b2692807fc6ceee3a22def19594e7daae512bf80860fd62ec,
      0x494a96e3f38f1a351d7a378f95b2ec961c9fa9bcd49a2b314ab47d96b8d9daec),
    (1943, 1203, 0xda798673bf04f1c822f3ed6469f591f2b2ad885d0b0823f570d305344575a6ed,
      0x7b2d4419f2cd2c70c174b6b3e0a3b2e62fca4dd50f8e5757ab8f12e9df97d6ed),
    (490, 2071, 0x206be96eeabf39c72cd8f970a8e57953933d16ea27fd8de8ab026148489faeee,
      0x4563ad76a0d23f291afd582d3e93f0ff60e1421e920db194746f53f5a76ca2ee),
    (1418, 5194, 0x4c25e1e6baa1a2294fadb4b831a35b1e08aea009de2d94f9711b7b9e622b82ef,
      0x61cf618b89bd633e7e71ac82b69ac5c467e130f12d20f0053f7ccb2b6fcf6aef),
    (258, 667, 0x981ccdd7006367b84fbc9237946d327f31a6e29d7b8131a6a176f44489ecdaf0,
      0x18a46d3b3ab5707c607d9e47c09d19a370302bed155fd369707156358074c6f0),
    (898, 10, 0x60f9590c7958c9fec969c07281ec12158f81a81592733699939e35bc07531af1,
      0x540327e794eec2e6eadfc5c6e0919cab14ae5ce997de92bcf65eaf2c42c2a6f1),
    (620, 5717, 0x3ca3037768336cdaad3f5a8ede40e436f098005e07f9591cd1109afd4e426af2,
      0x550587144c69b60766a52ab18f7d141ba95ef8255880d349d501d4016a45faf2),
    (670, 1550, 0x977ad8aab2dfb2e80cf3ba79085a3126119696058041f50aefc0e0cb4ab542f3,
      0x450fe2203ba9510cf5ccfe2cd760b24f79b1d35a089c229f0924037b372126f3),
    (187, 299, 0x526c2bcdb8d9ce1647608e456d14486734c114c045d59a8558a8fab16f45b2f4,
      0x1b732505a8df64a11748fec35d737e30055594a7324263d38647f8f28ea3fef4),
    (262, 1906, 0x008bbe3105eef071903bb86798e5be4419c199205639b45064fbb6a811f12af5,
      0x59faff43cfdeee6255a7c71b07b92fe17fbd9ba658838ad22bc437fbef8ce6f5),
    (361, 1149, 0xed7ff2b0a2372d94a657831fd41422b531eff017be3c643007190de6fe707ef6,
      0x21e7af4ce50e0d06079104f4d488248b871ba140134167626cd6037723f266f6),
    (874, 3602, 0xfd775a48a39f09d0cf18364d24ef37067014d4d1bc3565bf59679a1b86a606f7,
      0x01d00f84995cf96aafe22e26c5a089afa2bb719955b6e65e42a4a0660bc38ef7),
    (1633, 1243, 0xdea2d7e35b87d61c34948b318ff00b7a6210a85bb155c536d39a28ba519852f8,
      0x11962173744c3e134889b0dbd7221e7fd76761f4b49ec83472305f872bf83af8),
    (4423, 359, 0x2293f71ef772fafe44cd26f9eb017073e20434d8a4900f1fe3d7233adbd636f9,
      0x5750acd50bf1bf85a2880ee5952b30d583d3fd1bf15fbbe8c4bd74e8840012f9),
    (2952, 2842, 0x137b496d50ceb0ddb6228e26446500557b3574cb810efc12c22e32b170c856fa,
      0x0ff46e37cf63eb42d44ff60550dfb4f5fc8b00b37508af0f4b4e4ae8ab0082fa),
    (105, 1670, 0xdd263a269130acaf3f64059b34f0ed111d05648b5ee9c61d52f9cd514f0702fb,
      0x3c383302396942f997c0998cbc274e29a899c803c00122a4e7ca0add586582fb),
    (443, 36, 0x3b792206ce9b79e55685d03f1870be6881d6cc0cbafc44ac4ca35387842836fc,
      0x21caa848c5b7238927d17f35fd6f1dd1d3c54f96d3fda61e6bf76de045ee46fc),
    (1601, 1442, 0xd97d3dcef699a7eefb063045de46d632b3e7f19cf6fbb0966183a974e9c9a2fd,
      0x41b9b78ab97b0268904cb233698a2b003cd55873eaa4292cd33433dff81b46fd),
    (1063, 5098, 0xe50087190ad327caafed1455e3774d1c15254635e60b4bcda3b9a20134a2fefe,
      0x337d8020cada5cd4f0c0d2254eb105ba18315a54a211decab8fa9c2116a3fefe),
    (1505, 30, 0xde9b823dd1e2e6eda40c43dbbafe4eb17f46d3ea5a3e9cae0f9949b348275eff,
      0x552ce49ae0440bfe6c69453ae72ee130663c72fe18b128c34f96901d602fc6ff),
    (1557, 2234, 0x75d6eb3e17e6edeadd65546d8dbc848b76fc0758d9ae46f76bc922fbe12c5f00,
      0x5dd71a3c3a7f1228c843ce3ce379eb359531d4215cdcb489f742f0878977e300)]

def fundingBlockDigest : Nat :=
  0x39af866a036e38d00963de0ace4a17f48f11560490dd391ce7a452e8132afc0d

/-- The blocks behind genesis: the first pays the key of the signed samples. -/
def longChain : List MinedBlock :=
  ⟨fundingCoinbase, 1, fundingDigest, fundingBlockDigest⟩ :: minedFrom 2 longChainTable

def spendingDigest : Nat :=
  0x0000007def578f72799c8e8fe8c1b1f2591add13dc57d7cee3b1e195b3bad446

def spendingCoinbaseTxid : Nat :=
  0x6a802b03351df76cbed4a75ee5973f827ddeb4619ddb827eae914c1f217cb84c

def spendingMerkleRoot : Nat :=
  0xd5c31d0b733e1bb95a17280f4a6d29547cf3432a7b976cbc6583ed2b07ccb63f

/-- Spends the matured output of the first block, with the bits and the timestamp that
the rules on headers ask for. -/
def spendingBlock : Block where
  header :=
    { version := 1
      prevBlock := leBytes 32 (lastDigest genesisDigest longChain)
      merkleRoot := leBytes 32 spendingMerkleRoot
      timestamp := genesisTimestamp + 240
      bits := 0x1e0fffff
      nonce := 167459 }
  transactions := [heightCoinbase 257 0, signedSpend.tx]

/-- The digests of genesis and of the spend. -/
def otherDigests : List (Bytes × Nat) :=
  [(genesisCoinbase.serialize false, genesisTxid),
    (sampleGenesisHeader.serialize, genesisDigest),
    (spendingBlock.header.serialize, spendingDigest),
    ((heightCoinbase 257 0).serialize false, spendingCoinbaseTxid),
    (leBytes 32 spendingCoinbaseTxid ++ leBytes 32 signedSpend.txid, spendingMerkleRoot)] ++
      signedSpend.digests

/-- Primitives that know the chain, and the signature of the spend. -/
def longChainPrimitives : Primitives :=
  { Primitives.ofDigests (minedDigests genesisDigest longChain ++
      (coinbaseDigests longChain ++ otherDigests)) with
    hash160 := fun _ => sampleKeyHash
    ecdsaVerify := fun msgHash pubkey r s =>
      pubkey = sampleKey && msgHash = leBytes 32 signedSpend.sighash && r = signedSpend.r &&
        s = signedSpend.s }

theorem heightCoinbase_sound (height extraNonce : Nat) :
    SoundCoinbase (heightCoinbase height extraNonce) := by
  obtain ⟨low, high, named⟩ := List.length_eq_two.mp (leBytes_length 2 height)
  obtain ⟨first, second, counted⟩ := List.length_eq_two.mp (leBytes_length 2 extraNonce)
  have shape : heightCoinbase height extraNonce =
      ⟨1, [⟨zeroHash, 0xFFFFFFFF, [4, low, high, first, second], 0xFFFFFFFF, []⟩],
        [sampleOut], 0⟩ := by
    rw [heightCoinbase, named, counted]
    rfl
  rw [shape]
  refine ⟨rfl, rfl, ⟨by simp, by simp, ?_, ?_⟩, ?_⟩
  · intro inp member
    rw [List.mem_singleton.mp member]
    exact ⟨by simp [zeroHash], by simp, by simp, by simp⟩
  · intro out member
    rw [List.mem_singleton.mp member]
    exact (by decide : sampleOut.scriptPubkey.length < 2 ^ 64)
  · have size : (encodeVarint 1 ++ Transaction.serialize ⟨1, [⟨zeroHash, 0xFFFFFFFF,
        [4, low, high, first, second], 0xFFFFFFFF, []⟩], [sampleOut], 0⟩ true).length = 67 := rfl
    omega

theorem fundingCoinbase_sound : SoundCoinbase fundingCoinbase := by
  refine ⟨rfl, by decide, ⟨by decide, by decide, ?_, ?_⟩, by decide⟩
  · intro inp member
    rw [List.mem_singleton.mp member]
    exact ⟨by decide, by decide, by decide, by simp⟩
  · intro out member
    rw [List.mem_singleton.mp member]
    exact (by decide : ([0x00, 0x14] ++ sampleKeyHash).length < 2 ^ 64)

/-- What holds of every coinbase with a height holds of those of the chain behind the
first block. -/
theorem minedFrom_coinbases {property : Transaction → Prop}
    (each : ∀ height extraNonce, property (heightCoinbase height extraNonce)) (height : Nat)
    (rows : List (Nat × UInt32 × Nat × Nat)) :
    ∀ mined ∈ minedFrom height rows, property mined.coinbase := by
  induction rows generalizing height with
  | nil => simp [minedFrom]
  | cons row rows ih =>
      intro mined member
      rcases List.mem_cons.mp member with rfl | member
      · exact each height row.1
      · exact ih (height + 1) mined member

theorem longChain_coinbases : ∀ mined ∈ longChain, SoundCoinbase mined.coinbase := by
  intro mined member
  rcases List.mem_cons.mp member with rfl | member
  · exact fundingCoinbase_sound
  · exact minedFrom_coinbases heightCoinbase_sound 2 longChainTable mined member

/-- The digests meet the easy target and belong to no other block, and their low bits
count up. -/
theorem longChain_checked :
    (∀ mined ∈ longChain, mined.digest ≤ easyTarget ∧ mined.txid < 256 ^ 32 ∧
      spendingDigest ≠ mined.digest ∧ mined.txid ∉ [genesisTxid, spendingCoinbaseTxid,
        signedSpend.txid]) ∧
      (longChain.map fun mined => mined.digest % 1024) = 13 :: List.range' 514 255 ∧
      (longChain.map fun mined => mined.txid % 1024) = 424 :: List.range' 514 255 ∧
      longChainTable.length = 255 := by
  decide +kernel

theorem longChain_targets (mined : MinedBlock) (member : mined ∈ longChain) :
    mined.digest ≤ easyTarget := (longChain_checked.1 mined member).1

theorem longChain_txids_fit (mined : MinedBlock) (member : mined ∈ longChain) :
    mined.txid < 256 ^ 32 := (longChain_checked.1 mined member).2.1

theorem longChain_distinct : (genesisDigest :: longChain.map MinedBlock.digest).Nodup := by
  have images : (genesisDigest :: longChain.map MinedBlock.digest).map (· % 1024) =
      483 :: 13 :: List.range' 514 255 := by
    rw [List.map_cons, List.map_map, ← longChain_checked.2.1]
    rfl
  apply List.Nodup.of_map (· % 1024)
  rw [images, List.nodup_cons, List.nodup_cons]
  exact ⟨by simp, by simp, List.nodup_range'⟩

theorem longChain_txids_distinct : (longChain.map MinedBlock.txid).Nodup := by
  have images : (longChain.map MinedBlock.txid).map (· % 1024) = 424 :: List.range' 514 255 := by
    rw [List.map_map, ← longChain_checked.2.2.1]
    rfl
  apply List.Nodup.of_map (· % 1024)
  rw [images, List.nodup_cons]
  exact ⟨by simp, List.nodup_range'⟩

theorem longChain_fits : ∀ digest ∈ genesisDigest :: longChain.map MinedBlock.digest,
    digest < 256 ^ 32 := by
  intro digest member
  rcases List.mem_cons.mp member with rfl | member
  · decide
  · obtain ⟨mined, memberOf, rfl⟩ := List.mem_map.mp member
    exact lt_of_le_of_lt (longChain_targets mined memberOf) (by decide)

/-! ### Digests along the chain -/

/-- The height, read out of a serialized coinbase. -/
def namedHeight (coinbase : Bytes) : Nat := leValue ((coinbase.drop 43).take 2)

theorem namedHeight_heightCoinbase {height : Nat} (fits : height < 256 ^ 2) (extraNonce : Nat) :
    namedHeight ((heightCoinbase height extraNonce).serialize false) = height := by
  obtain ⟨low, high, named⟩ := List.length_eq_two.mp (leBytes_length 2 height)
  obtain ⟨first, second, counted⟩ := List.length_eq_two.mp (leBytes_length 2 extraNonce)
  have value := leValue_leBytes fits
  rw [named] at value
  rw [heightCoinbase, named, counted]
  exact value

theorem namedHeights_minedFrom {height : Nat} {rows : List (Nat × UInt32 × Nat × Nat)}
    (fits : height + rows.length ≤ 256 ^ 2) :
    ((coinbaseDigests (minedFrom height rows)).map fun entry => namedHeight entry.1) =
      List.range' height rows.length := by
  induction rows generalizing height with
  | nil => rfl
  | cons row rows ih =>
      rw [List.length_cons] at fits
      have first : height < 256 ^ 2 := by omega
      have rest := @ih (height + 1) (by omega)
      rw [coinbaseDigests, List.map_map] at rest ⊢
      rw [minedFrom, List.map_cons, rest, List.length_cons, List.range'_succ]
      exact congrArg (· :: _) (namedHeight_heightCoinbase first row.1)

theorem longChain_length : longChain.length = 256 := by
  have counted := congrArg List.length longChain_checked.2.1
  rw [List.length_map, List.length_cons, List.length_range'] at counted
  exact counted

theorem longChain_namedHeights :
    ((coinbaseDigests longChain).map fun entry => namedHeight entry.1) =
      0xff01 :: List.range' 2 255 := by
  have length := longChain_checked.2.2.2
  have rest := @namedHeights_minedFrom 2 longChainTable (by rw [length]; decide)
  rw [length] at rest
  rw [← rest]
  exact congrArg (· :: _) (by decide)

/-- The parents of the blocks of the chain. -/
def longChainParents : List Nat := (genesisDigest :: longChain.map MinedBlock.digest).dropLast

theorem longChainPrimitives_header :
    ∀ entry ∈ minedDigests genesisDigest longChain,
      longChainPrimitives.hash256 entry.1 = leBytes 32 entry.2 := by
  intro entry member
  have distinct : ((minedDigests genesisDigest longChain).map fun entry =>
      parentDigest entry.1).Nodup := by
    rw [parentDigests_eq longChain_fits]
    exact longChain_distinct.sublist (List.dropLast_sublist _)
  have found := lookup_of_nodup_keys parentDigest distinct entry member
  simp only [longChainPrimitives, Primitives.ofDigests, List.lookup_append, found, Option.some_or,
    Option.getD_some]

theorem lookup_minedDigests_foreign {data : Bytes}
    (noHeader : parentDigest data ∉ longChainParents) :
    (minedDigests genesisDigest longChain).lookup data = none := by
  rw [longChainParents, ← parentDigests_eq longChain_fits] at noHeader
  exact lookup_eq_none_of_key parentDigest noHeader

/-- What is hashed apart from the chain is no header and no coinbase of it. -/
theorem otherDigests_checked : 1 ∉ longChainParents ∧ ∀ entry ∈ otherDigests,
    parentDigest entry.1 ∉ longChainParents ∧ namedHeight entry.1 ∉ 0xff01 :: List.range' 2 255 ∧
      otherDigests.lookup entry.1 = some entry.2 := by
  decide +kernel

theorem longChainPrimitives_coinbase {mined : MinedBlock} (member : mined ∈ longChain)
    (noHeader : parentDigest (mined.coinbase.serialize false) = 1) :
    mined.coinbase.txid longChainPrimitives = leBytes 32 mined.txid := by
  have distinct : ((coinbaseDigests longChain).map fun entry => namedHeight entry.1).Nodup := by
    rw [longChain_namedHeights, List.nodup_cons]
    exact ⟨by simp, List.nodup_range'⟩
  have found := lookup_of_nodup_keys namedHeight distinct
    (mined.coinbase.serialize false, mined.txid)
    (List.mem_map_of_mem (f := fun mined : MinedBlock =>
      (mined.coinbase.serialize false, mined.txid)) member)
  have missing := lookup_minedDigests_foreign (noHeader ▸ otherDigests_checked.1)
  simp only [Transaction.txid, longChainPrimitives, Primitives.ofDigests, List.lookup_append,
    found, missing, Option.none_or, Option.some_or, Option.getD_some]

theorem longChainPrimitives_other :
    ∀ entry ∈ otherDigests, longChainPrimitives.hash256 entry.1 = leBytes 32 entry.2 := by
  intro entry member
  obtain ⟨noHeader, noCoinbase, found⟩ := otherDigests_checked.2 entry member
  have missing := lookup_minedDigests_foreign noHeader
  rw [← longChain_namedHeights] at noCoinbase
  have absent := lookup_eq_none_of_key namedHeight noCoinbase
  simp only [longChainPrimitives, Primitives.ofDigests, List.lookup_append, missing, absent, found,
    Option.none_or, Option.getD_some]

theorem longChainPrimitives_hashNonzero : longChainPrimitives.HashNonzero := by
  intro header
  exact Primitives.ofDigests_hash256_ne_zeroHash (by decide +kernel) _

theorem genesisCoinbase_txid :
    genesisCoinbase.txid longChainPrimitives = leBytes 32 genesisTxid :=
  longChainPrimitives_other (genesisCoinbase.serialize false, genesisTxid) (by simp [otherDigests])

theorem longChainPrimitives_initGenesis :
    Chainstate.initGenesis longChainPrimitives = .ok (genesisState longChainPrimitives) := by
  have header : genesisHeader longChainPrimitives = sampleGenesisHeader := by
    have single : ∀ hash256 leaf, computeMerkleRoot hash256 [leaf] = leaf := fun _ _ => rfl
    simp only [genesisHeader, genesisCoinbase_txid, single]
    rfl
  have hashed : sampleGenesisHeader.hash longChainPrimitives = leBytes 32 genesisDigest :=
    longChainPrimitives_other (sampleGenesisHeader.serialize, genesisDigest)
      (by simp [otherDigests])
  have named : leBytes 32 genesisDigest = genesisHash.reverse := by decide
  refine initGenesis_eq_ok.mpr ⟨?_, rfl⟩
  rw [← named, ← hashed, ← header]
  rfl

/-- The set behind genesis holds nothing but the genesis output. -/
theorem lookup_genesis_of_ne {outpoint : Outpoint} (other : outpoint.1 ≠ leBytes 32 genesisTxid) :
    (genesisState longChainPrimitives).utxoSet.utxos.lookup outpoint = none := by
  obtain ⟨undo, applied⟩ := applyBlock_genesis longChainPrimitives
  have created : outpoint ∉ createdOutpoints longChainPrimitives [genesisCoinbase] := by
    rw [createdOutpoints, List.flatMap_singleton, List.mem_map]
    rintro ⟨out, -, rfl⟩
    exact other genesisCoinbase_txid
  have spends : spentOutpoints [genesisCoinbase] = [] := by decide
  rw [lookup_applyBlock applied created (by simp [spends])]
  rfl

/-! ### The chain is reached -/

/-- The previous hash of a coinbase, shifted by a byte, is read as its parent. -/
theorem parentDigest_heightCoinbase (height extraNonce : Nat) :
    parentDigest ((heightCoinbase height extraNonce).serialize false) = 1 := by
  obtain ⟨low, high, named⟩ := List.length_eq_two.mp (leBytes_length 2 height)
  obtain ⟨first, second, counted⟩ := List.length_eq_two.mp (leBytes_length 2 extraNonce)
  have bytes : (((heightCoinbase height extraNonce).serialize false).drop 4).take 32 =
      1 :: List.replicate 31 0 := by
    rw [heightCoinbase, named, counted]
    rfl
  rw [parentDigest, bytes]
  decide

theorem longChain_txid_eq : ∀ mined ∈ longChain,
    mined.coinbase.txid longChainPrimitives = leBytes 32 mined.txid := by
  intro mined member
  apply longChainPrimitives_coinbase member
  rcases List.mem_cons.mp member with rfl | member
  · decide
  · exact @minedFrom_coinbases (fun coinbase => parentDigest (coinbase.serialize false) = 1)
      parentDigest_heightCoinbase 2 longChainTable mined member

theorem longChain_mined : Mined longChainPrimitives genesisDigest longChain where
  hashes := longChainPrimitives_header
  txids := longChain_txid_eq
  coinbases := longChain_coinbases
  targets := longChain_targets
  fits := longChain_txids_fit
  distinct := (List.nodup_cons.mp longChain_distinct).2
  distinctTxids := longChain_txids_distinct

/-- The output of the first block. -/
def fundingEntry : UTXOEntry := ⟨5000000000, [0x00, 0x14] ++ sampleKeyHash, 1, true⟩

/-- A node that admits the blocks of the chain gets to its end. -/
theorem longChain_grown {admits : Chainstate → Block → Prop}
    (admitted : ∀ cs mined previous, Reaches longChainPrimitives admits cs → mined ∈ longChain →
      cs.bestTip.hash = leBytes 32 previous →
      (∀ vout, cs.utxoSet.utxos.lookup (leBytes 32 mined.txid, vout) = none) →
      admits cs (mined.toBlock previous)) :
    ∃ cs, Reaches longChainPrimitives admits cs ∧
      Grown longChainPrimitives (genesisState longChainPrimitives) cs genesisDigest longChain ∧
      cs.utxoSet.utxos.lookup fundingOutpoint = some fundingEntry := by
  have genesis : Reaches longChainPrimitives admits (genesisState longChainPrimitives) :=
    .genesis longChainPrimitives_initGenesis
  have tip : (genesisState longChainPrimitives).bestTip.hash = leBytes 32 genesisDigest := by
    have named := (initGenesis_eq_ok.mp longChainPrimitives_initGenesis).1
    exact named.trans (by decide)
  have fresh : ∀ mined ∈ longChain,
      leBytes 32 mined.digest ∉ (genesisState longChainPrimitives).blockIndex := by
    intro mined member known
    obtain ⟨node, stored⟩ := Finmap.mem_iff.mp known
    have atRoot := (lookup_genesisState stored).1
    have digestMem : mined.digest ∈ longChain.map MinedBlock.digest := List.mem_map_of_mem member
    have same := leBytes_injective (longChain_fits mined.digest (List.mem_cons_of_mem _ digestMem))
      (longChain_fits genesisDigest (by simp)) (atRoot.trans tip)
    exact (List.nodup_cons.mp longChain_distinct).1 (same ▸ digestMem)
  have unspent : ∀ mined ∈ longChain, ∀ vout,
      (genesisState longChainPrimitives).utxoSet.utxos.lookup (leBytes 32 mined.txid, vout) =
        none := by
    intro mined member vout
    apply lookup_genesis_of_ne
    intro same
    have equal := leBytes_injective (longChain_txids_fit mined member) (by decide) same
    have other := (longChain_checked.1 mined member).2.2.2
    exact other (by simp [equal])
  obtain ⟨cs, reached, grown⟩ := genesis.mine longChainPrimitives_hashNonzero longChain_mined tip
    (by decide) fresh unspent admitted
  exact ⟨cs, reached, grown, grown.outputs 0 _ _ rfl rfl⟩

/-! ### Spending the matured output -/

theorem spendingBlock_hash : spendingBlock.hash longChainPrimitives = leBytes 32 spendingDigest :=
  longChainPrimitives_other (spendingBlock.header.serialize, spendingDigest)
    (by simp [otherDigests])

theorem spendingCoinbase_txid :
    (heightCoinbase 257 0).txid longChainPrimitives = leBytes 32 spendingCoinbaseTxid :=
  longChainPrimitives_other ((heightCoinbase 257 0).serialize false, spendingCoinbaseTxid)
    (by simp [otherDigests])

theorem signedSpend_txid :
    signedSpend.tx.txid longChainPrimitives = leBytes 32 signedSpend.txid :=
  longChainPrimitives_other (signedSpend.tx.serialize false, signedSpend.txid)
    (List.mem_append_right _ List.mem_cons_self)

theorem spendingBlock_txids :
    spendingBlock.transactions.map (Transaction.txid longChainPrimitives) =
      [leBytes 32 spendingCoinbaseTxid, leBytes 32 signedSpend.txid] := by
  rw [spendingBlock, List.map_cons, List.map_singleton, spendingCoinbase_txid, signedSpend_txid]

theorem spendingBlock_wellFormed : spendingBlock.WellFormed := by
  refine ⟨⟨leBytes_length 32 _, leBytes_length 32 _⟩, by decide, ?_⟩
  intro tx member
  rcases List.mem_cons.mp member with rfl | member
  · exact (heightCoinbase_sound 257 0).wellFormed
  · rw [List.mem_singleton.mp member]
    exact @readTransaction_wellFormed (signedSpend.tx.serialize true) 0
      (signedSpend.tx.serialize true).length _ (by decide +kernel)

theorem spendingBlock_structured : spendingBlock.Structured longChainPrimitives := by
  refine ⟨?_, ⟨heightCoinbase 257 0, [signedSpend.tx], rfl, by decide, by decide⟩,
    ?_, ?_, ?_⟩
  · have hashed := spendingBlock_hash
    rw [Block.hash] at hashed
    have value : leValue (leBytes 32 spendingDigest) = spendingDigest :=
      leValue_leBytes (by decide)
    have lane : spendingBlock.header.powType = 0 := by decide
    rw [BlockHeader.verifyPow, BlockHeader.powHash, lane, if_neg (by decide), hashed, value]
    decide
  · intro tx member
    rcases List.mem_cons.mp member with rfl | member
    · exact (heightCoinbase_sound 257 0).valid
    · rw [List.mem_singleton.mp member]
      decide +kernel
  · have root : spendingBlock.calculateMerkleRoot longChainPrimitives =
        longChainPrimitives.hash256
          (leBytes 32 spendingCoinbaseTxid ++ leBytes 32 signedSpend.txid) := by
      rw [Block.calculateMerkleRoot, spendingBlock_txids]
      rfl
    have hashed := longChainPrimitives_other (leBytes 32 spendingCoinbaseTxid ++
      leBytes 32 signedSpend.txid, spendingMerkleRoot) (by simp [otherDigests])
    rw [Block.verifyMerkleRoot, root, hashed]
    exact decide_eq_true rfl
  · decide +kernel

theorem spentOutpoints_spendingBlock :
    spentOutpoints spendingBlock.transactions = [fundingOutpoint] := by
  decide

/-- The block is accepted behind the chain, whatever else the node admits. -/
theorem spendingBlock_accepted {admits : Chainstate → Block → Prop} {cs : Chainstate}
    (reached : Reaches longChainPrimitives admits cs)
    (grown : Grown longChainPrimitives (genesisState longChainPrimitives) cs genesisDigest
      longChain) (funded : cs.utxoSet.utxos.lookup fundingOutpoint = some fundingEntry) :
    Admissible longChainPrimitives cs.blockIndex spendingBlock cs.bestTip genesisWork ∧
      ∃ message next,
        cs.processBlock longChainPrimitives spendingBlock = some (.ok (true, message), next) ∧
        next.bestTip = childNode longChainPrimitives spendingBlock cs.bestTip genesisWork := by
  obtain ⟨line, tip, -⟩ := reached.active longChainPrimitives_hashNonzero
  have parentStored : cs.blockIndex.lookup spendingBlock.header.prevBlock = some cs.bestTip := by
    rw [show spendingBlock.header.prevBlock = cs.bestTip.hash from grown.tip.symm]
    exact tip.node_stored
  have timely : (cs.bestTip.header.timestamp.toNat : Int) - 7200 <
      spendingBlock.header.timestamp.toNat := by
    have earlier : cs.bestTip.header.timestamp.toNat ≤ (genesisTimestamp + 120).toNat := grown.time
    have later : (genesisTimestamp + 120).toNat ≤ spendingBlock.header.timestamp.toNat := by decide
    omega
  have worked : getBlockWork spendingBlock.header.bits.toNat spendingBlock.header.powType =
      .ok genesisWork := by
    have lane : spendingBlock.header.powType = powTypeSha256d := by decide
    rw [lane]
    exact getBlockWork_genesis
  have fresh : spendingBlock.hash longChainPrimitives ∉ cs.blockIndex := by
    rw [spendingBlock_hash]
    intro known
    rcases grown.stored _ known with known | ⟨mined, member, same⟩
    · obtain ⟨node, stored⟩ := Finmap.mem_iff.mp known
      have atRoot := (lookup_genesisState stored).1
      have named := (initGenesis_eq_ok.mp longChainPrimitives_initGenesis).1
      exact (by decide : leBytes 32 spendingDigest ≠ genesisHash.reverse) (atRoot.trans named)
    · have fits := lt_of_le_of_lt (longChain_targets mined member)
        (by decide : easyTarget < 256 ^ 32)
      exact (longChain_checked.1 mined member).2.2.1 (leBytes_injective (by decide) fits same)
  have admissible : Admissible longChainPrimitives cs.blockIndex spendingBlock cs.bestTip
      genesisWork := ⟨spendingBlock_structured, parentStored, timely, worked⟩
  obtain ⟨undo, utxoSet, applied⟩ := @applyBlock_of_distinct cs.utxoSet spendingBlock.transactions
    (by rw [spentOutpoints_spendingBlock]; exact List.nodup_singleton _)
    (by
      rw [spentOutpoints_spendingBlock]
      intro outpoint member
      rw [List.mem_singleton.mp member]
      exact Finmap.mem_of_lookup_eq_some funded)
    longChainPrimitives (spendingBlock.hash longChainPrimitives) (cs.bestTip.height + 1)
  obtain ⟨message, next, processed, nextTip, -, -⟩ := reached.processBlock_grows
    longChainPrimitives_hashNonzero spendingBlock_wellFormed fresh admissible (by decide) applied
  exact ⟨admissible, message, next, processed, nextTip⟩

end QuantyCoin
