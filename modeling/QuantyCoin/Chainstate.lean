import QuantyCoin.AncestorWalk
import QuantyCoin.Block
import QuantyCoin.BranchSwitch
import QuantyCoin.Mempool

/-!
# The chainstate

`node/chainstate.py`: the block index, fork choice by cumulative work and
reorganizations of the active chain.  A call that changes the chainstate
returns `none` if one of its loops does not terminate, and otherwise its
result or exception with the chainstate it leaves behind.
-/

namespace QuantyCoin

open AncestorWalk BranchSwitch

structure BlockIndexNode where
  header : BlockHeader
  height : Nat
  chainwork : Nat
  rawBlock : Bytes
  prevHash : Bytes
  hash : Bytes
  deriving DecidableEq

/-- `BlockIndexNode(header, height, chainwork, raw_block, prev_hash)`. -/
def BlockIndexNode.new (prim : Primitives) (header : BlockHeader)
    (height chainwork : Nat) (rawBlock prevHash : Bytes) : BlockIndexNode :=
  ⟨header, height, chainwork, rawBlock, prevHash, header.hash prim⟩

/-- The node `process_block` makes for a block behind its parent. -/
def childNode (prim : Primitives) (block : Block) (parentNode : BlockIndexNode)
    (work : Nat) : BlockIndexNode :=
  .new prim block.header (parentNode.height + 1) (parentNode.chainwork + work)
    block.serialize block.header.prevBlock

@[simp]
theorem childNode_rawBlock (prim : Primitives) (block : Block) (parentNode : BlockIndexNode)
    (work : Nat) : (childNode prim block parentNode work).rawBlock = block.serialize :=
  rfl

abbrev BlockIndex := Finmap fun _ : Bytes => BlockIndexNode

/-- `self.block_index[block_hash] = node`. -/
def storeNode (index : BlockIndex) (node : BlockIndexNode) : BlockIndex :=
  index.insert node.hash node

structure Chainstate where
  utxoSet : UTXOSet
  mempool : Mempool
  blockIndex : BlockIndex
  activeChain : List Bytes
  bestTip : BlockIndexNode
  deriving DecidableEq

/-! ## Genesis -/

/-- `GENESIS_HASH` as the bytes its hexadecimal digits denote. -/
def genesisHash : Bytes :=
  [0x00, 0x00, 0x04, 0xeb, 0x1e, 0x11, 0x7d, 0xf3, 0x16, 0x8d, 0x6d, 0x27, 0x11,
    0x89, 0x82, 0xe0, 0xa2, 0x3c, 0x23, 0x61, 0x20, 0x18, 0x3e, 0x83, 0x90, 0xa6,
    0xbb, 0xb8, 0x2e, 0xe6, 0xfd, 0xe3]

/-- `GENESIS_TIMESTAMP_STR.encode('utf-8')`. -/
def genesisTimestampStr : Bytes :=
  [0x32, 0x30, 0x32, 0x36, 0x2d, 0x30, 0x39, 0x2d, 0x30, 0x35, 0x3a, 0x20, 0x51,
    0x75, 0x61, 0x6e, 0x74, 0x79, 0x43, 0x6f, 0x69, 0x6e, 0x20, 0x34, 0x2e, 0x30,
    0x20, 0x28, 0x51, 0x54, 0x59, 0x34, 0x29, 0x20, 0x2d, 0x20, 0x50, 0x6f, 0x73,
    0x74, 0x2d, 0x51, 0x75, 0x61, 0x6e, 0x74, 0x75, 0x6d, 0x20, 0x44, 0x75, 0x61,
    0x6c, 0x2d, 0x50, 0x6f, 0x57, 0x20, 0x4c, 0x61, 0x79, 0x65, 0x72, 0x2d, 0x31,
    0x20, 0x41, 0x75, 0x74, 0x6f, 0x6e, 0x6f, 0x6d, 0x6f, 0x75, 0x73, 0x20, 0x42,
    0x6c, 0x6f, 0x63, 0x6b, 0x63, 0x68, 0x61, 0x69, 0x6e, 0x20, 0x50, 0x72, 0x6f,
    0x74, 0x6f, 0x63, 0x6f, 0x6c]

/-- `address_to_scriptpubkey(GENESIS_COINBASE_PAYOUT_ADDRESS)`: version 0 and
the 20-byte program of the Bech32 address
`qty1qu9ztelcfra7uz8agw9qnfej6h8x9tqtxhuaqpf`. -/
def genesisScriptPubkey : Bytes :=
  [0x00, 0x14, 0xe1, 0x44, 0xbc, 0xff, 0x09, 0x1f, 0x7d, 0xc1, 0x1f, 0xa8, 0x71,
    0x41, 0x34, 0xe6, 0x5a, 0xb9, 0xcc, 0x55, 0x81, 0x66]

def genesisCoinbase : Transaction where
  version := 1
  vin := [{
    prevTxid := zeroHash
    prevVout := 0xFFFFFFFF
    scriptSig := [0x04, 0xff, 0xff, 0x00, 0x1d, 0x01, 0x04] ++
      UInt8.ofNat genesisTimestampStr.length :: genesisTimestampStr
    sequence := 0xFFFFFFFF
    witness := [] }]
  vout := [⟨50 * 100000000, genesisScriptPubkey, by decide⟩]
  locktime := 0

def genesisHeader (prim : Primitives) : BlockHeader where
  version := 1
  prevBlock := zeroHash
  merkleRoot := computeMerkleRoot prim.hash256 [genesisCoinbase.txid prim]
  timestamp := genesisTimestamp
  bits := genesisBits
  nonce := genesisNonce

def genesisBlock (prim : Primitives) : Block := ⟨genesisHeader prim, [genesisCoinbase]⟩

/-- The node of the genesis block. -/
def genesisNode (prim : Primitives) (chainwork : Nat) : BlockIndexNode :=
  .new prim (genesisHeader prim) 0 chainwork (genesisBlock prim).serialize zeroHash

/-- `_init_genesis`. -/
def Chainstate.initGenesis (prim : Primitives) : Except PyException Chainstate :=
  let header := genesisHeader prim
  if (header.hash prim).reverse ≠ genesisHash then
    .error (.runtimeError
      ("[CONSENSUS CORRUPTION] Genesis block hash mismatch! Expected " ++
        hex genesisHash ++ ", computed " ++ reversedHex (header.hash prim) ++ "."))
  else if !header.verifyPow prim then
    .error (.runtimeError
      "[CONSENSUS CORRUPTION] Genesis block fails Proof-of-Work verification!")
  else if !(genesisBlock prim).verifyMerkleRoot prim then
    .error (.runtimeError "[CONSENSUS CORRUPTION] Genesis block Merkle root mismatch!")
  else
    match getBlockWork genesisBits.toNat powTypeSha256d with
    | .error error => .error error
    | .ok chainwork =>
        let node := genesisNode prim chainwork
        match UTXOSet.empty.applyBlock prim node.hash 0 [genesisCoinbase] with
        | (.error error, _) => .error error
        | (.ok _, utxoSet) =>
            .ok
              { utxoSet := utxoSet
                mempool := Mempool.empty
                blockIndex := storeNode ∅ node
                activeChain := [node.hash]
                bestTip := node }

/-! ## Reorganization -/

/-- Read the block of a node back and apply it to the unspent outputs. -/
def connectNode (prim : Primitives) (utxoSet : UTXOSet) (node : BlockIndexNode) :
    Except PyException Unit × UTXOSet :=
  match Block.deserialize node.rawBlock with
  | .error error => (.error error, utxoSet)
  | .ok (block, _) =>
      match utxoSet.applyBlock prim node.hash node.height block.transactions with
      | (.error error, utxoSet) => (.error error, utxoSet)
      | (.ok _, utxoSet) => (.ok (), utxoSet)

def disconnectNode (utxoSet : UTXOSet) (node : BlockIndexNode) :
    Except PyException Unit × UTXOSet :=
  utxoSet.revertBlock node.hash

/-- Remove the transactions of a connected node from the mempool. -/
def cleanMined (prim : Primitives) (pool : Mempool) (node : BlockIndexNode) :
    Except PyException Unit × Mempool :=
  match Block.deserialize node.rawBlock with
  | .error error => (.error error, pool)
  | .ok (block, _) => (.ok (), pool.removeMinedTransactions prim block.transactions)

/-- `{n.hash: idx for idx, n in enumerate(current_branch)}`. -/
def hashIndices (branch : List BlockIndexNode) : Finmap fun _ : Bytes => Nat :=
  branch.zipIdx.foldl (fun indices node => indices.insert node.1.hash node.2) ∅

namespace Chainstate

/-- Fuel for the ancestor walks: by `AncestorWalk.walk_stable` a walk that does
not end with it never ends. -/
def walkFuel (index : BlockIndex) : Nat := index.keys.card + 1

/-- The first loop of `_reorg_to_node`: the nodes from a node back to the
first whose parent is not in the index. -/
def branchTo (index : BlockIndex) (node : BlockIndexNode) :
    Option (List BlockIndexNode) :=
  (walk index BlockIndexNode.prevHash (fun _ => false) (walkFuel index) node).map
    Prod.snd

/-- The second loop: the first node that is on the current branch, if any, and
the nodes passed before it. -/
def branchToFork (index : BlockIndex) (currentHashes : Finmap fun _ : Bytes => Nat)
    (node : BlockIndexNode) : Option (Option BlockIndexNode × List BlockIndexNode) :=
  walk index BlockIndexNode.prevHash (fun curr => decide (curr.hash ∈ currentHashes))
    (walkFuel index) node

/-- `_reorg_to_node`. -/
def reorgToNode (prim : Primitives) (cs : Chainstate) (targetNode : BlockIndexNode) :
    Option (Except PyException (Bool × String) × Chainstate) :=
  match branchTo cs.blockIndex cs.bestTip with
  | none => none
  | some currentBranch =>
      let currentHashes := hashIndices currentBranch
      match branchToFork cs.blockIndex currentHashes targetNode with
      | none => none
      | some (none, _) =>
          some (.ok (false, "No common ancestor with active chain"), cs)
      | some (some ancestor, passed) =>
          let targetBranch := passed.reverse
          let ancestorIdx := (currentHashes.lookup ancestor.hash).getD 0
          let disconnectNodes := currentBranch.take ancestorIdx
          match switchBranch (connectNode prim) disconnectNode cs.utxoSet
              disconnectNodes targetBranch with
          | (.error error, utxoSet) =>
              some (.error error, { cs with utxoSet := utxoSet })
          | (.ok (some error), utxoSet) =>
              some (.ok (false, error.message), { cs with utxoSet := utxoSet })
          | (.ok none, utxoSet) =>
              let cs :=
                { cs with
                  utxoSet := utxoSet
                  activeChain := cs.activeChain.take (ancestor.height + 1) ++
                    targetBranch.map BlockIndexNode.hash
                  bestTip := targetNode }
              match runAll (cleanMined prim) cs.mempool targetBranch with
              | (.error error, mempool) =>
                  some (.error error, { cs with mempool := mempool })
              | (.ok (), mempool) =>
                  some (.ok (true, "Reorg Success"), { cs with mempool := mempool })

/-- Step 4 of `process_block`, behind the insertion of the new node. -/
def chooseFork (prim : Primitives) (cs : Chainstate) (node : BlockIndexNode) :
    Option (Except PyException (Bool × String) × Chainstate) :=
  let indexed := { cs with blockIndex := storeNode cs.blockIndex node }
  if node.chainwork > cs.bestTip.chainwork then
    match reorgToNode prim indexed node with
    | none => none
    | some (.error error, cs) => some (.error error, cs)
    | some (.ok (false, reorgErr), cs) =>
        some (.ok (false, "Chain reorganization failed: " ++ reorgErr),
          { cs with blockIndex := cs.blockIndex.erase node.hash })
    | some (.ok (true, _), cs) => some (.ok (true, "Accepted (New Best Tip)"), cs)
  else some (.ok (true, "Accepted (Side Chain / Fork)"), indexed)

/-- `process_block`. -/
def processBlock (prim : Primitives) (cs : Chainstate) (block : Block) :
    Option (Except PyException (Bool × String) × Chainstate) :=
  let blockHash := block.hash prim
  if blockHash ∈ cs.blockIndex then some (.ok (false, "Duplicate block"), cs)
  else
    match block.validateStructure prim with
    | (false, err) => some (.ok (false, "Invalid block structure: " ++ err), cs)
    | (true, _) =>
        let prevHash := block.header.prevBlock
        match cs.blockIndex.lookup prevHash with
        | none => some (.ok (false, "Orphan block (parent not found)"), cs)
        | some parentNode =>
            if (block.header.timestamp.toNat : Int) ≤
                (parentNode.header.timestamp.toNat : Int) - 7200 then
              some (.ok (false, "Block timestamp too far in past"), cs)
            else
              match getBlockWork block.header.bits.toNat block.header.powType with
              | .error error => some (.error error, cs)
              | .ok work => chooseFork prim cs (childNode prim block parentNode work)

/-- `get_block_by_hash`. -/
def getBlockByHash (cs : Chainstate) (blockHash : Bytes) :
    Except PyException (Option Block) :=
  match cs.blockIndex.lookup blockHash with
  | none => .ok none
  | some node => (Block.deserialize node.rawBlock).map fun read => some read.1

/-- `chainstate.mempool.add_transaction(tx, chainstate.utxo_set)`. -/
def addTransaction (prim : Primitives) (cs : Chainstate) (tx : Transaction)
    (now : Nat) : (Bool × String) × Chainstate :=
  match cs.mempool.addTransaction prim tx cs.utxoSet now with
  | (result, mempool) => (result, { cs with mempool := mempool })

end Chainstate

end QuantyCoin
