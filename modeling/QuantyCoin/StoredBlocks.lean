import QuantyCoin.ChainReplay

/-!
# Stored blocks

The node keeps the serialization of every block it has validated and decodes it
again for reorganizations and for its peers.  Serialization followed by any
other bytes is read back exactly, so the stored bytes always yield the block
that was validated.
-/

namespace QuantyCoin

open ByteDecoder Decoder

theorem Transaction.deserialize_serialize_append {tx : Transaction}
    (wellFormed : tx.WellFormed) (inputs : tx.vin ≠ []) (rest : Bytes) :
    Transaction.deserialize (tx.serialize true ++ rest) =
      .ok (tx, (tx.serialize true).length) := by
  have read := readTransaction_reads wellFormed inputs [] rest
  simpa [Transaction.deserialize] using read

theorem Block.deserialize_serialize_append {block : Block} (wellFormed : block.WellFormed)
    (inputs : ∀ tx ∈ block.transactions, tx.vin ≠ []) (rest : Bytes) :
    Block.deserialize (block.serialize ++ rest) = .ok (block, block.serialize.length) := by
  have read := readBlock_reads wellFormed inputs [] rest
  simpa [Block.deserialize] using read

/-- The transactions of a structurally valid block have inputs. -/
theorem Block.Structured.inputs {prim : Primitives} {block : Block}
    (structured : block.Structured prim) : ∀ tx ∈ block.transactions, tx.vin ≠ [] :=
  fun tx member => tx.vin_ne_nil_of_valid (structured.transactions tx member)

/-- The bytes kept for a block in the index give that block back. -/
structure ReadsBack (prim : Primitives) (hash : Bytes) (node : BlockIndexNode)
    (block : Block) : Prop where
  hash_eq : block.hash prim = hash
  validated : block = genesisBlock prim ∨ (block.validateStructure prim).1 = true
  read : Block.deserialize node.rawBlock = .ok (block, node.rawBlock.length)

theorem readsBack_rootNode (prim : Primitives) :
    ReadsBack prim (rootNode prim).hash (rootNode prim) (genesisBlock prim) := by
  refine ⟨rfl, Or.inl rfl, deserialize_serialize (genesisBlock_wellFormed prim) ?_⟩
  intro tx member
  rw [List.mem_singleton.mp member]
  decide

theorem readsBack_childNode {prim : Primitives} {block : Block} {parent : BlockIndexNode}
    {work : Nat} (wellFormed : block.WellFormed) (structured : block.Structured prim) :
    ReadsBack prim (block.hash prim) (childNode prim block parent work) block :=
  ⟨rfl, Or.inr (Block.validateStructure_eq_true.mpr structured),
    deserialize_serialize wellFormed structured.inputs⟩

/-- Every node stored along a run of well-formed blocks reads back. -/
theorem Reaches.readsBack {prim : Primitives} {cs : Chainstate}
    (reached : Reaches prim (fun _ block => block.WellFormed) cs) {hash : Bytes}
    {node : BlockIndexNode} (stored : cs.blockIndex.lookup hash = some node) :
    ∃ block, ReadsBack prim hash node block := by
  have tree : IndexTree prim Block.WellFormed cs.blockIndex := by
    apply reached.indexTree
    intro _ block wellFormed
    exact wellFormed
  obtain rfl := tree.hash_eq hash node stored
  rcases tree.origin _ node stored with
    rfl | ⟨block, parent, work, wellFormed, admissible, rfl⟩
  · exact ⟨_, readsBack_rootNode prim⟩
  · exact ⟨block, readsBack_childNode wellFormed admissible.structured⟩

/-- Round trips of the block format, for values as Python can hold them, and
what they mean for the blocks in the index. -/
theorem codec_roundTrip :
    (∀ (tx : Transaction) (rest : Bytes), tx.WellFormed → tx.vin ≠ [] →
      Transaction.deserialize (tx.serialize true ++ rest) =
        .ok (tx, (tx.serialize true).length)) ∧
    (∀ (block : Block) (rest : Bytes), block.WellFormed →
      (∀ tx ∈ block.transactions, tx.vin ≠ []) →
      Block.deserialize (block.serialize ++ rest) = .ok (block, block.serialize.length)) ∧
    (∀ prim cs, Reaches prim (fun _ block => block.WellFormed) cs →
      ∀ hash node, cs.blockIndex.lookup hash = some node →
        ∃ block, ReadsBack prim hash node block) ∧
    ∀ (prim : Primitives) (cs next : Chainstate) (block : Block) (message : String),
      block.WellFormed → cs.processBlock prim block = some (.ok (true, message), next) →
      ∃ node, next.blockIndex.lookup (block.hash prim) = some node ∧
        ReadsBack prim (block.hash prim) node block := by
  refine ⟨?_, ?_, ?_, ?_⟩
  · intro tx rest wellFormed inputs
    exact Transaction.deserialize_serialize_append wellFormed inputs rest
  · intro block rest wellFormed inputs
    exact Block.deserialize_serialize_append wellFormed inputs rest
  · intro prim cs reached hash node stored
    exact reached.readsBack stored
  · intro prim cs next block message wellFormed accepted
    obtain ⟨parent, work, admissible, stored⟩ := Chainstate.stored_of_accepted accepted
    refine ⟨childNode prim block parent work, ?_,
      readsBack_childNode wellFormed admissible.structured⟩
    rw [stored]
    exact Finmap.lookup_insert _

end QuantyCoin
