import QuantyCoin.HeaderRuleRefinement

/-!
# The two stateless block validators

The running node accepts blocks by `Block.validate_structure`; the documented
pipeline of `core/validation.py` has `CheckBlock`.  Both check the same things
of the transactions, in another order.  They differ in the proof of work:
`CheckPoW` refuses unknown lanes and compact targets that are negative or zero,
`verify_pow` compares the hash with whatever number the bits shift to.
-/

namespace QuantyCoin

open ByteDecoder

/-- Stage 5, `CheckBlock`.  Stage 2, `CheckTransaction`, is `validate_structure` of
a transaction, so its loop is the one of the running node. -/
def checkBlock (prim : Primitives) (block : Block) : Bool × String :=
  match checkPoW prim block.header with
  | (false, message) => (false, message)
  | (true, _) =>
      if block.serialize.length > maxBlockSize then
        (false, "Block size " ++ toString block.serialize.length ++
          " exceeds max limit " ++ toString maxBlockSize)
      else
        match block.transactions with
        | [] => (false, "Block has no transactions")
        | coinbase :: rest =>
            if !coinbase.isCoinbase then (false, "First transaction is not coinbase")
            else
              match rest.findIdx? Transaction.isCoinbase with
              | some index =>
                  (false, "Transaction " ++ toString (index + 1) ++
                    " is an illegal additional coinbase")
              | none =>
                  match Block.findInvalidTransaction 0 block.transactions with
                  | some (index, message) =>
                      (false, "Transaction " ++ toString index ++
                        " failed CheckTransaction: " ++ message)
                  | none =>
                      if !block.verifyMerkleRoot prim then
                        (false, "Merkle root does not match computed root from transactions")
                      else (true, "Valid Block")

/-! ## What both validators check -/

/-- The checks that do not concern the header alone. -/
structure Block.SoundContents (prim : Primitives) (block : Block) : Prop where
  coinbase_first : ∃ coinbase rest, block.transactions = coinbase :: rest ∧
    coinbase.isCoinbase = true ∧ ∀ tx ∈ rest, tx.isCoinbase = false
  transactions : ∀ tx ∈ block.transactions, tx.validateStructure.1 = true
  merkle : block.verifyMerkleRoot prim = true
  size : block.serialize.length ≤ maxBlockSize

theorem structured_iff {prim : Primitives} {block : Block} :
    block.Structured prim ↔ block.header.verifyPow prim = true ∧ block.SoundContents prim := by
  constructor
  · rintro ⟨pow, coinbase_first, transactions, merkle, size⟩
    exact ⟨pow, coinbase_first, transactions, merkle, size⟩
  · rintro ⟨pow, coinbase_first, transactions, merkle, size⟩
    exact ⟨pow, coinbase_first, transactions, merkle, size⟩

theorem checkBlock_eq_true {prim : Primitives} {block : Block} :
    (checkBlock prim block).1 = true ↔
      (checkPoW prim block.header).1 = true ∧ block.SoundContents prim := by
  constructor
  · intro valid
    unfold checkBlock at valid
    split at valid
    · cases valid
    rename_i pow
    split at valid
    · cases valid
    rename_i size
    split at valid
    · cases valid
    rename_i coinbase rest listed
    split at valid
    · cases valid
    rename_i first
    split at valid
    · cases valid
    rename_i noOther
    split at valid
    · cases valid
    rename_i noInvalid
    split at valid
    · cases valid
    rename_i merkle
    refine ⟨by rw [pow], ⟨coinbase, rest, listed, by simpa using first, ?_⟩,
      Block.findInvalidTransaction_eq_none.mp noInvalid, by simpa using merkle,
      Nat.not_lt.mp size⟩
    simpa [List.findIdx?_eq_none_iff] using noOther
  · rintro ⟨pow, ⟨coinbase, rest, listed, first, others⟩, transactions, merkle, size⟩
    have noOther : rest.findIdx? Transaction.isCoinbase = none := by
      simpa [List.findIdx?_eq_none_iff] using others
    have noInvalid : Block.findInvalidTransaction 0 (coinbase :: rest) = none := by
      rw [Block.findInvalidTransaction_eq_none, ← listed]
      exact transactions
    rcases checked : checkPoW prim block.header with ⟨result, message⟩
    rw [checked] at pow
    subst pow
    simp [checkBlock, checked, listed, first, noOther, noInvalid, merkle,
      Nat.not_lt.mpr size]

/-! ## Agreement -/

/-- The header names a known lane and bits that `bits_to_target` decodes to a
positive target. -/
def ProperTarget (header : BlockHeader) : Prop :=
  KnownLane header ∧ ∃ target, bitsToTarget header.bits.toNat = .ok target ∧ 0 < target

theorem checkPoW_iff_verifyPow {prim : Primitives} {header : BlockHeader} :
    (checkPoW prim header).1 = true ↔ ProperTarget header ∧ header.verifyPow prim = true := by
  rw [checkPoW_eq_true]
  constructor
  · rintro ⟨known, target, decoded, positive, below⟩
    refine ⟨⟨known, target, decoded, positive⟩, ?_⟩
    rw [BlockHeader.verifyPow, decide_eq_true_eq, getTarget_eq decoded]
    exact below
  · rintro ⟨⟨known, target, decoded, positive⟩, verified⟩
    rw [BlockHeader.verifyPow, decide_eq_true_eq, getTarget_eq decoded] at verified
    exact ⟨known, target, decoded, positive, verified⟩

/-- The validators agree on a block exactly if a header whose hash is below the
shifted number, in front of sound contents, has a known lane and a positive
target. -/
theorem validateStructure_iff_checkBlock (prim : Primitives) (block : Block) :
    ((block.validateStructure prim).1 = true ↔ (checkBlock prim block).1 = true) ↔
      (block.header.verifyPow prim = true → block.SoundContents prim →
        ProperTarget block.header) := by
  rw [Block.validateStructure_eq_true, structured_iff, checkBlock_eq_true,
    checkPoW_iff_verifyPow]
  constructor
  · intro agree verified contents
    exact (agree.mp ⟨verified, contents⟩).1.1
  · intro proper
    constructor
    · rintro ⟨verified, contents⟩
      exact ⟨⟨proper verified contents, verified⟩, contents⟩
    · rintro ⟨⟨-, verified⟩, contents⟩
      exact ⟨verified, contents⟩

/-- The first sample block on lane 2, which does not exist. -/
def unknownLaneBlock : Block :=
  { coinbaseBlock with
    header := { coinbaseBlock.header with version := 0x00020001, nonce := 0 } }

def unknownLanePrimitives : Primitives :=
  .ofDigests ((unknownLaneBlock.header.serialize,
    0x414c8ee2c23ec67e9c767de8acf5c328713f0cbc4eaf3831f6ecac1a191c391e) :: sampleTxids)

/-- The node accepts the block and `CheckBlock` refuses it. -/
theorem unknownLaneBlock_disagreement :
    (unknownLaneBlock.validateStructure unknownLanePrimitives).1 = true ∧
      checkBlock unknownLanePrimitives unknownLaneBlock =
        (false, "Invalid PoW lane type: 2") := by
  decide +kernel

end QuantyCoin
