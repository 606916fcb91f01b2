import QuantyCoin.StoredBlocks

/-!
# What a header commits to

The Merkle root of a list of transactions is computed level by level; a level
of odd length repeats its last element.  Lists of the same length and the same
root are equal, as long as no two strings that are hashed on the way collide.
Lists of different lengths can have the same root without any collision: the
repetition can be written out.  `validate_structure` does not look for repeated
transactions, so a header commits to its transactions only up to their number,
and not to their witnesses at all.
-/

namespace QuantyCoin

open ByteDecoder Decoder

/-! ## Hashed strings -/

/-- No two of the strings have the same hash. -/
def CollisionFree (hash : Bytes → Bytes) (strings : List Bytes) : Prop :=
  ∀ first ∈ strings, ∀ second ∈ strings, hash first = hash second → first = second

/-- The last element of an odd level is repeated. -/
def paddedLevel (level : List Bytes) : List Bytes :=
  if level.length % 2 = 1 then level ++ level.getLast?.toList else level

/-- The strings that are hashed for the next level. -/
def pairStrings : List Bytes → List Bytes
  | first :: second :: rest => (first ++ second) :: pairStrings rest
  | _ => []

/-- The strings that are hashed for all levels above one. -/
def levelStrings (hash256 : Bytes → Bytes) : Nat → List Bytes → List Bytes
  | 0, _ => []
  | fuel + 1, level =>
      if level.length ≤ 1 then []
      else pairStrings (paddedLevel level) ++
        levelStrings hash256 fuel (nextLevel hash256 level)

/-- The strings that are hashed to check a block: its header, its transactions
and the nodes of the Merkle tree. -/
def Block.hashedStrings (prim : Primitives) (block : Block) : List Bytes :=
  block.header.serialize :: (block.transactions.map (Transaction.serialize · false) ++
    levelStrings prim.hash256 block.transactions.length
      (block.transactions.map (Transaction.txid prim)))

instance collisionFreeDecidable (hash : Bytes → Bytes) (strings : List Bytes) :
    Decidable (CollisionFree hash strings) :=
  inferInstanceAs (Decidable (∀ first ∈ strings, ∀ second ∈ strings, _ → _))

theorem CollisionFree.subset {hash : Bytes → Bytes} {strings fewer : List Bytes}
    (free : CollisionFree hash strings) (subset : fewer ⊆ strings) : CollisionFree hash fewer :=
  fun first member second member' same => free first (subset member) second (subset member') same

theorem CollisionFree.map_inj {hash : Bytes → Bytes} {strings first second : List Bytes}
    (free : CollisionFree hash strings) (firstIn : ∀ string ∈ first, string ∈ strings)
    (secondIn : ∀ string ∈ second, string ∈ strings)
    (same : first.map hash = second.map hash) : first = second := by
  induction first generalizing second with
  | nil => simpa using same.symm
  | cons one first ih =>
      cases second with
      | nil => simp at same
      | cons other second =>
          rw [List.map_cons, List.map_cons, List.cons.injEq] at same
          have head := free one (firstIn one (by simp)) other (secondIn other (by simp)) same.1
          have tail := ih (fun string member => firstIn string (by simp [member]))
            (fun string member => secondIn string (by simp [member])) same.2
          rw [head, tail]

/-! ## One level -/

theorem hashPairs_eq_map (hash256 : Bytes → Bytes) (level : List Bytes) :
    hashPairs hash256 level = (pairStrings level).map hash256 := by
  induction level using pairStrings.induct with
  | case1 first second rest ih => rw [hashPairs, pairStrings, List.map_cons, ih]
  | case2 level short =>
      rw [hashPairs, pairStrings]
      · rfl
      · exact short
      · exact short

theorem nextLevel_eq_map (hash256 : Bytes → Bytes) (level : List Bytes) :
    nextLevel hash256 level = (pairStrings (paddedLevel level)).map hash256 :=
  hashPairs_eq_map hash256 _

theorem pairStrings_length (level : List Bytes) :
    (pairStrings level).length = level.length / 2 := by
  induction level using pairStrings.induct with
  | case1 first second rest ih =>
      rw [pairStrings, List.length_cons, ih, List.length_cons, List.length_cons]
      omega
  | case2 level short =>
      rcases level with _ | ⟨first, _ | ⟨second, rest⟩⟩
      · rfl
      · simp [pairStrings]
      · exact (short first second rest rfl).elim

theorem paddedLevel_length (level : List Bytes) :
    (paddedLevel level).length = level.length + level.length % 2 := by
  rw [paddedLevel]
  split_ifs with odd
  · have present : level ≠ [] := by
      rintro rfl
      cases odd
    rw [List.getLast?_eq_getLast_of_ne_nil present, List.length_append, odd]
    rfl
  · omega

theorem nextLevel_length (hash256 : Bytes → Bytes) (level : List Bytes) :
    (nextLevel hash256 level).length = (level.length + 1) / 2 := by
  rw [nextLevel_eq_map, List.length_map, pairStrings_length, paddedLevel_length]
  omega

theorem paddedLevel_take (level : List Bytes) :
    (paddedLevel level).take level.length = level := by
  rw [paddedLevel]
  split_ifs
  · exact List.take_left
  · exact List.take_length

theorem mem_paddedLevel {level : List Bytes} {hash : Bytes}
    (member : hash ∈ paddedLevel level) : hash ∈ level := by
  rw [paddedLevel] at member
  split_ifs at member
  · rcases List.mem_append.mp member with member | repeated
    · exact member
    · exact List.mem_of_getLast? (Option.mem_toList.mp repeated)
  · exact member

/-- The pairs of a level of even length determine it. -/
theorem pairStrings_inj {first second : List Bytes}
    (lengths : first.length = second.length) (even : first.length % 2 = 0)
    (firstWide : ∀ hash ∈ first, hash.length = 32)
    (secondWide : ∀ hash ∈ second, hash.length = 32)
    (same : pairStrings first = pairStrings second) : first = second := by
  induction first using pairStrings.induct generalizing second with
  | case1 one two rest ih =>
      rcases second with _ | ⟨one', _ | ⟨two', rest'⟩⟩
      · cases lengths
      · cases lengths
      rw [pairStrings, pairStrings, List.cons.injEq] at same
      have widths : one.length = one'.length := by
        rw [firstWide one (by simp), secondWide one' (by simp)]
      obtain ⟨rfl, rfl⟩ := List.append_inj same.1 widths
      simp only [List.length_cons] at lengths even
      have tail := ih (by omega) (by omega)
        (fun hash member => firstWide hash (by simp [member]))
        (fun hash member => secondWide hash (by simp [member])) same.2
      rw [tail]
  | case2 first short =>
      rcases first with _ | ⟨one, _ | ⟨two, rest⟩⟩
      · exact (List.eq_nil_of_length_eq_zero lengths.symm).symm
      · cases even
      · exact (short one two rest rfl).elim

/-! ## Roots -/

/-- Levels of one length with the same root are equal. -/
theorem reduceLevels_inj {hash256 : Bytes → Bytes}
    (width : ∀ data, (hash256 data).length = 32) {fuel : Nat} {first second : List Bytes}
    (lengths : first.length = second.length) (enough : first.length ≤ fuel + 1)
    (firstWide : ∀ hash ∈ first, hash.length = 32)
    (secondWide : ∀ hash ∈ second, hash.length = 32)
    (free : CollisionFree hash256
      (levelStrings hash256 fuel first ++ levelStrings hash256 fuel second))
    (same : reduceLevels hash256 fuel first = reduceLevels hash256 fuel second) :
    first = second := by
  -- Down to one element there is nothing to hash; above that, the next level is equal.
  have short : ∀ {first second : List Bytes}, first.length = second.length →
      first.length ≤ 1 → first.headD [] = second.headD [] → first = second := by
    intro first second lengths small heads
    rcases first with _ | ⟨one, _ | ⟨two, rest⟩⟩
    · exact (List.eq_nil_of_length_eq_zero lengths.symm).symm
    · rcases second with _ | ⟨one', _ | ⟨two', rest'⟩⟩
      · cases lengths
      · exact congrArg (fun hash => [hash]) heads
      · cases lengths
    · simp at small
  induction fuel generalizing first second with
  | zero => exact short lengths enough same
  | succ fuel ih =>
      by_cases small : first.length ≤ 1
      · rw [reduceLevels, if_pos small, reduceLevels, if_pos (lengths ▸ small)] at same
        exact short lengths small same
      · have otherSmall : ¬ second.length ≤ 1 := lengths ▸ small
        rw [reduceLevels, if_neg small, reduceLevels, if_neg otherSmall] at same
        rw [levelStrings, if_neg small, levelStrings, if_neg otherSmall] at free
        have wide : ∀ (level : List Bytes), ∀ hash ∈ nextLevel hash256 level,
            hash.length = 32 := by
          intro level hash member
          rw [nextLevel_eq_map] at member
          obtain ⟨string, -, rfl⟩ := List.mem_map.mp member
          exact width string
        have next := ih (by rw [nextLevel_length, nextLevel_length, lengths])
          (by rw [nextLevel_length]; omega) (wide first) (wide second)
          (fun one oneIn two twoIn =>
            free one (by simp at oneIn ⊢; tauto) two (by simp at twoIn ⊢; tauto)) same
        rw [nextLevel_eq_map, nextLevel_eq_map] at next
        have pairs := free.map_inj (fun string member => by simp [member])
          (fun string member => by simp [member]) next
        have padded := pairStrings_inj
          (by rw [paddedLevel_length, paddedLevel_length, lengths])
          (by rw [paddedLevel_length]; omega)
          (fun hash member => firstWide hash (mem_paddedLevel member))
          (fun hash member => secondWide hash (mem_paddedLevel member)) pairs
        rw [← paddedLevel_take first, padded, lengths, paddedLevel_take]

theorem computeMerkleRoot_inj {hash256 : Bytes → Bytes}
    (width : ∀ data, (hash256 data).length = 32) {first second : List Bytes}
    (lengths : first.length = second.length)
    (firstWide : ∀ hash ∈ first, hash.length = 32)
    (secondWide : ∀ hash ∈ second, hash.length = 32)
    (free : CollisionFree hash256 (levelStrings hash256 first.length first ++
      levelStrings hash256 second.length second))
    (same : computeMerkleRoot hash256 first = computeMerkleRoot hash256 second) :
    first = second := by
  by_cases empty : first = []
  · subst empty
    exact (List.eq_nil_of_length_eq_zero lengths.symm).symm
  · have otherPresent : second ≠ [] := by
      rintro rfl
      exact empty (List.eq_nil_of_length_eq_zero lengths)
    rw [computeMerkleRoot, if_neg empty, computeMerkleRoot, if_neg otherPresent,
      ← lengths] at same
    rw [← lengths] at free
    exact reduceLevels_inj width lengths (Nat.le_succ _) firstWide secondWide free same

/-- Nodes of the tree are hashes of two hashes. -/
theorem length_of_mem_pairStrings {level : List Bytes} (wide : ∀ hash ∈ level, hash.length = 32)
    {string : Bytes} (member : string ∈ pairStrings level) : string.length = 64 := by
  induction level using pairStrings.induct with
  | case1 one two rest ih =>
      rw [pairStrings] at member
      rcases List.mem_cons.mp member with rfl | member
      · rw [List.length_append, wide one (by simp), wide two (by simp)]
      · exact ih (fun hash inside => wide hash (by simp [inside])) member
  | case2 level short =>
      rw [pairStrings] at member
      · cases member
      · exact short

theorem length_of_mem_levelStrings {hash256 : Bytes → Bytes}
    (width : ∀ data, (hash256 data).length = 32) {fuel : Nat} {level : List Bytes}
    (wide : ∀ hash ∈ level, hash.length = 32) {string : Bytes}
    (member : string ∈ levelStrings hash256 fuel level) : string.length = 64 := by
  induction fuel generalizing level with
  | zero => cases member
  | succ fuel ih =>
      rw [levelStrings] at member
      split_ifs at member
      · cases member
      rcases List.mem_append.mp member with here | above
      · exact length_of_mem_pairStrings (fun hash inside => wide hash (mem_paddedLevel inside)) here
      · refine ih (fun hash inside => ?_) above
        rw [nextLevel_eq_map] at inside
        obtain ⟨pair, -, rfl⟩ := List.mem_map.mp inside
        exact width pair

/-- Lists of one length with the same root are equal, if no two different strings of 64
bytes among those hashed for the two roots have the same hash. -/
theorem computeMerkleRoot_binding {hash256 : Bytes → Bytes}
    (width : ∀ data, (hash256 data).length = 32) {n : Nat} (_ : 1 ≤ n)
    {first second : List Bytes} (firstLength : first.length = n)
    (secondLength : second.length = n) (firstWide : ∀ hash ∈ first, hash.length = 32)
    (secondWide : ∀ hash ∈ second, hash.length = 32)
    (injective : ∀ string ∈ levelStrings hash256 n first ++ levelStrings hash256 n second,
      ∀ string' ∈ levelStrings hash256 n first ++ levelStrings hash256 n second,
        string.length = 64 → string'.length = 64 → hash256 string = hash256 string' →
          string = string')
    (same : computeMerkleRoot hash256 first = computeMerkleRoot hash256 second) :
    first = second := by
  subst firstLength
  have nodes : ∀ string ∈ levelStrings hash256 first.length first ++
      levelStrings hash256 first.length second, string.length = 64 := by
    intro string member
    rcases List.mem_append.mp member with inFirst | inSecond
    · exact length_of_mem_levelStrings width firstWide inFirst
    · exact length_of_mem_levelStrings width secondWide inSecond
  refine computeMerkleRoot_inj width secondLength.symm firstWide secondWide ?_ same
  rw [secondLength]
  intro string member string' member'
  exact injective string member string' member' (nodes string member) (nodes string' member')

/-- The sum of the bytes, in 32 bytes. -/
def byteSum (data : Bytes) : Bytes := leBytes 32 (data.map UInt8.toNat).sum

/-- Three leaves, of which the third is paired with itself. -/
def sampleLeaves : List Bytes := [1, 2, 4].map (leBytes 32)

theorem sampleLeaves_bound :
    (levelStrings byteSum 3 sampleLeaves).length = 3 ∧
      sampleLeaves = [leBytes 32 1, leBytes 32 2, leBytes 32 4] := by
  have width : ∀ data, (byteSum data).length = 32 := fun _ => leBytes_length 32 _
  exact ⟨by decide, computeMerkleRoot_binding width (by decide : 1 ≤ 3) rfl rfl (by decide)
    (by decide) (by decide) rfl⟩

/-! ## Transactions without their witnesses -/

def Transaction.withoutWitness (tx : Transaction) : Transaction :=
  { tx with vin := tx.vin.map TxIn.withoutWitness }

/-- The witness stacks of the inputs. -/
def Transaction.witnesses (tx : Transaction) : List (List Bytes) := tx.vin.map TxIn.witness

theorem Transaction.serialize_withoutWitness (tx : Transaction) :
    tx.withoutWitness.serialize true = tx.serialize false := by
  have bare : tx.withoutWitness.hasWitness = false := by
    simp [hasWitness, withoutWitness, TxIn.withoutWitness]
  have inputs : (tx.vin.map TxIn.withoutWitness).flatMap TxIn.serialize =
      tx.vin.flatMap TxIn.serialize := by
    rw [List.flatMap_map]
    rfl
  rw [serialize, serialize, bare]
  simp [withoutWitness, inputs]

theorem Transaction.WellFormed.withoutWitness {tx : Transaction}
    (wellFormed : tx.WellFormed) : tx.withoutWitness.WellFormed := by
  refine ⟨?_, wellFormed.vout_lt, ?_, wellFormed.outputs⟩
  · rw [Transaction.withoutWitness, List.length_map]
    exact wellFormed.vin_lt
  · intro inp member
    obtain ⟨original, originalMember, rfl⟩ := List.mem_map.mp member
    have bounds := wellFormed.inputs original originalMember
    exact ⟨bounds.prevTxid_length, bounds.scriptSig_lt, by simp [TxIn.withoutWitness],
      by simp [TxIn.withoutWitness]⟩

/-- The serialization that a transaction is named by determines it up to its
witnesses. -/
theorem Transaction.withoutWitness_inj {tx other : Transaction}
    (wellFormed : tx.WellFormed) (otherWellFormed : other.WellFormed)
    (inputs : tx.vin ≠ []) (otherInputs : other.vin ≠ [])
    (same : tx.serialize false = other.serialize false) :
    tx.withoutWitness = other.withoutWitness := by
  have read := deserialize_serialize_append wellFormed.withoutWitness
    (by simpa [Transaction.withoutWitness] using inputs) []
  have otherRead := deserialize_serialize_append otherWellFormed.withoutWitness
    (by simpa [Transaction.withoutWitness] using otherInputs) []
  rw [serialize_withoutWitness] at read otherRead
  rw [same, otherRead] at read
  simp only [Except.ok.injEq, Prod.mk.injEq] at read
  exact read.1.symm

/-- Lists are equal if two functions that determine their elements agree. -/
theorem eq_of_map_eq_map {α β γ : Type} {part : α → β} {rest : α → γ} {first second : List α}
    (item : ∀ one ∈ first, ∀ other ∈ second, part one = part other →
      rest one = rest other → one = other)
    (parts : first.map part = second.map part) (rests : first.map rest = second.map rest) :
    first = second := by
  induction first generalizing second with
  | nil => simpa using parts.symm
  | cons one first ih =>
      cases second with
      | nil => simp at parts
      | cons other second =>
          simp only [List.map_cons, List.cons.injEq] at parts rests
          have head := item one (by simp) other (by simp) parts.1 rests.1
          have tail := ih (fun one member other otherMember => item one (by simp [member])
            other (by simp [otherMember])) parts.2 rests.2
          rw [head, tail]

theorem Transaction.eq_of_witnesses {tx other : Transaction}
    (bare : tx.withoutWitness = other.withoutWitness)
    (witnesses : tx.witnesses = other.witnesses) : tx = other := by
  obtain ⟨version, vin, vout, locktime⟩ := tx
  obtain ⟨version', vin', vout', locktime'⟩ := other
  simp only [withoutWitness, mk.injEq] at bare
  obtain ⟨rfl, inputs, rfl, rfl⟩ := bare
  have same : vin = vin' := by
    refine eq_of_map_eq_map ?_ inputs witnesses
    intro inp _ inp' _ bareInput witness
    cases inp
    cases inp'
    simp_all [TxIn.withoutWitness]
  rw [same]

/-! ## The commitment -/

/-- As many transactions and the same witnesses. -/
def SameShape (block other : Block) : Prop :=
  block.transactions.length = other.transactions.length ∧
    block.transactions.map Transaction.witnesses =
      other.transactions.map Transaction.witnesses

section Commitment

variable {prim : Primitives} {block other : Block}

/-- Behind one header, equally many transactions have the same ids. -/
theorem txids_eq_of_length (sameRoot : block.header.merkleRoot = other.header.merkleRoot)
    (merkle : block.verifyMerkleRoot prim = true)
    (otherMerkle : other.verifyMerkleRoot prim = true)
    (free : CollisionFree prim.hash256 (block.hashedStrings prim ++ other.hashedStrings prim))
    (lengths : block.transactions.length = other.transactions.length) :
    block.transactions.map (Transaction.txid prim) =
      other.transactions.map (Transaction.txid prim) := by
  have wide : ∀ transactions : List Transaction,
      ∀ hash ∈ transactions.map (Transaction.txid prim), hash.length = 32 := by
    intro transactions hash member
    obtain ⟨tx, -, rfl⟩ := List.mem_map.mp member
    exact prim.hash256_length _
  rw [Block.verifyMerkleRoot, decide_eq_true_eq, Block.calculateMerkleRoot] at merkle otherMerkle
  refine computeMerkleRoot_inj prim.hash256_length (by simpa using lengths) (wide _) (wide _)
    ?_ (by rw [merkle, otherMerkle, sameRoot])
  rw [List.length_map, List.length_map]
  intro first firstIn second secondIn
  apply free
  · simp only [List.mem_append, Block.hashedStrings, List.mem_cons] at firstIn ⊢
    tauto
  · simp only [List.mem_append, Block.hashedStrings, List.mem_cons] at secondIn ⊢
    tauto

/-- Transactions with the same ids and the same witnesses are the same. -/
theorem transactions_eq_of_txids (wellFormed : block.WellFormed)
    (otherWellFormed : other.WellFormed)
    (inputs : ∀ tx ∈ block.transactions, tx.vin ≠ [])
    (otherInputs : ∀ tx ∈ other.transactions, tx.vin ≠ [])
    (free : CollisionFree prim.hash256 (block.hashedStrings prim ++ other.hashedStrings prim))
    (txids : block.transactions.map (Transaction.txid prim) =
      other.transactions.map (Transaction.txid prim))
    (witnesses : block.transactions.map Transaction.witnesses =
      other.transactions.map Transaction.witnesses) :
    block.transactions = other.transactions := by
  have serialized : block.transactions.map (Transaction.serialize · false) =
      other.transactions.map (Transaction.serialize · false) := by
    apply free.map_inj
    · intro string member
      simp [Block.hashedStrings, member]
    · intro string member
      simp [Block.hashedStrings, member]
    · rw [List.map_map, List.map_map]
      exact txids
  refine eq_of_map_eq_map ?_ serialized witnesses
  intro tx member tx' member' same sameWitnesses
  exact Transaction.eq_of_witnesses (Transaction.withoutWitness_inj
    (wellFormed.transactions tx member) (otherWellFormed.transactions tx' member')
    (inputs tx member) (otherInputs tx' member') same) sameWitnesses

theorem block_eq_iff_sameShape (sameHeader : block.header = other.header)
    (wellFormed : block.WellFormed) (otherWellFormed : other.WellFormed)
    (inputs : ∀ tx ∈ block.transactions, tx.vin ≠ [])
    (otherInputs : ∀ tx ∈ other.transactions, tx.vin ≠ [])
    (merkle : block.verifyMerkleRoot prim = true)
    (otherMerkle : other.verifyMerkleRoot prim = true)
    (free : CollisionFree prim.hash256
      (block.hashedStrings prim ++ other.hashedStrings prim)) :
    block = other ↔ SameShape block other := by
  constructor
  · rintro rfl
    exact ⟨rfl, rfl⟩
  · rintro ⟨lengths, witnesses⟩
    have txids := txids_eq_of_length (by rw [sameHeader]) merkle otherMerkle free lengths
    have transactions := transactions_eq_of_txids wellFormed otherWellFormed inputs
      otherInputs free txids witnesses
    cases block
    cases other
    rw [Block.mk.injEq]
    exact ⟨sameHeader, transactions⟩

/-- The hash of a block determines its header. -/
theorem header_eq_of_hash (wellFormed : block.WellFormed) (otherWellFormed : other.WellFormed)
    (free : CollisionFree prim.hash256 (block.hashedStrings prim ++ other.hashedStrings prim))
    (same : block.hash prim = other.hash prim) : block.header = other.header := by
  have serialized : block.header.serialize = other.header.serialize :=
    free _ (by simp [Block.hashedStrings]) _ (by simp [Block.hashedStrings]) same
  have read := readBlockHeader_reads wellFormed.header [] []
  have otherRead := readBlockHeader_reads otherWellFormed.header [] []
  rw [serialized, otherRead] at read
  simp only [Except.ok.injEq, Prod.mk.injEq] at read
  exact read.1.symm

end Commitment

/-! ## The index -/

/-- A block that, if it has the header of another one, has its shape as well,
and none of whose hashed strings collides with one of the other. -/
structure Harmless (prim : Primitives) (block offered : Block) : Prop where
  wellFormed : offered.WellFormed
  free : CollisionFree prim.hash256 (block.hashedStrings prim ++ offered.hashedStrings prim)
  sameShape : block.header = offered.header → SameShape block offered

theorem Harmless.eq {prim : Primitives} {block offered : Block}
    (harmless : Harmless prim block offered) (wellFormed : block.WellFormed)
    (structured : block.Structured prim)
    (inputs : ∀ tx ∈ offered.transactions, tx.vin ≠ [])
    (merkle : offered.verifyMerkleRoot prim = true)
    (sameHash : block.hash prim = offered.hash prim) : block = offered := by
  have sameHeader := header_eq_of_hash wellFormed harmless.wellFormed harmless.free sameHash
  exact (block_eq_iff_sameShape sameHeader wellFormed harmless.wellFormed structured.inputs
    inputs structured.merkle merkle harmless.free).mpr (harmless.sameShape sameHeader)

/-- If all blocks of a run are harmless for a block, what is stored under its
hash is that block. -/
theorem Reaches.stored_eq {prim : Primitives} {block : Block} (wellFormed : block.WellFormed)
    (structured : block.Structured prim) (root : Harmless prim block (genesisBlock prim))
    {cs : Chainstate} (reached : Reaches prim (fun _ offered => Harmless prim block offered) cs)
    {node : BlockIndexNode} (stored : cs.blockIndex.lookup (block.hash prim) = some node) :
    Block.deserialize node.rawBlock = .ok (block, node.rawBlock.length) := by
  have tree : IndexTree prim (Harmless prim block) cs.blockIndex := by
    apply reached.indexTree
    intro _ offered harmless
    exact harmless
  have keyed := tree.hash_eq _ _ stored
  rcases tree.origin _ node stored with
    rfl | ⟨offered, parent, work, harmless, admissible, rfl⟩
  · have readsBack := readsBack_rootNode prim
    have same := root.eq wellFormed structured (by
      intro tx member
      rw [List.mem_singleton.mp member]
      decide) (by simp [Block.verifyMerkleRoot, Block.calculateMerkleRoot, genesisBlock,
        genesisHeader]) keyed.symm
    rw [same]
    exact readsBack.read
  · have same := harmless.eq wellFormed structured admissible.structured.inputs
      admissible.structured.merkle keyed.symm
    rw [same]
    exact (readsBack_childNode harmless.wellFormed admissible.structured).read

/-- Two structurally valid blocks with one header have the same transaction ids
exactly if they have equally many transactions, and are the same block exactly
if their witnesses agree as well.  A run in which no block with this header has
another shape stores no altered copy under its hash. -/
theorem header_commits_iff (prim : Primitives) (block other : Block)
    (sameHeader : block.header = other.header)
    (valid : (block.validateStructure prim).1 = true)
    (otherValid : (other.validateStructure prim).1 = true)
    (free : CollisionFree prim.hash256
      (block.hashedStrings prim ++ other.hashedStrings prim)) :
    (block.transactions.map (Transaction.txid prim) =
        other.transactions.map (Transaction.txid prim) ↔
      block.transactions.length = other.transactions.length) ∧
    (block.WellFormed → other.WellFormed → (block = other ↔ SameShape block other)) ∧
    (block.WellFormed → Harmless prim block (genesisBlock prim) →
      ∀ cs, Reaches prim (fun _ offered => Harmless prim block offered) cs →
        ∀ node, cs.blockIndex.lookup (block.hash prim) = some node →
          Block.deserialize node.rawBlock = .ok (block, node.rawBlock.length)) := by
  have structured := Block.validateStructure_eq_true.mp valid
  have otherStructured := Block.validateStructure_eq_true.mp otherValid
  refine ⟨⟨?_, ?_⟩, ?_, ?_⟩
  · intro same
    simpa using congrArg List.length same
  · exact txids_eq_of_length (by rw [sameHeader]) structured.merkle otherStructured.merkle free
  · intro wellFormed otherWellFormed
    exact block_eq_iff_sameShape sameHeader wellFormed otherWellFormed structured.inputs
      otherStructured.inputs structured.merkle otherStructured.merkle free
  · intro wellFormed root cs reached node stored
    exact reached.stored_eq wellFormed structured root stored

/-- A block whose hash is stored is refused whatever is stored there. -/
theorem Chainstate.processBlock_of_stored {prim : Primitives} {cs : Chainstate} {block : Block}
    (stored : block.hash prim ∈ cs.blockIndex) :
    cs.processBlock prim block = some (.ok (false, "Duplicate block"), cs) := by
  rw [processBlock, if_pos stored]

/-! ## A repeated transaction -/

/-- Passes the coins of `samplePassOn` on. -/
def samplePassTwice : Transaction :=
  ⟨1, [⟨leBytes 32 0x31e7bc83abf8924529cbfb93dfab5121d1a33c04025554fb16b9b6db86d8a673, 0, [],
      0xFFFFFFFF, []⟩],
    [sampleOut], 0⟩

/-- The coins of the coinbase change hands twice. -/
def genuineBlock : Block :=
  sampleBlock 0x672ee366319a2448b7d062d9390f9995a4c6e225bf1ebabb249cbad785d44091 0
    [sampleCoinbase, samplePassOn, samplePassTwice]

/-- The same with the last transaction twice. -/
def alteredBlock : Block :=
  { genuineBlock with
    transactions := [sampleCoinbase, samplePassOn, samplePassTwice, samplePassTwice] }

def repeatPrimitives : Primitives :=
  .ofDigests ([(samplePassTwice.serialize false,
      0xf4c55dced06394163ca230bae8b8e0f3df9d2d643bed8dfef308f6c16502c43e),
    (leBytes 32 0xf4c55dced06394163ca230bae8b8e0f3df9d2d643bed8dfef308f6c16502c43e ++
      leBytes 32 0xf4c55dced06394163ca230bae8b8e0f3df9d2d643bed8dfef308f6c16502c43e,
      0xc686062521933f2b989444984bed55c07bb31d73636fea6af14605a6f9293f38),
    (leBytes 32 0x26a1a993ff0fefe8251579c07ec039f032a2e5e1b1727618c134cd20bbf3d895 ++
      leBytes 32 0xc686062521933f2b989444984bed55c07bb31d73636fea6af14605a6f9293f38,
      0x672ee366319a2448b7d062d9390f9995a4c6e225bf1ebabb249cbad785d44091),
    (genuineBlock.header.serialize,
      0x61f57cb66925b2e232836b8c8026b2556f5e7405e079fab1c0b8cb93ba5d896e)] ++
    chainDigests ++ sampleTxids)

theorem repeatPrimitives_initGenesis :
    Chainstate.initGenesis repeatPrimitives = .ok (genesisState repeatPrimitives) :=
  initGenesis_eq_ok.mpr ⟨by decide +kernel, rfl⟩

theorem repeatBlocks_valid :
    (genuineBlock.validateStructure repeatPrimitives).1 = true ∧
      (alteredBlock.validateStructure repeatPrimitives).1 = true ∧
      CollisionFree repeatPrimitives.hash256
        (genuineBlock.hashedStrings repeatPrimitives ++
          alteredBlock.hashedStrings repeatPrimitives) := by
  decide +kernel

/-- Behind the first sample block. -/
def repeatTip : Chainstate :=
  (genesisState repeatPrimitives).afterBlock repeatPrimitives coinbaseBlock

/-- With the altered copy as a side chain. -/
def shadowedState : Chainstate := repeatTip.afterBlock repeatPrimitives alteredBlock

theorem repeatBlocks_answers :
    Answers repeatPrimitives (genesisState repeatPrimitives) coinbaseBlock true ∧
      Answers repeatPrimitives repeatTip alteredBlock true ∧
      Answers repeatPrimitives repeatTip genuineBlock true := by
  decide +kernel

theorem shadowedState_reached :
    Reaches repeatPrimitives (ReturnsNormally repeatPrimitives) shadowedState := by
  obtain ⟨_, firstReturned⟩ := repeatBlocks_answers.1.processBlock_eq
  obtain ⟨_, secondReturned⟩ := repeatBlocks_answers.2.1.processBlock_eq
  exact .block (.block (.genesis repeatPrimitives_initGenesis) ⟨_, _, firstReturned⟩
    firstReturned) ⟨_, _, secondReturned⟩ secondReturned

/-- The altered copy is structurally valid, is stored as a side chain and makes
the node refuse the genuine block, which it would accept otherwise. -/
theorem alteredBlock_shadows_genuineBlock :
    genuineBlock.header = alteredBlock.header ∧
      (genuineBlock.validateStructure repeatPrimitives).1 = true ∧
      (alteredBlock.validateStructure repeatPrimitives).1 = true ∧
      CollisionFree repeatPrimitives.hash256
        (genuineBlock.hashedStrings repeatPrimitives ++
          alteredBlock.hashedStrings repeatPrimitives) ∧
      genuineBlock.transactions.map (Transaction.txid repeatPrimitives) ≠
        alteredBlock.transactions.map (Transaction.txid repeatPrimitives) ∧
      Answers repeatPrimitives repeatTip genuineBlock true ∧
      Reaches repeatPrimitives (ReturnsNormally repeatPrimitives) shadowedState ∧
      shadowedState.processBlock repeatPrimitives genuineBlock =
        some (.ok (false, "Duplicate block"), shadowedState) := by
  have refused := @Chainstate.processBlock_of_stored repeatPrimitives shadowedState
    genuineBlock (by decide +kernel)
  obtain ⟨genuine, altered, collisionFree⟩ := repeatBlocks_valid
  exact ⟨rfl, genuine, altered, collisionFree, by decide +kernel, repeatBlocks_answers.2.2,
    shadowedState_reached, refused⟩

/-- The two blocks have different numbers of transactions, and different ids. -/
theorem genuineBlock_commitment :
    genuineBlock.transactions.map (Transaction.txid repeatPrimitives) =
        alteredBlock.transactions.map (Transaction.txid repeatPrimitives) ↔
      genuineBlock.transactions.length = alteredBlock.transactions.length :=
  (header_commits_iff repeatPrimitives genuineBlock alteredBlock rfl repeatBlocks_valid.1
    repeatBlocks_valid.2.1 repeatBlocks_valid.2.2).1

end QuantyCoin
