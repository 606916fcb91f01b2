import QuantyCoin.Mempool

/-!
# The invariant of the memory pool

The pool keeps its entries by transaction id and, separately, the outpoints
they spend.  This module states what one call can do to the two dictionaries
and shows by induction over the calls that they always say the same: an
outpoint is marked as spent by a transaction exactly if that transaction is in
the pool and has it as an input.
-/

namespace QuantyCoin

open ByteDecoder

/-- The outpoints a transaction spends, in the order of its inputs. -/
def Transaction.outpoints (tx : Transaction) : List Outpoint := tx.vin.map TxIn.outpoint

/-! ## Marking and unmarking outpoints -/

abbrev SpentMap := Finmap fun _ : Outpoint => Bytes

/-- A loop over inputs that sets each of their outpoints to one result. -/
theorem lookup_foldl_outpoints {update : SpentMap → Outpoint → SpentMap}
    {result : Option Bytes} (updated : ∀ spent key, (update spent key).lookup key = result)
    (kept : ∀ spent key other, other ≠ key → (update spent key).lookup other =
      spent.lookup other) (inputs : List TxIn) (spent : SpentMap) (outpoint : Outpoint) :
    (inputs.foldl (fun spent inp => update spent inp.outpoint) spent).lookup outpoint =
      if outpoint ∈ inputs.map TxIn.outpoint then result else spent.lookup outpoint := by
  induction inputs generalizing spent with
  | nil => simp
  | cons inp inputs ih =>
      rw [List.foldl_cons, ih, List.map_cons]
      by_cases later : outpoint ∈ inputs.map TxIn.outpoint
      · rw [if_pos later, if_pos (List.mem_cons_of_mem _ later)]
      · rw [if_neg later]
        by_cases here : outpoint = inp.outpoint
        · subst here
          rw [if_pos List.mem_cons_self, updated]
        · rw [kept _ _ _ here, if_neg (by simp [here, later])]

theorem lookup_marked (inputs : List TxIn) (spent : SpentMap) (txid : Bytes)
    (outpoint : Outpoint) :
    (inputs.foldl (fun spent inp => spent.insert inp.outpoint txid) spent).lookup outpoint =
      if outpoint ∈ inputs.map TxIn.outpoint then some txid else spent.lookup outpoint :=
  lookup_foldl_outpoints (fun spent _ => Finmap.lookup_insert spent)
    (fun spent _ _ other => Finmap.lookup_insert_of_ne spent other) inputs spent outpoint

theorem lookup_unmarked (inputs : List TxIn) (spent : SpentMap) (outpoint : Outpoint) :
    (inputs.foldl (fun spent inp => spent.erase inp.outpoint) spent).lookup outpoint =
      if outpoint ∈ inputs.map TxIn.outpoint then none else spent.lookup outpoint :=
  lookup_foldl_outpoints (fun spent key => Finmap.lookup_erase key spent)
    (fun _ _ _ other => Finmap.lookup_erase_ne other) inputs spent outpoint

/-! ## What a call can do -/

namespace Mempool

/-- What the input loop establishes of every input it passes. -/
structure CheckedInput (prim : Primitives) (pool : Mempool) (utxoSet : UTXOSet)
    (tx : Transaction) (index : Nat) (inp : TxIn) (utxo : UTXOEntry) : Prop where
  unspent : pool.spentOutpoints.lookup inp.outpoint = none
  found : utxoSet.utxos.lookup inp.outpoint = some utxo
  signed : tx.verifyInputSignature prim index utxo.scriptPubkey utxo.value = true

/-- The value an outpoint has in the set, zero if it is missing. -/
def valueAt (utxoSet : UTXOSet) (outpoint : Outpoint) : Nat :=
  ((utxoSet.utxos.lookup outpoint).map UTXOEntry.value).getD 0

theorem checkInputs_eq_ok {prim : Primitives} {pool : Mempool} {utxoSet : UTXOSet}
    {tx : Transaction} {index : Nat} {inputs : List TxIn} {totalIn total : Nat}
    (checked : checkInputs prim pool utxoSet tx index inputs totalIn = .ok total) :
    (∀ inp ∈ inputs, ∃ index utxo, CheckedInput prim pool utxoSet tx index inp utxo) ∧
      total = totalIn + (inputs.map fun inp => valueAt utxoSet inp.outpoint).sum := by
  induction inputs generalizing index totalIn with
  | nil =>
      cases checked
      simp
  | cons inp inputs ih =>
      rw [checkInputs] at checked
      split at checked
      · cases checked
      rename_i unspent
      split at checked
      · cases checked
      rename_i utxo found
      split_ifs at checked with signed
      obtain ⟨others, rfl⟩ := ih checked
      constructor
      · intro other member
        rcases List.mem_cons.mp member with rfl | member
        · exact ⟨index, utxo, unspent, found, by simpa using signed⟩
        · exact others other member
      · have value : valueAt utxoSet inp.outpoint = utxo.value := by
          rw [valueAt, found]
          rfl
        rw [List.map_cons, List.sum_cons, value]
        omega

/-- The checks of `add_transaction`. -/
structure Admitted (prim : Primitives) (pool : Mempool) (utxoSet : UTXOSet)
    (tx : Transaction) (totalIn : Nat) : Prop where
  fresh : tx.txid prim ∉ pool.entries
  not_coinbase : tx.isCoinbase = false
  inputs : tx.vin ≠ []
  outputs : tx.vout ≠ []
  checked : checkInputs prim pool utxoSet tx 0 tx.vin 0 = .ok totalIn
  balanced : tx.totalOut ≤ totalIn

/-- The pool with an admitted transaction. -/
def register (prim : Primitives) (pool : Mempool) (tx : Transaction) (totalIn now : Nat) :
    Mempool where
  entries := pool.entries.insert (tx.txid prim) ⟨tx, totalIn - tx.totalOut, now⟩
  spentOutpoints := tx.vin.foldl
    (fun spent inp => spent.insert inp.outpoint (tx.txid prim)) pool.spentOutpoints

/-- A transaction is refused and the pool unchanged, or it passes all checks and
is registered. -/
theorem addTransaction_cases (prim : Primitives) (pool : Mempool) (tx : Transaction)
    (utxoSet : UTXOSet) (now : Nat) :
    (∃ message, pool.addTransaction prim tx utxoSet now = ((false, message), pool)) ∨
    ∃ totalIn, Admitted prim pool utxoSet tx totalIn ∧
      pool.addTransaction prim tx utxoSet now =
        ((true, "Accepted"), pool.register prim tx totalIn now) := by
  rw [addTransaction]
  by_cases fresh : tx.txid prim ∈ pool.entries
  · exact Or.inl ⟨_, if_pos fresh⟩
  rw [if_neg fresh]
  by_cases coinbase : tx.isCoinbase = true
  · exact Or.inl ⟨_, if_pos coinbase⟩
  rw [if_neg coinbase]
  by_cases empty : tx.vin = [] ∨ tx.vout = []
  · exact Or.inl ⟨_, if_pos empty⟩
  rw [if_neg empty]
  obtain ⟨inputs, outputs⟩ := not_or.mp empty
  cases checked : checkInputs prim pool utxoSet tx 0 tx.vin 0 with
  | error message => exact Or.inl ⟨message, rfl⟩
  | ok totalIn =>
      by_cases short : tx.totalOut > totalIn
      · exact Or.inl ⟨_, if_pos short⟩
      · exact Or.inr ⟨totalIn, ⟨fresh, by simpa using coinbase, inputs, outputs, checked,
          Nat.not_lt.mp short⟩, if_neg short⟩

/-- Removal drops the entry and the outpoints it spends. -/
theorem removeTransaction_of_entry {pool : Mempool} {txid : Bytes} {entry : MempoolEntry}
    (found : pool.entries.lookup txid = some entry) :
    pool.removeTransaction txid =
      { entries := pool.entries.erase txid
        spentOutpoints := entry.tx.vin.foldl
          (fun spent inp => spent.erase inp.outpoint) pool.spentOutpoints } := by
  rw [removeTransaction, found]

theorem removeTransaction_of_missing {pool : Mempool} {txid : Bytes}
    (missing : pool.entries.lookup txid = none) : pool.removeTransaction txid = pool := by
  rw [removeTransaction, missing]

/-! ## The invariant -/

/-- The two dictionaries agree, and entries are kept under their own id. -/
structure Consistent (prim : Primitives) (pool : Mempool) : Prop where
  keyed : ∀ txid entry, pool.entries.lookup txid = some entry → entry.tx.txid prim = txid
  spent : ∀ outpoint txid, pool.spentOutpoints.lookup outpoint = some txid ↔
    ∃ entry, pool.entries.lookup txid = some entry ∧ outpoint ∈ entry.tx.outpoints

theorem consistent_empty (prim : Primitives) : Consistent prim empty := by
  refine ⟨?_, ?_⟩
  · intro txid entry found
    simp [empty] at found
  · intro outpoint txid
    simp [empty]

variable {prim : Primitives} {pool : Mempool}

theorem Admitted.unspent {utxoSet : UTXOSet} {tx : Transaction} {totalIn : Nat}
    (admitted : Admitted prim pool utxoSet tx totalIn) {outpoint : Outpoint}
    (member : outpoint ∈ tx.outpoints) : pool.spentOutpoints.lookup outpoint = none := by
  obtain ⟨inp, inpMember, rfl⟩ := List.mem_map.mp member
  obtain ⟨index, utxo, checked⟩ := (checkInputs_eq_ok admitted.checked).1 inp inpMember
  exact checked.unspent

namespace Consistent

/-- No two entries spend the same outpoint. -/
theorem unique (consistent : Consistent prim pool) {txid txid' : Bytes}
    {entry entry' : MempoolEntry} {outpoint : Outpoint}
    (found : pool.entries.lookup txid = some entry)
    (found' : pool.entries.lookup txid' = some entry')
    (spends : outpoint ∈ entry.tx.outpoints) (spends' : outpoint ∈ entry'.tx.outpoints) :
    txid = txid' := by
  have marked := (consistent.spent outpoint txid).mpr ⟨entry, found, spends⟩
  have marked' := (consistent.spent outpoint txid').mpr ⟨entry', found', spends'⟩
  exact Option.some.inj (marked.symm.trans marked')

theorem register (consistent : Consistent prim pool) {utxoSet : UTXOSet} {tx : Transaction}
    {totalIn : Nat} (admitted : Admitted prim pool utxoSet tx totalIn) (now : Nat) :
    Consistent prim (pool.register prim tx totalIn now) := by
  have missing := Finmap.lookup_eq_none.mpr admitted.fresh
  refine ⟨?_, ?_⟩
  · intro txid entry found
    by_cases same : txid = tx.txid prim
    · subst same
      rw [Mempool.register, Finmap.lookup_insert] at found
      cases found
      rfl
    · rw [Mempool.register, Finmap.lookup_insert_of_ne _ same] at found
      exact consistent.keyed txid entry found
  · intro outpoint txid
    rw [Mempool.register, lookup_marked]
    -- Whether the outpoint and the id are those of the new transaction.
    by_cases spends : outpoint ∈ tx.vin.map TxIn.outpoint
    · rw [if_pos spends]
      by_cases same : txid = tx.txid prim
      · subst same
        simp only [Finmap.lookup_insert, true_iff]
        exact ⟨_, rfl, spends⟩
      · rw [Finmap.lookup_insert_of_ne _ same, ← consistent.spent outpoint txid,
          admitted.unspent spends]
        simp [Ne.symm same]
    · rw [if_neg spends, consistent.spent outpoint txid]
      by_cases same : txid = tx.txid prim
      · subst same
        rw [Finmap.lookup_insert, missing]
        constructor
        · rintro ⟨entry, impossible, -⟩
          cases impossible
        · rintro ⟨entry, isNew, member⟩
          cases isNew
          exact (spends member).elim
      · rw [Finmap.lookup_insert_of_ne _ same]

theorem addTransaction (consistent : Consistent prim pool) (tx : Transaction)
    (utxoSet : UTXOSet) (now : Nat) :
    Consistent prim (pool.addTransaction prim tx utxoSet now).2 := by
  rcases addTransaction_cases prim pool tx utxoSet now with
    ⟨message, refused⟩ | ⟨totalIn, admitted, accepted⟩
  · rw [refused]
    exact consistent
  · rw [accepted]
    exact consistent.register admitted now

theorem removeTransaction (consistent : Consistent prim pool) (removed : Bytes) :
    Consistent prim (pool.removeTransaction removed) := by
  cases found : pool.entries.lookup removed with
  | none =>
      rw [removeTransaction_of_missing found]
      exact consistent
  | some entry =>
      rw [removeTransaction_of_entry found]
      refine ⟨?_, ?_⟩
      · intro txid other kept
        by_cases same : txid = removed
        · subst same
          rw [Finmap.lookup_erase] at kept
          cases kept
        · rw [Finmap.lookup_erase_ne same] at kept
          exact consistent.keyed txid other kept
      · intro outpoint txid
        rw [lookup_unmarked]
        by_cases spends : outpoint ∈ entry.tx.vin.map TxIn.outpoint
        · rw [if_pos spends]
          constructor
          · intro impossible
            cases impossible
          · rintro ⟨other, kept, otherSpends⟩
            by_cases same : txid = removed
            · subst same
              rw [Finmap.lookup_erase] at kept
              cases kept
            · rw [Finmap.lookup_erase_ne same] at kept
              exact (same (consistent.unique kept found otherSpends spends)).elim
        · rw [if_neg spends, consistent.spent outpoint txid]
          by_cases same : txid = removed
          · subst same
            rw [Finmap.lookup_erase, found]
            constructor
            · rintro ⟨other, isEntry, member⟩
              cases isEntry
              exact (spends member).elim
            · rintro ⟨other, impossible, -⟩
              cases impossible
          · rw [Finmap.lookup_erase_ne same]

theorem removeMinedTransactions (consistent : Consistent prim pool)
    (blockTxs : List Transaction) :
    Consistent prim (pool.removeMinedTransactions prim blockTxs) := by
  induction blockTxs generalizing pool with
  | nil => exact consistent
  | cons tx blockTxs ih => exact ih (consistent.removeTransaction _)

end Consistent

end Mempool

/-! ## Runs -/

/-- The pools reached from the empty one by the calls that change it, against
any sets of unspent outputs. -/
inductive PoolReaches (prim : Primitives) : Mempool → Prop
  | empty : PoolReaches prim Mempool.empty
  | add {pool : Mempool} (reached : PoolReaches prim pool) (tx : Transaction)
      (utxoSet : UTXOSet) (now : Nat) :
      PoolReaches prim (pool.addTransaction prim tx utxoSet now).2
  | remove {pool : Mempool} (reached : PoolReaches prim pool) (txid : Bytes) :
      PoolReaches prim (pool.removeTransaction txid)
  | removeMined {pool : Mempool} (reached : PoolReaches prim pool)
      (blockTxs : List Transaction) :
      PoolReaches prim (pool.removeMinedTransactions prim blockTxs)

theorem PoolReaches.consistent {prim : Primitives} {pool : Mempool}
    (reached : PoolReaches prim pool) : pool.Consistent prim := by
  induction reached with
  | empty => exact Mempool.consistent_empty prim
  | add _ tx utxoSet now ih => exact ih.addTransaction tx utxoSet now
  | remove _ txid ih => exact ih.removeTransaction txid
  | removeMined _ blockTxs ih => exact ih.removeMinedTransactions blockTxs

/-- After any calls the two dictionaries of the pool agree; so no outpoint is
spent twice in it, and a removal frees exactly the outpoints of the removed
transaction. -/
theorem poolReaches_invariant (prim : Primitives) (pool : Mempool)
    (reached : PoolReaches prim pool) :
    (∀ outpoint txid, pool.spentOutpoints.lookup outpoint = some txid ↔
      ∃ entry, pool.entries.lookup txid = some entry ∧ outpoint ∈ entry.tx.outpoints) ∧
    (∀ txid entry, pool.entries.lookup txid = some entry → entry.tx.txid prim = txid) ∧
    (∀ txid txid' entry entry' outpoint, pool.entries.lookup txid = some entry →
      pool.entries.lookup txid' = some entry' → outpoint ∈ entry.tx.outpoints →
      outpoint ∈ entry'.tx.outpoints → txid = txid') ∧
    ∀ txid entry outpoint, pool.entries.lookup txid = some entry →
      (pool.removeTransaction txid).spentOutpoints.lookup outpoint =
        if outpoint ∈ entry.tx.outpoints then none
        else pool.spentOutpoints.lookup outpoint := by
  have consistent := reached.consistent
  refine ⟨consistent.spent, consistent.keyed, ?_, ?_⟩
  · intro txid txid' entry entry' outpoint found found' spends spends'
    exact consistent.unique found found' spends spends'
  · intro txid entry outpoint found
    rw [Mempool.removeTransaction_of_entry found]
    exact lookup_unmarked entry.tx.vin pool.spentOutpoints outpoint

/-! ## Signed sample transactions -/

/-- The compressed public key of the secret key 1. -/
def sampleKey : Bytes :=
  0x02 :: (leBytes 32
    0x79be667ef9dcbbac55a06295ce870b07029bfcdb2dce28d959f2815b16f81798).reverse

def sampleKeyHash : Bytes :=
  (leBytes 20 0x751e76e8199196d454941c45d1b3a323f1433bd6).reverse

/-- Pays 50 coins to the key. -/
def fundingCoinbase : Transaction :=
  ⟨1, [⟨zeroHash, 0xFFFFFFFF, [0x01, 0x01], 0xFFFFFFFF, []⟩],
    [⟨5000000000, [0x00, 0x14] ++ sampleKeyHash, by decide⟩], 0⟩

def fundingDigest : Nat := 0x4c6c8825cae91cad9e5a92a0f3a5cd38180226bc6f03ae55baa5b47cd5373da8

def fundingOutpoint : Outpoint := (leBytes 32 fundingDigest, 0)

/-- A transaction that spends the funding output, its signature and what is
hashed to check it. -/
structure SignedSample where
  inputs : Nat
  value : Fin (maxMoneySatoshis + 1)
  r : Nat
  s : Nat
  txid : Nat
  hashPrevouts : Nat
  hashSequence : Nat
  hashOutputs : Nat
  sighash : Nat

namespace SignedSample

/-- The signature in DER format, both numbers of 32 bytes. -/
def der (sample : SignedSample) : Bytes :=
  [0x30, 0x45, 0x02, 0x21, 0x00] ++ (leBytes 32 sample.r).reverse ++ [0x02, 0x20] ++
    (leBytes 32 sample.s).reverse

/-- The funding output as each of the inputs, and one output to `OP_1`. -/
def tx (sample : SignedSample) : Transaction :=
  ⟨1, List.replicate sample.inputs
      ⟨fundingOutpoint.1, 0, [], 0xFFFFFFFF, [sample.der ++ [0x01], sampleKey]⟩,
    [⟨sample.value, [0x51], Nat.le_of_lt_succ sample.value.isLt⟩], 0⟩

def digests (sample : SignedSample) : List (Bytes × Nat) :=
  [(sample.tx.serialize false, sample.txid),
    (sample.tx.vin.flatMap Transaction.packOutpoint, sample.hashPrevouts),
    (sample.tx.vin.flatMap fun inp => packU32 inp.sequence, sample.hashSequence),
    (sample.tx.vout.flatMap TxOut.serialize, sample.hashOutputs),
    (packI32 1 ++ leBytes 32 sample.hashPrevouts ++ leBytes 32 sample.hashSequence ++
      fundingOutpoint.1 ++ packU32 0 ++ [0x19, 0x76, 0xa9, 0x14] ++ sampleKeyHash ++
      [0x88, 0xac] ++ packU64 (50 * coin) ++ packU32 0xFFFFFFFF ++
      leBytes 32 sample.hashOutputs ++ packU32 0 ++ packU32 1, sample.sighash)]

end SignedSample

/-- Passes the funding output on. -/
def signedSpend : SignedSample where
  inputs := 1
  value := 5000000000
  r := 0xf01d6b9018ab421dd410404cb869072065522bf85734008f105cf385a023a80f
  s := 0x74f86dc77b6846cbf5dcc057cd3f3f1b7bda2060a5dcc074cbb8fdb0b25c1580
  txid := 0x00a74ed8ef8aaefe50a5bf64138eb62d6204d1b9f9243341e7edee2b8f770ed1
  hashPrevouts := 0xea4d01d247b30707ed2d738bcfa9c0988d99ec9b55a26bb775d78f3f05649faa
  hashSequence := 0x445066705e799022b7095f7ceca255149f43acfc47e7f59e551f7bce2930b13b
  hashOutputs := 0x3a92a1386a9448c6861ab9be874ed1066c0feea7954f0c3ffcfbecc24914f45d
  sighash := 0xaac24dff84fa83a8863b47f2464b8df2344981d6bb09274e65bfd2eefd6cc8af

/-- Also spends the funding output, and leaves one coin as fee. -/
def rivalSpend : SignedSample where
  inputs := 1
  value := 4900000000
  r := 0x9d2d304374a5d5571d7d8c39db99c8eed149767dcaf70be1a356a08376caa34f
  s := 0x73feff123cfff631bf9c61fa6dfca21c883f3f4745399609f00b191a672c95ef
  txid := 0xc22782675b6aa0fafdf64939a11ce12becce708a3e4486e8d4828790fae83a47
  hashPrevouts := 0xea4d01d247b30707ed2d738bcfa9c0988d99ec9b55a26bb775d78f3f05649faa
  hashSequence := 0x445066705e799022b7095f7ceca255149f43acfc47e7f59e551f7bce2930b13b
  hashOutputs := 0xe96b74ea74d2c56cf75d99c828cdcae5636ded70fa1cba7b38337ad89b69fd9e
  sighash := 0x4c6ece9419f188a278f601434e19cbcf87590168ca979410dc7c3930bebcdcc1

/-- Names the funding output twice and pays out twice its value. -/
def doubledSpend : SignedSample where
  inputs := 2
  value := 10000000000
  r := 0xe1fe434d345bf33083abb6280f4f44ac5fb22934977813c20c015f2b43d3fab8
  s := 0x47833e117a0e64079a194f2674940282822c4f21bbe02219ed84890b08112305
  txid := 0x1123ec55de0c3e5e35bb3f3fe0c086d43a2debf0f309bdd6a493353dcfbdd7da
  hashPrevouts := 0x2b25a39f49725ca8dcb0ab10551875ebeb85f20da5be9a35de10008851d9222f
  hashSequence := 0xad32b63dd843bcc1a098f66529a626a1ec6569bbae683785caceb9a7d0da2a75
  hashOutputs := 0xdfcf5d7dd9a344963087acaa2eab640b7d79a51fd61f4a80dae0fe49459f5ad8
  sighash := 0x754c5c8e4232df656dde1871d9c5b980211c751b200e83c5bc71f655a759aa10

def signedSamples : List SignedSample := [signedSpend, rivalSpend, doubledSpend]

/-- Primitives that know the key and the three signatures besides some
digests. -/
def Primitives.ofSignedSamples (digests : List (Bytes × Nat)) : Primitives :=
  { Primitives.ofDigests (signedSamples.flatMap SignedSample.digests ++ digests) with
    hash160 := fun _ => sampleKeyHash
    ecdsaVerify := fun msgHash pubkey r s =>
      pubkey = sampleKey && signedSamples.any fun sample =>
        msgHash = leBytes 32 sample.sighash && r = sample.r && s = sample.s }

def spendPrimitives : Primitives :=
  .ofSignedSamples [(fundingCoinbase.serialize false, fundingDigest)]

/-- The set that holds the funding output. -/
def fundedSet : UTXOSet :=
  (UTXOSet.empty.applyBlock spendPrimitives (leBytes 32 7) 1 [fundingCoinbase]).2

/-- The signed transaction is accepted and its input marked. -/
theorem signedSpend_invariant :
    let pool := (Mempool.empty.addTransaction spendPrimitives signedSpend.tx fundedSet 0).2
    pool.spentOutpoints.lookup fundingOutpoint = some (leBytes 32 signedSpend.txid) ∧
      ∃ entry, pool.entries.lookup (leBytes 32 signedSpend.txid) = some entry ∧
        fundingOutpoint ∈ entry.tx.outpoints := by
  have marked : (Mempool.empty.addTransaction spendPrimitives signedSpend.tx fundedSet
      0).2.spentOutpoints.lookup fundingOutpoint = some (leBytes 32 signedSpend.txid) := by
    decide
  exact ⟨marked, ((poolReaches_invariant spendPrimitives _
    (.add .empty signedSpend.tx fundedSet 0)).1 _ _).mp marked⟩

end QuantyCoin
