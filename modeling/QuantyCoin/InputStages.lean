import QuantyCoin.MempoolInvariant

/-!
# The stages that look at the inputs of a transaction

`CheckInputs` and `CheckScripts` of `core/validation.py` look the inputs of a
transaction up in the set of unspent outputs.  They read the attributes
`block_height` and `txout` of what they find, which `UTXOEntry` of
`core/utxo.py` does not have: its own are `height`, `value` and
`script_pubkey`.  So both raise as soon as they find an entry.
-/

namespace QuantyCoin

open ByteDecoder

/-! ## Attributes of an entry -/

/-- Reading an attribute that `UTXOEntry.__init__` does not set. -/
def UTXOEntry.missingAttribute (name : String) : PyException :=
  .attributeError ("'UTXOEntry' object has no attribute '" ++ name ++ "'")

/-- `utxo.block_height`. -/
def UTXOEntry.blockHeight (_ : UTXOEntry) : Except PyException Int :=
  .error (missingAttribute "block_height")

/-- `utxo.txout`. -/
def UTXOEntry.txout (_ : UTXOEntry) : Except PyException TxOut :=
  .error (missingAttribute "txout")

/-! ## Stage 9 -/

/-- The confirmations of a coinbase entry, if they are too few. -/
def immaturity (currentHeight : Int) (utxo : UTXOEntry) : Except PyException (Option Int) :=
  if utxo.isCoinbase then do
    let confirmations := currentHeight - (← utxo.blockHeight)
    pure (if confirmations < coinbaseMaturity then some confirmations else none)
  else pure none

/-- The loop of `CheckInputs`: the message of a refusal, or the total of the
inputs. -/
def checkInputsFrom (utxoSet : UTXOSet) (currentHeight : Int) :
    Nat → List TxIn → Nat → Except PyException (Except String Nat)
  | _, [], totalIn => pure (.ok totalIn)
  | i, inp :: rest, totalIn =>
      match utxoSet.utxos.lookup inp.outpoint with
      | none =>
          pure (.error ("Input " ++ toString i ++ " references missing or already spent UTXO " ++
            reversedHex inp.prevTxid ++ ":" ++ toString inp.prevVout.toNat))
      | some utxo => do
          match ← immaturity currentHeight utxo with
          | some confirmations =>
              pure (.error ("Input " ++ toString i ++ " attempts to spend immature coinbase (" ++
                toString confirmations ++ " < " ++ toString coinbaseMaturity ++
                  " confirmations)"))
          | none => do
              let txout ← utxo.txout
              checkInputsFrom utxoSet currentHeight (i + 1) rest (totalIn + txout.value)

/-- `CheckInputs`. -/
def checkInputs (tx : Transaction) (utxoSet : UTXOSet) (currentHeight : Int) :
    Except PyException (Bool × String × Nat) :=
  if tx.isCoinbase then .ok (true, "Coinbase has no parent inputs", 0)
  else do
    match ← checkInputsFrom utxoSet currentHeight 0 tx.vin 0 with
    | .error message => pure (false, message, 0)
    | .ok totalIn =>
        if tx.totalOut > totalIn then
          pure (false, "Outputs (" ++ toString tx.totalOut ++ ") exceed inputs (" ++
            toString totalIn ++ ")", 0)
        else pure (true, "Valid Inputs", totalIn - tx.totalOut)

/-! ## Stage 10 -/

/-- The loop of `CheckScripts`. -/
def checkScriptsFrom (prim : Primitives) (tx : Transaction) (utxoSet : UTXOSet) :
    Nat → List TxIn → Except PyException (Bool × String)
  | _, [] => pure (true, "Valid Scripts")
  | i, inp :: rest =>
      match utxoSet.utxos.lookup inp.outpoint with
      | none => pure (false, "Input " ++ toString i ++ " UTXO missing for script check")
      | some utxo => do
          let prevScript := (← utxo.txout).scriptPubkey
          let prevAmount := (← utxo.txout).value
          if !tx.verifyInputSignature prim i prevScript prevAmount then
            pure (false, "Signature verification failed for input " ++ toString i)
          else checkScriptsFrom prim tx utxoSet (i + 1) rest

/-- `CheckScripts`. -/
def checkScripts (prim : Primitives) (tx : Transaction) (utxoSet : UTXOSet) :
    Except PyException (Bool × String) :=
  if tx.isCoinbase then .ok (true, "Coinbase requires no script verification")
  else checkScriptsFrom prim tx utxoSet 0 tx.vin

/-! ## What the stages are to decide -/

/-- The total of the outputs that a list of inputs spends. -/
def spentTotal (utxoSet : UTXOSet) (inputs : List TxIn) : Nat :=
  (inputs.map fun inp => ((utxoSet.utxos.lookup inp.outpoint).map UTXOEntry.value).getD 0).sum

/-- All inputs are there, the coinbases among them are mature, and they cover
the outputs. -/
structure InputsSpendable (tx : Transaction) (utxoSet : UTXOSet) (height : Int) : Prop where
  present : ∀ inp ∈ tx.vin, inp.outpoint ∈ utxoSet.utxos
  mature : ∀ inp ∈ tx.vin, ∀ entry, utxoSet.utxos.lookup inp.outpoint = some entry →
    entry.isCoinbase = true → entry.height + coinbaseMaturity ≤ height
  covered : tx.totalOut ≤ spentTotal utxoSet tx.vin

/-- `CheckInputs` returns, accepts the spendable inputs only, and computes their
fee. -/
def CheckInputsDecides (tx : Transaction) (utxoSet : UTXOSet) (height : Int) : Prop :=
  ∃ accepted message fee, checkInputs tx utxoSet height = .ok (accepted, message, fee) ∧
    (accepted = true ↔ InputsSpendable tx utxoSet height) ∧
    (accepted = true → fee = spentTotal utxoSet tx.vin - tx.totalOut)

/-- `CheckScripts` returns, and accepts exactly if all inputs are there and
signed. -/
def CheckScriptsDecides (prim : Primitives) (tx : Transaction) (utxoSet : UTXOSet) : Prop :=
  ∃ accepted message, checkScripts prim tx utxoSet = .ok (accepted, message) ∧
    (accepted = true ↔ ∀ i inp, tx.vin[i]? = some inp → ∃ entry,
      utxoSet.utxos.lookup inp.outpoint = some entry ∧
        tx.verifyInputSignature prim i entry.scriptPubkey entry.value = true)

section FirstInput

variable {prim : Primitives} {tx : Transaction} {utxoSet : UTXOSet} {height : Int}
  {inp : TxIn} {rest : List TxIn} {entry : UTXOEntry}

/-- At a found entry the loop of `CheckInputs` raises. -/
theorem checkInputsFrom_found (found : utxoSet.utxos.lookup inp.outpoint = some entry)
    (i totalIn : Nat) :
    ∃ error, checkInputsFrom utxoSet height i (inp :: rest) totalIn = .error error := by
  simp only [checkInputsFrom, found, immaturity]
  cases entry.isCoinbase with
  | true => exact ⟨_, rfl⟩
  | false => exact ⟨_, rfl⟩

theorem checkInputs_found (plain : tx.isCoinbase = false) (inputs : tx.vin = inp :: rest)
    (found : utxoSet.utxos.lookup inp.outpoint = some entry) :
    ∃ error, checkInputs tx utxoSet height = .error error := by
  obtain ⟨error, raised⟩ :=
    @checkInputsFrom_found utxoSet height inp rest entry found 0 0
  refine ⟨error, ?_⟩
  rw [checkInputs, plain, inputs, raised]
  rfl

theorem checkScripts_found (plain : tx.isCoinbase = false) (inputs : tx.vin = inp :: rest)
    (found : utxoSet.utxos.lookup inp.outpoint = some entry) :
    checkScripts prim tx utxoSet = .error (UTXOEntry.missingAttribute "txout") := by
  rw [checkScripts, plain, inputs, checkScriptsFrom, found]
  rfl

theorem checkInputs_missing (plain : tx.isCoinbase = false) (inputs : tx.vin = inp :: rest)
    (missing : utxoSet.utxos.lookup inp.outpoint = none) :
    ∃ message, checkInputs tx utxoSet height = .ok (false, message, 0) := by
  rw [checkInputs, plain, inputs, checkInputsFrom, missing]
  exact ⟨_, rfl⟩

theorem checkScripts_missing (plain : tx.isCoinbase = false) (inputs : tx.vin = inp :: rest)
    (missing : utxoSet.utxos.lookup inp.outpoint = none) :
    ∃ message, checkScripts prim tx utxoSet = .ok (false, message) := by
  rw [checkScripts, plain, inputs, checkScriptsFrom, missing]
  exact ⟨_, rfl⟩

end FirstInput

/-- Both stages do what they say exactly if the first input is not in the set. -/
theorem inputStages_decide_iff (prim : Primitives) (utxoSet : UTXOSet) (height : Int)
    (tx : Transaction) (plain : tx.isCoinbase = false)
    (valid : tx.validateStructure.1 = true) :
    (CheckInputsDecides tx utxoSet height ↔
      ∀ inp ∈ tx.vin.head?, inp.outpoint ∉ utxoSet.utxos) ∧
    (CheckScriptsDecides prim tx utxoSet ↔
      ∀ inp ∈ tx.vin.head?, inp.outpoint ∉ utxoSet.utxos) := by
  obtain ⟨inp, rest, inputs⟩ := List.exists_cons_of_ne_nil (Transaction.vin_ne_nil_of_valid valid)
  have first : (∀ inp ∈ tx.vin.head?, inp.outpoint ∉ utxoSet.utxos) ↔
      utxoSet.utxos.lookup inp.outpoint = none := by
    simp [inputs, Finmap.lookup_eq_none]
  rw [first]
  cases found : utxoSet.utxos.lookup inp.outpoint with
  | some entry =>
      obtain ⟨error, raised⟩ := @checkInputs_found tx utxoSet height inp rest entry plain inputs
        found
      simp [CheckInputsDecides, CheckScriptsDecides, raised, checkScripts_found plain inputs found]
  | none =>
      have absent : inp.outpoint ∉ utxoSet.utxos := Finmap.lookup_eq_none.mp found
      refine ⟨iff_of_true ?_ rfl, iff_of_true ?_ rfl⟩
      · obtain ⟨message, refused⟩ :=
          @checkInputs_missing tx utxoSet height inp rest plain inputs found
        refine ⟨false, message, 0, refused, iff_of_false (by simp) ?_, by simp⟩
        exact fun spendable => absent (spendable.present inp (by simp [inputs]))
      · obtain ⟨message, refused⟩ := @checkScripts_missing prim tx utxoSet inp rest plain inputs
          found
        refine ⟨false, message, refused, iff_of_false (by simp) ?_⟩
        intro signed
        obtain ⟨entry, isThere, -⟩ := signed 0 inp (by simp [inputs])
        rw [found] at isThere
        cases isThere

/-- A signed transaction on an empty set is refused, for its missing input. -/
theorem signedSpend_refused :
    CheckInputsDecides signedSpend.tx UTXOSet.empty 102 ∧
      CheckScriptsDecides spendPrimitives signedSpend.tx UTXOSet.empty := by
  obtain ⟨inputs, scripts⟩ := inputStages_decide_iff spendPrimitives UTXOSet.empty 102
    signedSpend.tx (by decide) (by decide +kernel)
  exact ⟨inputs.mpr (by decide), scripts.mpr (by decide)⟩

/-- The sets that applying blocks builds. -/
inductive Applied (prim : Primitives) : UTXOSet → Prop
  | empty : Applied prim UTXOSet.empty
  | block {utxoSet : UTXOSet} (applied : Applied prim utxoSet) (blockHash : Bytes)
      (height : Nat) (transactions : List Transaction) :
      Applied prim (utxoSet.applyBlock prim blockHash height transactions).2

/-- The spend of a mature coinbase that is in the set makes both stages raise. -/
theorem signedSpend_raises :
    ¬ ∀ (prim : Primitives) (utxoSet : UTXOSet), Applied prim utxoSet →
      ∀ (height : Int) (tx : Transaction), tx.isCoinbase = false →
        tx.validateStructure.1 = true →
        CheckInputsDecides tx utxoSet height ∧ CheckScriptsDecides prim tx utxoSet := by
  intro decides
  obtain ⟨⟨accepted, message, fee, returned, -⟩, -⟩ := decides spendPrimitives fundedSet
    (.block .empty _ _ _) 102 signedSpend.tx (by decide) (by decide +kernel)
  have raised : checkInputs signedSpend.tx fundedSet 102 =
      .error (UTXOEntry.missingAttribute "block_height") := by
    decide
  rw [raised] at returned
  cases returned

end QuantyCoin
