import QuantyCoin.TxidCommitment

/-!
# What a signature hash binds

The preimage of `get_sighash` concatenates fields of fixed width, three digests
and one script code, without a length of its own.  Two preimages are equal only
if all fields are; the script code then leaves one ambiguity, which is intended:
an output that pays to a witness key hash is signed like the legacy output of
the same hash.  `get_pqc_sighash` adds the mode of the signature.
-/

namespace QuantyCoin

open ByteDecoder

namespace Transaction

/-! ## Script codes -/

/-- The witness script and the legacy script of one key hash. -/
def KeyHashScripts (witnessScript legacyScript : Bytes) : Prop :=
  ∃ keyHash : Bytes, keyHash.length = 20 ∧ witnessScript = [0x00, 0x14] ++ keyHash ∧
    legacyScript = [0x76, 0xa9, 0x14] ++ keyHash ++ [0x88, 0xac]

theorem scriptCode_of_prefixed {prevScript : Bytes}
    (prefixed : List.isPrefixOf [0x00, 0x14] prevScript = true) :
    scriptCode prevScript = [0x19, 0x76, 0xa9, 0x14] ++ prevScript.drop 2 ++ [0x88, 0xac] :=
  if_pos prefixed

theorem scriptCode_of_not_prefixed {prevScript : Bytes}
    (other : List.isPrefixOf [0x00, 0x14] prevScript = false) :
    scriptCode prevScript = UInt8.ofNat prevScript.length :: prevScript :=
  if_neg (by simp [other])

theorem eq_of_prefixed {prevScript : Bytes}
    (prefixed : List.isPrefixOf [0x00, 0x14] prevScript = true) :
    prevScript = [0x00, 0x14] ++ prevScript.drop 2 := by
  obtain ⟨rest, rfl⟩ := List.isPrefixOf_iff_prefix.mp prefixed
  rfl

/-- A code of the first form that is also one of the second has the length of a
legacy script. -/
theorem keyHashScripts_of_scriptCode {witnessScript legacyScript : Bytes}
    (prefixed : List.isPrefixOf [0x00, 0x14] witnessScript = true)
    (other : List.isPrefixOf [0x00, 0x14] legacyScript = false)
    (short : legacyScript.length ≤ 255)
    (same : scriptCode witnessScript = scriptCode legacyScript) :
    KeyHashScripts witnessScript legacyScript := by
  rw [scriptCode_of_prefixed prefixed, scriptCode_of_not_prefixed other, List.append_assoc,
    List.cons_append, List.cons.injEq] at same
  obtain ⟨first, rest⟩ := same
  have length : legacyScript.length = 25 := by
    have value := congrArg UInt8.toNat first
    rw [UInt8.toNat_ofNat'] at value
    change 25 = legacyScript.length % 2 ^ 8 at value
    omega
  refine ⟨witnessScript.drop 2, ?_, eq_of_prefixed prefixed, ?_⟩
  · have lengths := congrArg List.length rest
    simp only [List.length_append, List.length_cons, List.length_nil, length] at lengths
    omega
  · rw [← rest]
    simp

/-- Scripts with the same code. -/
theorem script_of_scriptCode {prevScript prevScript' : Bytes}
    (short : List.isPrefixOf [0x00, 0x14] prevScript = false → prevScript.length ≤ 255)
    (short' : List.isPrefixOf [0x00, 0x14] prevScript' = false → prevScript'.length ≤ 255)
    (same : scriptCode prevScript = scriptCode prevScript') :
    prevScript = prevScript' ∨ KeyHashScripts prevScript prevScript' ∨
      KeyHashScripts prevScript' prevScript := by
  cases isWitness : List.isPrefixOf [0x00, 0x14] prevScript with
  | true =>
      cases isWitness' : List.isPrefixOf [0x00, 0x14] prevScript' with
      | true =>
          left
          rw [scriptCode_of_prefixed isWitness, scriptCode_of_prefixed isWitness'] at same
          have rest := List.append_cancel_left (List.append_cancel_right same)
          rw [eq_of_prefixed isWitness, eq_of_prefixed isWitness', rest]
      | false =>
          exact Or.inr (Or.inl
            (keyHashScripts_of_scriptCode isWitness isWitness' (short' isWitness') same))
  | false =>
      cases isWitness' : List.isPrefixOf [0x00, 0x14] prevScript' with
      | true =>
          exact Or.inr (Or.inr
            (keyHashScripts_of_scriptCode isWitness' isWitness (short isWitness) same.symm))
      | false =>
          left
          rw [scriptCode_of_not_prefixed isWitness, scriptCode_of_not_prefixed isWitness'] at same
          exact (List.cons.inj same).2

/-! ## Signature hashes -/

/-- What two calls with one signature hash have in common. -/
structure SameSpend (tx tx' : Transaction) (inputIndex inputIndex' : Nat)
    (prevScript prevScript' : Bytes) (prevAmount prevAmount' : Nat) : Prop where
  signed : tx.SameSigned tx'
  outpoint : ∃ inp inp', tx.vin[inputIndex]? = some inp ∧ tx'.vin[inputIndex']? = some inp' ∧
    inp.prevTxid = inp'.prevTxid ∧ inp.prevVout = inp'.prevVout
  amount : prevAmount = prevAmount'
  script : prevScript = prevScript' ∨ KeyHashScripts prevScript prevScript' ∨
    KeyHashScripts prevScript' prevScript

/-- The strings that a call of `get_sighash` hashes. -/
def sighashStrings (prim : Primitives) (tx : Transaction) (inputIndex : Nat)
    (prevScript : Bytes) (prevAmount : Nat) : List Bytes :=
  tx.hashedFields ++
    (tx.vin[inputIndex]?.map fun inp => tx.sighashPreimage prim inp prevScript prevAmount).toList

section Binding

variable {prim : Primitives} {tx tx' : Transaction} {inputIndex inputIndex' : Nat}
  {prevScript prevScript' : Bytes} {prevAmount prevAmount' : Nat}

theorem packU64_inj {value value' : Nat} (fits : value < 2 ^ 64) (fits' : value' < 2 ^ 64)
    (same : packU64 value = packU64 value') : value = value' := by
  have values := congrArg leValue same
  rw [packU64, packU64, leValue_leBytes (by omega), leValue_leBytes (by omega)] at values
  exact values

theorem sameSpend_of_sighash (wellFormed : tx.WellFormed) (wellFormed' : tx'.WellFormed)
    (free : CollisionFree prim.hash256
      (tx.sighashStrings prim inputIndex prevScript prevAmount ++
        tx'.sighashStrings prim inputIndex' prevScript' prevAmount'))
    {sighash : Bytes}
    (computed : tx.getSighash prim inputIndex prevScript prevAmount = .ok sighash)
    (computed' : tx'.getSighash prim inputIndex' prevScript' prevAmount' = .ok sighash) :
    SameSpend tx tx' inputIndex inputIndex' prevScript prevScript' prevAmount prevAmount' := by
  obtain ⟨inp, found, script_le, amount_lt, sighash_eq⟩ := getSighash_eq_ok.mp computed
  obtain ⟨inp', found', script_le', amount_lt', sighash_eq'⟩ := getSighash_eq_ok.mp computed'
  have preimages := free _ (by simp [sighashStrings, found]) _
    (by simp [sighashStrings, found']) (sighash_eq.symm.trans sighash_eq')
  have length := (wellFormed.inputs inp (List.mem_of_getElem? found)).prevTxid_length
  have length' := (wellFormed'.inputs inp' (List.mem_of_getElem? found')).prevTxid_length
  have fields := sighashPreimage_inj length length' preimages
  have subset : tx.hashedFields ++ tx'.hashedFields ⊆
      tx.sighashStrings prim inputIndex prevScript prevAmount ++
        tx'.sighashStrings prim inputIndex' prevScript' prevAmount' :=
    List.append_subset.mpr
      ⟨List.subset_append_of_subset_left _ (List.subset_append_left _ _),
        List.subset_append_of_subset_right _ (List.subset_append_left _ _)⟩
  obtain ⟨txid, vout⟩ := List.append_inj fields.outpoint (length.trans length'.symm)
  exact
    { signed := fields.sameSigned wellFormed wellFormed' (free.subset subset)
      outpoint := ⟨inp, inp', found, found', txid, packU32_injective vout⟩
      amount := packU64_inj amount_lt amount_lt' fields.amount
      script := script_of_scriptCode script_le script_le' fields.code }

/-- Equal signature hashes come from transactions that agree in everything a
signature is meant to cover, and from inputs that spend the same output; equal
post-quantum hashes also from the same mode. -/
theorem sighash_binds (wellFormed : tx.WellFormed) (wellFormed' : tx'.WellFormed)
    (free : CollisionFree prim.hash256
      (tx.sighashStrings prim inputIndex prevScript prevAmount ++
        tx'.sighashStrings prim inputIndex' prevScript' prevAmount'))
    (sha256Injective : Function.Injective prim.sha256) :
    (∀ sighash, tx.getSighash prim inputIndex prevScript prevAmount = .ok sighash →
      tx'.getSighash prim inputIndex' prevScript' prevAmount' = .ok sighash →
      SameSpend tx tx' inputIndex inputIndex' prevScript prevScript' prevAmount prevAmount') ∧
    ∀ sigType sigType' sighash,
      tx.getPqcSighash prim inputIndex prevScript prevAmount sigType = .ok sighash →
      tx'.getPqcSighash prim inputIndex' prevScript' prevAmount' sigType' = .ok sighash →
      sigType = sigType' ∧
        SameSpend tx tx' inputIndex inputIndex' prevScript prevScript' prevAmount
          prevAmount' := by
  constructor
  · intro sighash computed computed'
    exact sameSpend_of_sighash wellFormed wellFormed' free computed computed'
  · intro sigType sigType' sighash computed computed'
    obtain ⟨mode, bip143Hash, signed, signed'⟩ :=
      getPqcSighash_inj sha256Injective computed computed'
    exact ⟨mode, sameSpend_of_sighash wellFormed wellFormed' free signed signed'⟩

end Binding

/-! ### One key hash in both scripts -/

/-- Primitives that distinguish strings by their length. -/
def lengthPrimitives : Primitives :=
  { Primitives.ofDigests [] with
    hash256 := fun data => leBytes 32 data.length
    hash256_length := fun _ => leBytes_length 32 _
    sha256 := id }

def bareSpend : Transaction := ⟨1, [⟨zeroHash, 3, [], 0, []⟩], [], 0⟩

def bareKeyHash : Bytes := List.replicate 20 7

theorem bareSpend_wellFormed : bareSpend.WellFormed where
  vin_lt := by decide
  vout_lt := by decide
  inputs := by
    intro inp member
    cases List.mem_singleton.mp member
    exact ⟨by decide, by decide, by decide, by simp⟩
  outputs := by simp [bareSpend]

/-- The two scripts of a key hash have the same signature hash. -/
theorem bareSpend_binds :
    SameSpend bareSpend bareSpend 0 0 ([0x00, 0x14] ++ bareKeyHash)
      ([0x76, 0xa9, 0x14] ++ bareKeyHash ++ [0x88, 0xac]) 5 5 := by
  have free : CollisionFree lengthPrimitives.hash256
      (bareSpend.sighashStrings lengthPrimitives 0 ([0x00, 0x14] ++ bareKeyHash) 5 ++
        bareSpend.sighashStrings lengthPrimitives 0
          ([0x76, 0xa9, 0x14] ++ bareKeyHash ++ [0x88, 0xac]) 5) := by
    decide +kernel
  exact (sighash_binds bareSpend_wellFormed bareSpend_wellFormed free Function.injective_id).1
    (leBytes 32 182) (by decide +kernel) (by decide +kernel)

end Transaction

end QuantyCoin
