import QuantyCoin.AuthorizingKeys
import QuantyCoin.MerkleCommitment

/-!
# Signatures and transaction ids

A signature commits to the version, the outpoints, the sequence numbers, the
outputs and the locktime of a transaction.  The id of the transaction covers
the same fields and the signature scripts of its inputs.  No mode of
`verify_input_signature` looks at the signature script, so anyone can change it
and with it the id, while all signatures stay valid.
-/

namespace QuantyCoin

open ByteDecoder Decoder

namespace Transaction

/-! ## What is signed -/

/-- The script code of `get_sighash`. -/
def scriptCode (prevScript : Bytes) : Bytes :=
  if List.isPrefixOf [0x00, 0x14] prevScript then
    [0x19, 0x76, 0xa9, 0x14] ++ prevScript.drop 2 ++ [0x88, 0xac]
  else UInt8.ofNat prevScript.length :: prevScript

/-- The preimage of `get_sighash`. -/
def sighashPreimage (prim : Primitives) (tx : Transaction) (inp : TxIn) (prevScript : Bytes)
    (prevAmount : Nat) : Bytes :=
  packI32 tx.version ++ prim.hash256 (tx.vin.flatMap packOutpoint) ++
    prim.hash256 (tx.vin.flatMap fun inp => packU32 inp.sequence) ++ packOutpoint inp ++
    scriptCode prevScript ++ packU64 prevAmount ++ packU32 inp.sequence ++
    prim.hash256 (tx.vout.flatMap TxOut.serialize) ++ packU32 tx.locktime ++ packU32 1

/-- `get_sighash` where it does not raise. -/
structure Sighash (prim : Primitives) (tx : Transaction) (inputIndex : Nat) (prevScript : Bytes)
    (prevAmount : Nat) (inp : TxIn) (sighash : Bytes) : Prop where
  found : tx.vin[inputIndex]? = some inp
  script_le : List.isPrefixOf [0x00, 0x14] prevScript = false → prevScript.length ≤ 255
  amount_lt : prevAmount < 2 ^ 64
  sighash_eq : sighash = prim.hash256 (tx.sighashPreimage prim inp prevScript prevAmount)

theorem getSighash_eq_ok {prim : Primitives} {tx : Transaction} {inputIndex : Nat}
    {prevScript : Bytes} {prevAmount : Nat} {sighash : Bytes} :
    tx.getSighash prim inputIndex prevScript prevAmount = .ok sighash ↔
      ∃ inp, tx.Sighash prim inputIndex prevScript prevAmount inp sighash := by
  constructor
  · intro computed
    rw [getSighash] at computed
    simp only at computed
    split at computed
    · cases computed
    rename_i inp found
    split_ifs at computed with long large prefixed
    all_goals
      cases computed
      refine ⟨inp, found, fun other => ?_, Nat.not_le.mp large, ?_⟩
    · simp [prefixed] at other
    · rw [sighashPreimage, scriptCode, if_pos prefixed]
    · simpa [other] using long
    · rw [sighashPreimage, scriptCode, if_neg prefixed]
  · rintro ⟨inp, found, script_le, amount_lt, rfl⟩
    have short : ¬ ((!List.isPrefixOf [0x00, 0x14] prevScript) && prevScript.length > 255) := by
      cases isPrefix : List.isPrefixOf [0x00, 0x14] prevScript with
      | true => simp
      | false => simpa using script_le isPrefix
    rw [getSighash]
    simp only [found]
    rw [if_neg short, if_neg (by omega)]
    rfl

/-- The strings that are hashed for the id of a transaction and for the
signatures of its inputs, which spend the given scripts and amounts. -/
def signingStrings (prim : Primitives) (tx : Transaction) (spent : List (Bytes × Nat)) :
    List Bytes :=
  [tx.serialize false, tx.vin.flatMap packOutpoint,
    tx.vin.flatMap fun inp => packU32 inp.sequence, tx.vout.flatMap TxOut.serialize] ++
    (tx.vin.zip spent).map fun item => tx.sighashPreimage prim item.1 item.2.1 item.2.2

/-- All inputs verify against the scripts and amounts they spend. -/
structure SignedFor (prim : Primitives) (tx : Transaction) (spent : List (Bytes × Nat)) :
    Prop where
  length_eq : spent.length = tx.vin.length
  verified : ∀ inputIndex prevScript prevAmount,
    spent[inputIndex]? = some (prevScript, prevAmount) →
      tx.verifyInputSignature prim inputIndex prevScript prevAmount = true

end Transaction

/-- A signature verifies for at most one message under a key. -/
structure Primitives.SignsOneMessage (prim : Primitives) : Prop where
  ecdsa : ∀ {msgHash msgHash' pubkey : Bytes} {r s : Nat},
    prim.ecdsaVerify msgHash pubkey r s = true →
      prim.ecdsaVerify msgHash' pubkey r s = true → msgHash = msgHash'
  dilithium : ∀ {signature message message' context publicKey : Bytes},
    prim.dilithiumVerify signature message context publicKey = true →
      prim.dilithiumVerify signature message' context publicKey = true → message = message'

namespace Transaction

variable {prim : Primitives} {tx tx' : Transaction} {inputIndex prevAmount : Nat}
  {prevScript : Bytes} {spent : List (Bytes × Nat)}

theorem EcdsaAccepts.same_sighash (oneMessage : prim.SignsOneMessage)
    {sigWithType pubkey : Bytes}
    (accepts : tx.EcdsaAccepts prim inputIndex prevScript prevAmount sigWithType pubkey)
    (accepts' : tx'.EcdsaAccepts prim inputIndex prevScript prevAmount sigWithType pubkey) :
    ∃ sighash, tx.getSighash prim inputIndex prevScript prevAmount = .ok sighash ∧
      tx'.getSighash prim inputIndex prevScript prevAmount = .ok sighash := by
  obtain ⟨r, s, sighash, decoded, computed, verified⟩ := accepts
  obtain ⟨r', s', sighash', decoded', computed', verified'⟩ := accepts'
  rw [decoded] at decoded'
  cases decoded'
  obtain rfl := oneMessage.ecdsa verified verified'
  exact ⟨sighash, computed, computed'⟩

theorem toByte_injective : Function.Injective SignatureType.toByte := by
  intro first second same
  cases first <;> cases second <;> first | rfl | exact absurd same (by decide)

/-- The mode and the signature hash inside a post-quantum signature hash. -/
theorem getPqcSighash_inj (sha256Injective : Function.Injective prim.sha256)
    {inputIndex' prevAmount' : Nat} {prevScript' : Bytes} {sigType sigType' : SignatureType}
    {pqcSighash : Bytes}
    (computed : tx.getPqcSighash prim inputIndex prevScript prevAmount sigType = .ok pqcSighash)
    (computed' : tx'.getPqcSighash prim inputIndex' prevScript' prevAmount' sigType' =
      .ok pqcSighash) :
    sigType = sigType' ∧ ∃ sighash,
      tx.getSighash prim inputIndex prevScript prevAmount = .ok sighash ∧
        tx'.getSighash prim inputIndex' prevScript' prevAmount' = .ok sighash := by
  rw [getPqcSighash] at computed computed'
  cases signed : tx.getSighash prim inputIndex prevScript prevAmount with
  | error error =>
      rw [signed] at computed
      cases computed
  | ok sighash =>
      cases signed' : tx'.getSighash prim inputIndex' prevScript' prevAmount' with
      | error error =>
          rw [signed'] at computed'
          cases computed'
      | ok sighash' =>
          rw [signed] at computed
          rw [signed'] at computed'
          have same := sha256Injective (Except.ok.inj (computed.trans computed'.symm))
          rw [List.append_assoc, List.append_assoc] at same
          obtain ⟨mode, hashes⟩ := List.cons.inj (List.append_cancel_left same)
          have hashes : sighash = sighash' := hashes
          exact ⟨toByte_injective mode, sighash, rfl, by rw [hashes]⟩

theorem MldsaAccepts.same_sighash (oneMessage : prim.SignsOneMessage)
    (sha256Injective : Function.Injective prim.sha256) {sigType : SignatureType}
    {sigWithType pubkey : Bytes}
    (accepts : tx.MldsaAccepts prim inputIndex prevScript prevAmount sigType sigWithType pubkey)
    (accepts' : tx'.MldsaAccepts prim inputIndex prevScript prevAmount sigType sigWithType
      pubkey) :
    ∃ sighash, tx.getSighash prim inputIndex prevScript prevAmount = .ok sighash ∧
      tx'.getSighash prim inputIndex prevScript prevAmount = .ok sighash := by
  obtain ⟨pqcSighash, computed, verified⟩ := accepts
  obtain ⟨pqcSighash', computed', verified'⟩ := accepts'
  obtain rfl := oneMessage.dilithium (mldsaVerify_eq_true.mp verified).2.2
    (mldsaVerify_eq_true.mp verified').2.2
  exact (getPqcSighash_inj sha256Injective computed computed').2

/-- Two transactions that are accepted with the same witness have the same
signature hash. -/
theorem Authorized.same_sighash (oneMessage : prim.SignsOneMessage)
    (sha256Injective : Function.Injective prim.sha256) {witness : List Bytes}
    (authorized : tx.Authorized prim inputIndex prevAmount prevScript witness)
    (authorized' : tx'.Authorized prim inputIndex prevAmount prevScript witness) :
    ∃ sighash, tx.getSighash prim inputIndex prevScript prevAmount = .ok sighash ∧
      tx'.getSighash prim inputIndex prevScript prevAmount = .ok sighash := by
  cases authorized with
  | witnessKeyHash script accepts =>
      cases authorized' with
      | witnessKeyHash _ accepts' => exact accepts.same_sighash oneMessage accepts'
      | keyHash script' _ => simp [script] at script'
      | mlDsa script' _ => simp [script] at script'
  | keyHash script accepts =>
      cases authorized' with
      | witnessKeyHash script' _ => simp [script] at script'
      | keyHash _ accepts' => exact accepts.same_sighash oneMessage accepts'
      | mlDsa script' _ => simp [script] at script'
  | mlDsa script accepts =>
      cases authorized' with
      | witnessKeyHash script' _ => simp [script] at script'
      | keyHash script' _ => simp [script] at script'
      | mlDsa _ accepts' => exact accepts.same_sighash oneMessage sha256Injective accepts'
  | hybrid _ accepts _ =>
      cases authorized' with
      | hybrid _ accepts' _ => exact accepts.same_sighash oneMessage accepts'

/-! ## What the signature hash determines -/

theorem packU32_injective : Function.Injective packU32 := by
  intro first second same
  have reads := readU32_reads second
  rw [← same] at reads
  exact (readU32_reads first).unique reads

theorem packI32_injective : Function.Injective packI32 := by
  intro first second same
  have reads := readI32_reads second
  rw [← same] at reads
  exact (readI32_reads first).unique reads

/-- The preimages of two signature hashes that are equal field by field. -/
structure SamePreimage (prim : Primitives) (tx tx' : Transaction) (inp inp' : TxIn)
    (prevScript prevScript' : Bytes) (prevAmount prevAmount' : Nat) : Prop where
  version : tx.version = tx'.version
  prevouts : prim.hash256 (tx.vin.flatMap packOutpoint) =
    prim.hash256 (tx'.vin.flatMap packOutpoint)
  sequences : prim.hash256 (tx.vin.flatMap fun inp => packU32 inp.sequence) =
    prim.hash256 (tx'.vin.flatMap fun inp => packU32 inp.sequence)
  outpoint : packOutpoint inp = packOutpoint inp'
  code : scriptCode prevScript = scriptCode prevScript'
  amount : packU64 prevAmount = packU64 prevAmount'
  outputs : prim.hash256 (tx.vout.flatMap TxOut.serialize) =
    prim.hash256 (tx'.vout.flatMap TxOut.serialize)
  locktime : tx.locktime = tx'.locktime

/-- All fields but the script code have a fixed width, so that they can be read
off the preimage from both ends. -/
theorem sighashPreimage_inj {inp inp' : TxIn} {prevScript' : Bytes} {prevAmount' : Nat}
    (length : inp.prevTxid.length = 32) (length' : inp'.prevTxid.length = 32)
    (same : tx.sighashPreimage prim inp prevScript prevAmount =
      tx'.sighashPreimage prim inp' prevScript' prevAmount') :
    SamePreimage prim tx tx' inp inp' prevScript prevScript' prevAmount prevAmount' := by
  have width : ∀ value, (packU32 value).length = 4 := fun value => leBytes_length 4 _
  have amountWidth : (packU64 prevAmount).length = (packU64 prevAmount').length := by
    rw [packU64, packU64, leBytes_length, leBytes_length]
  have versionWidth : (packI32 tx.version).length = (packI32 tx'.version).length := by
    rw [packI32, packI32, leBytes_length, leBytes_length]
  have outpointWidth : (packOutpoint inp).length = (packOutpoint inp').length := by
    rw [packOutpoint, packOutpoint, List.length_append, List.length_append, length, length',
      width, width]
  rw [sighashPreimage, sighashPreimage] at same
  obtain ⟨same, locktime⟩ := List.append_inj' (List.append_cancel_right same) (by simp [width])
  obtain ⟨same, outputs⟩ := List.append_inj' same (by simp [prim.hash256_length])
  obtain ⟨same, -⟩ := List.append_inj' same (by simp [width])
  obtain ⟨same, amount⟩ := List.append_inj' same amountWidth
  obtain ⟨same, code⟩ := List.append_inj same
    (by simp only [List.length_append, prim.hash256_length, outpointWidth, versionWidth])
  obtain ⟨same, outpoint⟩ := List.append_inj' same outpointWidth
  obtain ⟨same, sequences⟩ := List.append_inj' same (by simp [prim.hash256_length])
  obtain ⟨version, prevouts⟩ := List.append_inj' same (by simp [prim.hash256_length])
  exact
    { version := packI32_injective version
      prevouts, sequences, outpoint, code, amount, outputs
      locktime := packU32_injective locktime }

def readOutpoint : Decoder PyException (Bytes × UInt32) := do
  let prevTxid ← slice 32
  let prevVout ← readU32
  pure (prevTxid, prevVout)

theorem readOutpoint_reads {inp : TxIn} (length : inp.prevTxid.length = 32) :
    Reads readOutpoint (packOutpoint inp) (inp.prevTxid, inp.prevVout) :=
  (Reads.slice length).bind ((readU32_reads inp.prevVout).bind_pure (Reads.pure _))

theorem packU32_ne_nil (value : UInt32) : packU32 value ≠ [] := by
  intro empty
  have width : (packU32 value).length = 4 := leBytes_length 4 _
  simp [empty] at width

/-- The fields a signature commits to. -/
structure SameSigned (tx tx' : Transaction) : Prop where
  version : tx.version = tx'.version
  outpoints : tx.vin.map (fun inp => (inp.prevTxid, inp.prevVout)) =
    tx'.vin.map fun inp => (inp.prevTxid, inp.prevVout)
  sequences : tx.vin.map TxIn.sequence = tx'.vin.map TxIn.sequence
  outputs : tx.vout = tx'.vout
  locktime : tx.locktime = tx'.locktime

/-- The strings that are hashed into every signature hash of a transaction. -/
def hashedFields (tx : Transaction) : List Bytes :=
  [tx.vin.flatMap packOutpoint, tx.vin.flatMap fun inp => packU32 inp.sequence,
    tx.vout.flatMap TxOut.serialize]

theorem SamePreimage.sameSigned {inp inp' : TxIn} {prevScript' : Bytes} {prevAmount' : Nat}
    (same : SamePreimage prim tx tx' inp inp' prevScript prevScript' prevAmount prevAmount')
    (wellFormed : tx.WellFormed) (wellFormed' : tx'.WellFormed)
    (free : CollisionFree prim.hash256 (tx.hashedFields ++ tx'.hashedFields)) :
    tx.SameSigned tx' := by
  have prevouts := free _ (by simp [hashedFields]) _ (by simp [hashedFields]) same.prevouts
  have sequences := free _ (by simp [hashedFields]) _ (by simp [hashedFields]) same.sequences
  have outputs := free _ (by simp [hashedFields]) _ (by simp [hashedFields]) same.outputs
  refine ⟨same.version, ?_, ?_, ?_, same.locktime⟩
  · refine Reads.flatMap_inj
      (fun inp member => readOutpoint_reads (wellFormed.inputs inp member).prevTxid_length)
      (fun inp member => readOutpoint_reads (wellFormed'.inputs inp member).prevTxid_length)
      ?_ prevouts
    intro inp empty
    exact packU32_ne_nil _ (List.append_eq_nil_iff.mp empty).2
  · exact Reads.flatMap_inj (fun inp _ => readU32_reads inp.sequence)
      (fun inp _ => readU32_reads inp.sequence) (fun inp => packU32_ne_nil _) sequences
  · have same := Reads.flatMap_inj
      (fun out member => readTxOut_reads (wellFormed.outputs out member))
      (fun out member => readTxOut_reads (wellFormed'.outputs out member)) ?_ outputs
    · simpa using same
    · intro out empty
      have width : (packU64 out.value).length = 8 := leBytes_length 8 _
      simp [(List.append_eq_nil_iff.mp empty).1] at width

theorem hashedFields_subset (spent : List (Bytes × Nat)) :
    tx.hashedFields ⊆ tx.signingStrings prim spent := by
  simp [hashedFields, signingStrings]

/-- Transactions with inputs that are signed by the same witnesses agree in all
fields a signature commits to. -/
theorem SignedFor.sameSigned (wellFormed : tx.WellFormed) (wellFormed' : tx'.WellFormed)
    (oneMessage : prim.SignsOneMessage) (sha256Injective : Function.Injective prim.sha256)
    (free : CollisionFree prim.hash256
      (tx.signingStrings prim spent ++ tx'.signingStrings prim spent))
    (signed : tx.SignedFor prim spent) (signed' : tx'.SignedFor prim spent)
    (witnesses : tx.witnesses = tx'.witnesses) (inputs : tx.vin ≠ []) :
    tx.SameSigned tx' := by
  obtain ⟨⟨prevScript, prevAmount⟩, first⟩ : ∃ item, spent[0]? = some item := by
    have positive : 0 < spent.length := by
      rw [signed.length_eq]
      exact List.length_pos_of_ne_nil inputs
    exact ⟨spent[0], List.getElem?_eq_getElem positive⟩
  obtain ⟨inp, found, authorized⟩ :=
    authorized_of_verified (signed.verified 0 prevScript prevAmount first)
  obtain ⟨inp', found', authorized'⟩ :=
    authorized_of_verified (signed'.verified 0 prevScript prevAmount first)
  have sameWitness : inp.witness = inp'.witness := by
    have same := congrArg (·[0]?) witnesses
    simp only [Transaction.witnesses, List.getElem?_map, found, found', Option.map_some,
      Option.some.injEq] at same
    exact same
  rw [← sameWitness] at authorized'
  obtain ⟨sighash, computed, computed'⟩ :=
    authorized.same_sighash oneMessage sha256Injective authorized'
  obtain ⟨_, found₁, -, -, sighashEq⟩ := getSighash_eq_ok.mp computed
  obtain ⟨_, found₂, -, -, sighashEq'⟩ := getSighash_eq_ok.mp computed'
  cases found.symm.trans found₁
  cases found'.symm.trans found₂
  have inStrings : ∀ {other : Transaction} {input : TxIn}, other.vin[0]? = some input →
      other.sighashPreimage prim input prevScript prevAmount ∈
        other.signingStrings prim spent := by
    intro other input at0
    refine List.mem_append_right _ (List.mem_map.mpr ⟨(input, prevScript, prevAmount), ?_, rfl⟩)
    refine List.mem_of_getElem? (i := 0) ?_
    rw [List.getElem?_zip_eq_some]
    exact ⟨at0, first⟩
  have same := free _ (List.mem_append_left _ (inStrings found)) _
    (List.mem_append_right _ (inStrings found')) (sighashEq.symm.trans sighashEq')
  have fields := sighashPreimage_inj
    (wellFormed.inputs inp (List.mem_of_getElem? found)).prevTxid_length
    (wellFormed'.inputs inp' (List.mem_of_getElem? found')).prevTxid_length same
  have subset : tx.hashedFields ++ tx'.hashedFields ⊆
      tx.signingStrings prim spent ++ tx'.signingStrings prim spent :=
    List.append_subset.mpr ⟨List.subset_append_of_subset_left _ (hashedFields_subset spent),
      List.subset_append_of_subset_right _ (hashedFields_subset spent)⟩
  exact fields.sameSigned wellFormed wellFormed' (free.subset subset)

/-! ## What the id determines -/

/-- A decoder for the format without witnesses. -/
def readBare : Decoder PyException Transaction := do
  let version ← readI32
  let vin ← times readTxIn (← readVarint)
  let vout ← times readTxOut (← readVarint)
  let locktime ← readU32
  pure ⟨version, vin, vout, locktime⟩

theorem readBare_reads (wellFormed : tx.WellFormed) :
    Reads readBare (tx.serialize false) tx.withoutWitness := by
  have inputs : Reads (times readTxIn tx.vin.length) (tx.vin.flatMap TxIn.serialize)
      (tx.vin.map TxIn.withoutWitness) :=
    Reads.times fun inp member => readTxIn_reads (wellFormed.inputs inp member)
  have outputs : Reads (times readTxOut tx.vout.length) (tx.vout.flatMap TxOut.serialize)
      (tx.vout.map id) :=
    Reads.times fun out member => readTxOut_reads (wellFormed.outputs out member)
  rw [List.map_id] at outputs
  exact (readI32_reads tx.version).bind ((readVarint_reads wellFormed.vin_lt).bind
    (inputs.bind ((readVarint_reads wellFormed.vout_lt).bind
      (outputs.bind ((readU32_reads tx.locktime).bind_pure (Reads.pure _))))))

/-- The serialization depends on the witnesses only through the flag. -/
theorem serialize_false_congr (same : tx.withoutWitness = tx'.withoutWitness) :
    tx.serialize false = tx'.serialize false := by
  rw [← serialize_withoutWitness, ← serialize_withoutWitness, same]

/-- An input but for its witness is its outpoint, its sequence number and its
script. -/
theorem map_withoutWitness_eq {vin vin' : List TxIn}
    (outpoints : vin.map (fun inp => (inp.prevTxid, inp.prevVout)) =
      vin'.map fun inp => (inp.prevTxid, inp.prevVout))
    (sequences : vin.map TxIn.sequence = vin'.map TxIn.sequence)
    (scripts : vin.map TxIn.scriptSig = vin'.map TxIn.scriptSig) :
    vin.map TxIn.withoutWitness = vin'.map TxIn.withoutWitness := by
  induction vin generalizing vin' with
  | nil => simpa using scripts
  | cons inp vin ih =>
      cases vin' with
      | nil => simp at scripts
      | cons inp' vin' =>
          simp only [List.map_cons, List.cons.injEq, Prod.mk.injEq] at outpoints sequences scripts
          have rest := ih outpoints.2 sequences.2 scripts.2
          rw [List.map_cons, List.map_cons, rest, TxIn.withoutWitness, TxIn.withoutWitness,
            outpoints.1.1, outpoints.1.2, scripts.1, sequences.1]

theorem SameSigned.withoutWitness_eq (same : tx.SameSigned tx')
    (scripts : tx.vin.map TxIn.scriptSig = tx'.vin.map TxIn.scriptSig) :
    tx.withoutWitness = tx'.withoutWitness := by
  rw [withoutWitness, withoutWitness, same.version, same.outputs, same.locktime,
    map_withoutWitness_eq same.outpoints same.sequences scripts]

end Transaction

/-- Transactions with the same witnesses that are both signed for the outputs
they spend have the same id exactly if they have the same signature scripts
and, for want of any signature, the same other fields if they have no inputs. -/
theorem txid_eq_iff {prim : Primitives} (sha256Injective : Function.Injective prim.sha256)
    (oneMessage : prim.SignsOneMessage) {tx tx' : Transaction} {spent : List (Bytes × Nat)}
    (wellFormed : tx.WellFormed) (wellFormed' : tx'.WellFormed)
    (free : CollisionFree prim.hash256
      (tx.signingStrings prim spent ++ tx'.signingStrings prim spent))
    (signed : tx.SignedFor prim spent) (signed' : tx'.SignedFor prim spent)
    (witnesses : tx.witnesses = tx'.witnesses) :
    tx'.txid prim = tx.txid prim ↔
      tx.vin.map TxIn.scriptSig = tx'.vin.map TxIn.scriptSig ∧
      (tx.vin = [] → tx.version = tx'.version ∧ tx.vout = tx'.vout ∧
        tx.locktime = tx'.locktime) := by
  constructor
  · intro sameId
    have strings := free _ (List.mem_append_left _ (List.mem_cons_self)) _
      (List.mem_append_right _ (List.mem_cons_self)) sameId.symm
    have reads := Transaction.readBare_reads wellFormed'
    rw [← strings] at reads
    have bare := (Transaction.readBare_reads wellFormed).unique reads
    simp only [Transaction.withoutWitness, Transaction.mk.injEq] at bare
    refine ⟨?_, fun _ => ⟨bare.1, bare.2.2.1, bare.2.2.2⟩⟩
    have scripts := congrArg (List.map TxIn.scriptSig) bare.2.1
    rw [List.map_map, List.map_map] at scripts
    exact scripts
  · rintro ⟨scripts, bareFields⟩
    have bare : tx.withoutWitness = tx'.withoutWitness := by
      by_cases inputs : tx.vin = []
      · obtain ⟨version, outputs, locktime⟩ := bareFields inputs
        have inputs' : tx'.vin = [] := by
          rw [inputs, List.map_nil] at scripts
          exact List.map_eq_nil_iff.mp scripts.symm
        rw [Transaction.withoutWitness, Transaction.withoutWitness, version, outputs, locktime,
          inputs, inputs']
      · exact (signed.sameSigned wellFormed wellFormed' oneMessage sha256Injective free signed'
          witnesses inputs).withoutWitness_eq scripts
    rw [Transaction.txid, Transaction.txid, Transaction.serialize_false_congr bare]

/-! ## Anyone can change the id -/

def sampleSpent : List (Bytes × Nat) := [([0x00, 0x14] ++ sampleKeyHash, 50 * coin)]

theorem keyPrimitives_signsOneMessage : keyPrimitives.SignsOneMessage := by
  constructor
  · intro msgHash msgHash' pubkey r s verified verified'
    simp only [keyPrimitives, Bool.and_eq_true, decide_eq_true_eq] at verified verified'
    rw [verified.1.1.2, verified'.1.1.2]
  · intro signature message message' context publicKey verified
    simp [keyPrimitives, Primitives.ofDigests] at verified

theorem signedFor_sampleSpent {tx : Transaction} (length : tx.vin.length = 1)
    (verified : tx.verifyInputSignature keyPrimitives 0 ([0x00, 0x14] ++ sampleKeyHash)
      (50 * coin) = true) : tx.SignedFor keyPrimitives sampleSpent := by
  refine ⟨length.symm, ?_⟩
  intro inputIndex prevScript prevAmount found
  cases inputIndex with
  | zero =>
      cases found
      exact verified
  | succ inputIndex => simp [sampleSpent] at found

theorem signedSpend_wellFormed : signedSpend.tx.WellFormed :=
  @readTransaction_wellFormed (signedSpend.tx.serialize true) 0
    (signedSpend.tx.serialize true).length _ (by decide +kernel)

theorem scriptedSpend_wellFormed : scriptedSpend.WellFormed :=
  @readTransaction_wellFormed (scriptedSpend.serialize true) 0
    (scriptedSpend.serialize true).length _ (by decide +kernel)

theorem scriptedSpend_collisionFree :
    CollisionFree keyPrimitives.hash256
      (signedSpend.tx.signingStrings keyPrimitives sampleSpent ++
        scriptedSpend.signingStrings keyPrimitives sampleSpent) := by
  decide +kernel

/-- A byte in the signature script of a signed transaction leaves its signature
valid and changes its id. -/
theorem scriptedSpend_malleated :
    Function.Injective keyPrimitives.sha256 ∧ keyPrimitives.SignsOneMessage ∧
      signedSpend.tx.WellFormed ∧ scriptedSpend.WellFormed ∧
      CollisionFree keyPrimitives.hash256
        (signedSpend.tx.signingStrings keyPrimitives sampleSpent ++
          scriptedSpend.signingStrings keyPrimitives sampleSpent) ∧
      signedSpend.tx.SignedFor keyPrimitives sampleSpent ∧
      scriptedSpend.SignedFor keyPrimitives sampleSpent ∧
      signedSpend.tx.witnesses = scriptedSpend.witnesses ∧
      scriptedSpend.txid keyPrimitives ≠ signedSpend.tx.txid keyPrimitives :=
  ⟨keyPrimitives_sha256_injective, keyPrimitives_signsOneMessage, signedSpend_wellFormed,
    scriptedSpend_wellFormed, scriptedSpend_collisionFree,
    signedFor_sampleSpent rfl signedSpend_verified,
    signedFor_sampleSpent rfl scriptedSpend_verified, rfl, by decide⟩

/-- The ids differ because the scripts do. -/
theorem scriptedSpend_txid :
    ¬ scriptedSpend.txid keyPrimitives = signedSpend.tx.txid keyPrimitives ∧
      signedSpend.tx.vin.map TxIn.scriptSig ≠ scriptedSpend.vin.map TxIn.scriptSig := by
  have scripts : signedSpend.tx.vin.map TxIn.scriptSig ≠
      scriptedSpend.vin.map TxIn.scriptSig := by
    decide
  have exactly := txid_eq_iff keyPrimitives_sha256_injective keyPrimitives_signsOneMessage
    signedSpend_wellFormed scriptedSpend_wellFormed scriptedSpend_collisionFree
    (signedFor_sampleSpent rfl signedSpend_verified)
    (signedFor_sampleSpent rfl scriptedSpend_verified) rfl
  exact ⟨fun same => scripts (exactly.mp same).1, scripts⟩

end QuantyCoin
