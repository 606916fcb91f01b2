import QuantyCoin.MempoolInvariant

/-!
# The keys that authorize a spend

`verify_input_signature` accepts a witness only if the script is the one for
the public keys in it.  A hybrid script commits to the two keys as one string;
where the first ends and the second begins is settled by `mldsa_verify`, which
accepts keys of one length only.
-/

namespace QuantyCoin

open ByteDecoder

namespace Transaction

/-! ## Single signatures -/

/-- The classical signature in a witness item is valid for the input. -/
def EcdsaAccepts (prim : Primitives) (tx : Transaction) (inputIndex : Nat)
    (prevScript : Bytes) (prevAmount : Nat) (sigWithType pubkey : Bytes) : Prop :=
  ∃ r s sighash, decodeDerSignature sigWithType.dropLast = .ok (r, s) ∧
    tx.getSighash prim inputIndex prevScript prevAmount = .ok sighash ∧
    prim.ecdsaVerify sighash pubkey r s = true

/-- The post-quantum signature in a witness item is valid for the input. -/
def MldsaAccepts (prim : Primitives) (tx : Transaction) (inputIndex : Nat)
    (prevScript : Bytes) (prevAmount : Nat) (sigType : SignatureType)
    (sigWithType pubkey : Bytes) : Prop :=
  ∃ pqcSighash, tx.getPqcSighash prim inputIndex prevScript prevAmount sigType = .ok pqcSighash ∧
    mldsaVerify prim pqcSighash sigWithType.dropLast pubkey = true

variable {prim : Primitives} {tx : Transaction} {inputIndex : Nat} {prevScript : Bytes}
  {prevAmount : Nat}

theorem verifyEcdsaInput_eq_true {sigWithType pubkey : Bytes} :
    tx.verifyEcdsaInput prim inputIndex prevScript prevAmount sigWithType.dropLast pubkey =
        true ↔
      tx.EcdsaAccepts prim inputIndex prevScript prevAmount sigWithType pubkey := by
  rw [verifyEcdsaInput, EcdsaAccepts]
  cases decodeDerSignature sigWithType.dropLast with
  | error error => simp
  | ok rs =>
      obtain ⟨r, s⟩ := rs
      cases tx.getSighash prim inputIndex prevScript prevAmount with
      | error error => simp
      | ok sighash => simp

theorem verifyMldsaInput_eq_true {sigType : SignatureType} {sigWithType pubkey : Bytes} :
    tx.verifyMldsaInput prim inputIndex prevScript prevAmount sigType sigWithType.dropLast
        pubkey = true ↔
      tx.MldsaAccepts prim inputIndex prevScript prevAmount sigType sigWithType pubkey := by
  rw [verifyMldsaInput, MldsaAccepts]
  cases tx.getPqcSighash prim inputIndex prevScript prevAmount sigType with
  | error error => simp
  | ok pqcSighash => simp

theorem mldsaVerify_eq_true {message signature publicKey : Bytes} :
    mldsaVerify prim message signature publicKey = true ↔
      publicKey.length = publicKeyBytes ∧ signature.length = signatureBytes ∧
        prim.dilithiumVerify signature message [] publicKey = true := by
  rw [mldsaVerify]
  split_ifs with keyLength signatureLength
  · simp [keyLength]
  · simp [signatureLength]
  · simp only [ne_eq, not_not] at keyLength signatureLength
    simp [keyLength, signatureLength]

theorem MldsaAccepts.pubkey_length {sigType : SignatureType} {sigWithType pubkey : Bytes}
    (accepts : tx.MldsaAccepts prim inputIndex prevScript prevAmount sigType sigWithType
      pubkey) : pubkey.length = publicKeyBytes := by
  obtain ⟨pqcSighash, -, verified⟩ := accepts
  exact (mldsaVerify_eq_true.mp verified).1

/-! ## The three modes -/

/-- What an accepted witness looks like, by the mode of the script. -/
inductive Authorized (prim : Primitives) (tx : Transaction) (inputIndex : Nat)
    (prevAmount : Nat) : (prevScript : Bytes) → (witness : List Bytes) → Prop
  | witnessKeyHash {prevScript sigWithType pubkey : Bytes}
      (script : prevScript = [0x00, 0x14] ++ prim.hash160 pubkey)
      (accepts : tx.EcdsaAccepts prim inputIndex prevScript prevAmount sigWithType pubkey) :
      Authorized prim tx inputIndex prevAmount prevScript [sigWithType, pubkey]
  | keyHash {prevScript sigWithType pubkey : Bytes}
      (script : prevScript = [0x76, 0xa9, 0x14] ++ prim.hash160 pubkey ++ [0x88, 0xac])
      (accepts : tx.EcdsaAccepts prim inputIndex prevScript prevAmount sigWithType pubkey) :
      Authorized prim tx inputIndex prevAmount prevScript [sigWithType, pubkey]
  | mlDsa {prevScript sigWithType pubkey : Bytes}
      (script : prevScript = [0x51, 0x20] ++ prim.sha256 pubkey)
      (accepts : tx.MldsaAccepts prim inputIndex prevScript prevAmount .mlDsa sigWithType
        pubkey) :
      Authorized prim tx inputIndex prevAmount prevScript [sigWithType, pubkey]
  | hybrid {prevScript derSigWithType ecdsaPubkey mldsaSigWithType mldsaPubkey : Bytes}
      (script : prevScript = [0x52, 0x20] ++ prim.sha256 (ecdsaPubkey ++ mldsaPubkey))
      (ecdsa : tx.EcdsaAccepts prim inputIndex prevScript prevAmount derSigWithType
        ecdsaPubkey)
      (mldsa : tx.MldsaAccepts prim inputIndex prevScript prevAmount .hybrid mldsaSigWithType
        mldsaPubkey) :
      Authorized prim tx inputIndex prevAmount prevScript
        [derSigWithType, ecdsaPubkey, mldsaSigWithType, mldsaPubkey]

/-- An accepted input has a witness of one of the modes. -/
theorem authorized_of_verified
    (verified : tx.verifyInputSignature prim inputIndex prevScript prevAmount = true) :
    ∃ inp, tx.vin[inputIndex]? = some inp ∧
      Authorized prim tx inputIndex prevAmount prevScript inp.witness := by
  rw [verifyInputSignature] at verified
  split at verified
  · cases verified
  rename_i inp found
  refine ⟨inp, found, ?_⟩
  split at verified
  · -- mode 0
    split at verified
    · rename_i sigWithType pubkey witness
      rw [witness]
      split at verified
      · cases verified
      simp only at verified
      split at verified
      · cases verified
      rename_i ofKey
      have accepts := verifyEcdsaInput_eq_true.mp verified
      by_cases isWitness : prevScript = [0x00, 0x14] ++ prim.hash160 pubkey
      · exact .witnessKeyHash isWitness accepts
      · refine .keyHash ?_ accepts
        by_contra notKeyHash
        exact ofKey ⟨isWitness, notKeyHash⟩
    · cases verified
  · split at verified
    · -- mode 1
      rename_i isMldsa
      split at verified
      · rename_i sigWithType pubkey witness
        rw [witness]
        split at verified
        · cases verified
        split at verified
        · cases verified
        rename_i ofKey
        refine .mlDsa ?_ (verifyMldsaInput_eq_true.mp verified)
        rw [← isMldsa.2, not_not.mp ofKey, List.take_append_drop]
      · cases verified
    · split at verified
      · -- mode 2
        rename_i isHybrid
        split at verified
        · rename_i derSigWithType ecdsaPubkey mldsaSigWithType mldsaPubkey witness
          rw [witness]
          split at verified
          · cases verified
          split at verified
          · cases verified
          split at verified
          · cases verified
          rename_i ofKeys
          split at verified
          · cases verified
          rename_i classical
          refine .hybrid ?_ (verifyEcdsaInput_eq_true.mp (by simpa using classical))
            (verifyMldsaInput_eq_true.mp verified)
          rw [← isHybrid.2, not_not.mp ofKeys, List.take_append_drop]
        · cases verified
      · cases verified

end Transaction

/-! ## The keys of a witness -/

/-- The public keys in a witness stack. -/
def witnessKeys : List Bytes → List Bytes
  | [_, pubkey] => [pubkey]
  | [_, ecdsaPubkey, _, mldsaPubkey] => [ecdsaPubkey, mldsaPubkey]
  | _ => []

/-- One script, one choice of keys. -/
theorem Transaction.Authorized.keys_unique {prim : Primitives}
    (sha256Injective : Function.Injective prim.sha256)
    (hash160Injective : Function.Injective prim.hash160) {tx tx' : Transaction}
    {inputIndex inputIndex' prevAmount prevAmount' : Nat} {prevScript : Bytes}
    {witness witness' : List Bytes}
    (authorized : tx.Authorized prim inputIndex prevAmount prevScript witness)
    (authorized' : tx'.Authorized prim inputIndex' prevAmount' prevScript witness') :
    witnessKeys witness = witnessKeys witness' := by
  cases authorized with
  | witnessKeyHash script _ =>
      cases authorized' with
      | witnessKeyHash script' _ =>
          have same := List.append_cancel_left (script.symm.trans script')
          rw [witnessKeys, witnessKeys, hash160Injective same]
      | keyHash script' _ => simp [script] at script'
      | mlDsa script' _ => simp [script] at script'
      | hybrid script' _ _ => simp [script] at script'
  | keyHash script _ =>
      cases authorized' with
      | witnessKeyHash script' _ => simp [script] at script'
      | keyHash script' _ =>
          have same := List.append_cancel_left
            (List.append_cancel_right (script.symm.trans script'))
          rw [witnessKeys, witnessKeys, hash160Injective same]
      | mlDsa script' _ => simp [script] at script'
      | hybrid script' _ _ => simp [script] at script'
  | mlDsa script _ =>
      cases authorized' with
      | witnessKeyHash script' _ => simp [script] at script'
      | keyHash script' _ => simp [script] at script'
      | mlDsa script' _ =>
          have same := List.append_cancel_left (script.symm.trans script')
          rw [witnessKeys, witnessKeys, sha256Injective same]
      | hybrid script' _ _ => simp [script] at script'
  | hybrid script _ mldsa =>
      cases authorized' with
      | witnessKeyHash script' _ => simp [script] at script'
      | keyHash script' _ => simp [script] at script'
      | mlDsa script' _ => simp [script] at script'
      | hybrid script' _ mldsa' =>
          have same := sha256Injective (List.append_cancel_left (script.symm.trans script'))
          -- the second keys have the same length, so the strings are cut in one place
          have lengths := mldsa.pubkey_length.trans mldsa'.pubkey_length.symm
          obtain ⟨ecdsaEq, mldsaEq⟩ := List.append_inj' same lengths
          rw [witnessKeys, witnessKeys, ecdsaEq, mldsaEq]

/-- All accepted witnesses of a script carry the same public keys, and behind a
hybrid script stand a valid classical signature and a valid post-quantum
signature under these keys. -/
theorem authorization_unique {prim : Primitives}
    (sha256Injective : Function.Injective prim.sha256)
    (hash160Injective : Function.Injective prim.hash160) (prevScript : Bytes) :
    (∀ (tx tx' : Transaction) (inputIndex inputIndex' prevAmount prevAmount' : Nat)
      (inp inp' : TxIn), tx.vin[inputIndex]? = some inp → tx'.vin[inputIndex']? = some inp' →
      tx.verifyInputSignature prim inputIndex prevScript prevAmount = true →
      tx'.verifyInputSignature prim inputIndex' prevScript prevAmount' = true →
      witnessKeys inp.witness = witnessKeys inp'.witness) ∧
    ∀ program, program.length = 32 → prevScript = [0x52, 0x20] ++ program →
      ∀ (tx : Transaction) (inputIndex prevAmount : Nat),
        tx.verifyInputSignature prim inputIndex prevScript prevAmount = true →
        ∃ inp derSigWithType ecdsaPubkey mldsaSigWithType mldsaPubkey,
          tx.vin[inputIndex]? = some inp ∧
          inp.witness = [derSigWithType, ecdsaPubkey, mldsaSigWithType, mldsaPubkey] ∧
          tx.EcdsaAccepts prim inputIndex prevScript prevAmount derSigWithType ecdsaPubkey ∧
          tx.MldsaAccepts prim inputIndex prevScript prevAmount .hybrid mldsaSigWithType
            mldsaPubkey := by
  constructor
  · intro tx tx' inputIndex inputIndex' prevAmount prevAmount' inp inp' found found' verified
      verified'
    obtain ⟨_, found₁, authorized⟩ := Transaction.authorized_of_verified verified
    obtain ⟨_, found₂, authorized'⟩ := Transaction.authorized_of_verified verified'
    cases found.symm.trans found₁
    cases found'.symm.trans found₂
    exact authorized.keys_unique sha256Injective hash160Injective authorized'
  · intro program length isHybrid tx inputIndex prevAmount verified
    obtain ⟨inp, found, authorized⟩ := Transaction.authorized_of_verified verified
    generalize witnessEq : inp.witness = witness at authorized
    cases authorized with
    | witnessKeyHash script _ => simp [isHybrid] at script
    | keyHash script _ => simp [isHybrid] at script
    | mlDsa script _ => simp [isHybrid] at script
    | hybrid script ecdsa mldsa => exact ⟨inp, _, _, _, _, found, witnessEq, ecdsa, mldsa⟩

/-! ## A spend with a known key -/

/-- The signed spend with bytes in its signature script. -/
def scriptedSpend : Transaction :=
  { signedSpend.tx with vin := signedSpend.tx.vin.map fun inp => { inp with scriptSig := [0x51] } }

/-- Primitives without collisions that know the key, its signature and the
digests of the two transactions.  SHA-256 is not called for them. -/
def keyPrimitives : Primitives :=
  { Primitives.ofDigests (signedSpend.digests ++ [(scriptedSpend.serialize false,
      0xdc5507740d1b2e7a667e34bd292c17fb037123a48185d317c15a3886a1fe40a5)]) with
    sha256 := id
    hash160 := fun data => if data = sampleKey then sampleKeyHash else data ++ List.replicate 21 0
    ecdsaVerify := fun msgHash pubkey r s =>
      pubkey = sampleKey && msgHash = leBytes 32 signedSpend.sighash && r = signedSpend.r &&
        s = signedSpend.s }

theorem keyPrimitives_sha256_injective : Function.Injective keyPrimitives.sha256 :=
  Function.injective_id

theorem keyPrimitives_hash160_injective : Function.Injective keyPrimitives.hash160 := by
  intro first second same
  have short : sampleKeyHash.length = 20 := by decide
  have lengths := congrArg List.length same
  simp only [keyPrimitives] at same lengths
  split_ifs at same lengths with isFirst isSecond isSecond
  · rw [isFirst, isSecond]
  · simp [short] at lengths
  · simp [short] at lengths
  · exact List.append_cancel_right same

theorem signedSpend_verified :
    signedSpend.tx.verifyInputSignature keyPrimitives 0 ([0x00, 0x14] ++ sampleKeyHash)
      (50 * coin) = true := by
  decide

theorem scriptedSpend_verified :
    scriptedSpend.verifyInputSignature keyPrimitives 0 ([0x00, 0x14] ++ sampleKeyHash)
      (50 * coin) = true := by
  decide

/-! ## A hybrid spend -/

/-- A post-quantum key. -/
def hybridKey : Bytes := List.replicate publicKeyBytes 0x07

def hybridProgram : Bytes :=
  leBytes 32 0x6fff7256143b5a4624a60a759a576db49d25b8b2195804cdb42a79d8bdf9adf8

/-- The script of the sample key and the post-quantum key. -/
def hybridScript : Bytes := [0x52, 0x20] ++ hybridProgram

def hybridSighash : Bytes :=
  leBytes 32 0x22c48b6324c47d00967b9b8258d3ed66003fecdb38e1f7ee0d422392ba31d565

def hybridPqcSighash : Bytes :=
  leBytes 32 0x7e895f9ab58e9fdbe569ef384c8081266349a0cf8f1ef84b8bfa31926b9d7faf

/-- The signature of the sample key. -/
def hybridSignature : Nat × Nat :=
  (0xc5151ad14672596ac6c9c7daf307dd0c0f022db8e865e5755667e1f13c4dad12,
    0x1fb020417cdbe7ae8c2955eaea17221aab25b6f53f2c10ecaf4c21e54d9133fa)

def hybridDer : Bytes :=
  [0x30, 0x45, 0x02, 0x21, 0x00] ++ (leBytes 32 hybridSignature.1).reverse ++ [0x02, 0x20] ++
    (leBytes 32 hybridSignature.2).reverse

/-- A spend of an output with the hybrid script, with the given signature script. -/
def hybridSpend (scriptSig : Bytes) : Transaction :=
  { signedSpend.tx with
    vin := [⟨fundingOutpoint.1, 0, scriptSig, 0xFFFFFFFF,
      [hybridDer ++ [0x01], sampleKey, List.replicate signatureBytes 0x09 ++ [0x01],
        hybridKey]⟩] }

/-- Primitives without collisions that know both keys and both signatures. -/
def hybridPrimitives : Primitives :=
  { Primitives.ofDigests (signedSpend.digests.take 4 ++
      [(packI32 1 ++ leBytes 32 signedSpend.hashPrevouts ++ leBytes 32 signedSpend.hashSequence ++
        fundingOutpoint.1 ++ packU32 0 ++ [0x22] ++ hybridScript ++ packU64 (50 * coin) ++
        packU32 0xFFFFFFFF ++ leBytes 32 signedSpend.hashOutputs ++ packU32 0 ++ packU32 1,
        leValue hybridSighash)]) with
    sha256 := fun data =>
      if data = sampleKey ++ hybridKey then hybridProgram
      else if data = pqcDomainTag ++ [SignatureType.hybrid.toByte] ++ hybridSighash then
        hybridPqcSighash
      else data ++ List.replicate 33 0
    hash160 := keyPrimitives.hash160
    ecdsaVerify := fun msgHash pubkey r s =>
      pubkey = sampleKey && msgHash = hybridSighash && (r, s) = hybridSignature
    dilithiumVerify := fun signature message context publicKey =>
      publicKey = hybridKey && message = hybridPqcSighash && context = [] &&
        signature = List.replicate signatureBytes 0x09 }

theorem hybridPrimitives_sha256_injective : Function.Injective hybridPrimitives.sha256 := by
  have short : hybridProgram.length = 32 ∧ hybridPqcSighash.length = 32 ∧
      hybridProgram ≠ hybridPqcSighash := by decide
  obtain ⟨program, sighash, apart⟩ := short
  intro first second same
  have lengths := congrArg List.length same
  simp only [hybridPrimitives] at same lengths
  split_ifs at same lengths with isProgram isProgram' isSighash' isSighash isProgram' isSighash'
  · rw [isProgram, isProgram']
  · exact absurd same apart
  · simp [program] at lengths
  · exact absurd same.symm apart
  · rw [isSighash, isSighash']
  · simp [sighash] at lengths
  · simp [program] at lengths
  · simp [sighash] at lengths
  · exact List.append_cancel_right same

/-- Both spends are accepted: no signature covers a signature script. -/
theorem hybridSpend_verified :
    (hybridSpend []).verifyInputSignature hybridPrimitives 0 hybridScript (50 * coin) = true ∧
      (hybridSpend [0x51]).verifyInputSignature hybridPrimitives 0 hybridScript (50 * coin) =
        true := by
  decide +kernel

/-- The keys that spend an output are the same in both transactions, for the script of one
key and for the hybrid script, where both signatures are valid. -/
theorem sampleSpends_keys :
    scriptedSpend.vin.map (fun inp => witnessKeys inp.witness) = [[sampleKey]] ∧
      (hybridSpend [0x51]).vin.map (fun inp => witnessKeys inp.witness) =
        (hybridSpend []).vin.map (fun inp => witnessKeys inp.witness) ∧
      ∃ inp derSigWithType ecdsaPubkey mldsaSigWithType mldsaPubkey,
        (hybridSpend []).vin[0]? = some inp ∧
        inp.witness = [derSigWithType, ecdsaPubkey, mldsaSigWithType, mldsaPubkey] ∧
        (hybridSpend []).EcdsaAccepts hybridPrimitives 0 hybridScript (50 * coin)
          derSigWithType ecdsaPubkey ∧
        (hybridSpend []).MldsaAccepts hybridPrimitives 0 hybridScript (50 * coin) .hybrid
          mldsaSigWithType mldsaPubkey := by
  have keys := (authorization_unique keyPrimitives_sha256_injective
    keyPrimitives_hash160_injective _).1 scriptedSpend signedSpend.tx 0 0 (50 * coin)
      (50 * coin) _ _ rfl rfl scriptedSpend_verified signedSpend_verified
  obtain ⟨unique, bothSigned⟩ := authorization_unique hybridPrimitives_sha256_injective
    keyPrimitives_hash160_injective hybridScript
  obtain ⟨verified, verified'⟩ := hybridSpend_verified
  have hybridKeys := unique (hybridSpend [0x51]) (hybridSpend []) 0 0 (50 * coin) (50 * coin) _ _
    rfl rfl verified' verified
  exact ⟨congrArg (fun found => [found]) keys, congrArg (fun found => [found]) hybridKeys,
    bothSigned hybridProgram (by decide) rfl (hybridSpend []) 0 (50 * coin) verified⟩

end QuantyCoin
