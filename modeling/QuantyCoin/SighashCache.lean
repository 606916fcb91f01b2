import QuantyCoin.ScriptSigning
import QuantyCoin.SlotCache

/-!
# The cache of signature hashes

`SignatureHash`, `SigHashCache`, `CTransactionSignatureSerializer` and
`PrecomputedTransactionData::Init` of `script/interpreter.cpp`.  Both
serialisations end with the hash type.  What comes before depends on the type only
through three flags, and the six slots of the cache are the combinations of these
flags, so a state of the hasher that was stored for one type can be used for another.

A `HashWriter` is the bytes written to it.  Nothing is returned where an assertion
fails or a vector is read behind its end.
-/

namespace QuantyCoin

open ByteDecoder

/-! ## Transactions -/

/-- `COutPoint`. -/
structure COutPoint where
  hash : Uint256
  n : UInt32
  deriving DecidableEq

/-- `CTxIn`, without the `scriptSig`. -/
structure CTxIn where
  prevout : COutPoint
  nSequence : UInt32
  scriptWitness : List Bytes
  deriving DecidableEq

/-- `CTxOut`. -/
structure CTxOut where
  nValue : Int64
  scriptPubKey : Bytes
  deriving DecidableEq

/-- `CTransaction` and `CMutableTransaction`. -/
structure CTransaction where
  nVersion : Int32
  vin : List CTxIn
  vout : List CTxOut
  nLockTime : UInt32

/-- `CTxOut()`. -/
def CTxOut.null : CTxOut := ⟨-1, []⟩

/-- `uint256::ONE`. -/
def Uint256.one : Uint256 := ⟨1 :: List.replicate 31 0, rfl⟩

/-- A signed 64-bit integer, in little-endian order. -/
def serializeI64 (value : Int64) : Bytes := leBytes 8 value.toUInt64.toNat

def COutPoint.serialize (prevout : COutPoint) : Bytes := prevout.hash.bytes ++ packU32 prevout.n

def CTxOut.serialize (out : CTxOut) : Bytes :=
  serializeI64 out.nValue ++ encodeBytes out.scriptPubKey

/-! ## Hash types -/

def sighashNone : Int32 := 2
def sighashSingle : Int32 := 3
def sighashAnyonecanpay : Int32 := 0x80

/-- `nHashType & SIGHASH_ANYONECANPAY`. -/
def anyoneCanPay (nHashType : Int32) : Bool := nHashType &&& sighashAnyonecanpay ≠ 0

/-- `(nHashType & 0x1f) == SIGHASH_SINGLE`. -/
def hashesSingle (nHashType : Int32) : Bool := nHashType &&& 0x1f = sighashSingle

/-- `(nHashType & 0x1f) == SIGHASH_NONE`. -/
def hashesNone (nHashType : Int32) : Bool := nHashType &&& 0x1f = sighashNone

/-! ## The serialisation of scripts before version 0 -/

def opCodeseparator : UInt8 := 0xab

/-- How far a failing `GetOp` has come. -/
def passedByFailure : Bytes → Bytes
  | [] => []
  | opcode :: rest =>
      if rest.length < lengthBytes opcode then [opcode]
      else opcode :: rest.take (lengthBytes opcode)

/-- `nCodeSeparators`. -/
def codeSeparators (script : Bytes) : Nat :=
  match _found : getScriptOp script with
  | none => 0
  | some (opcode, _, rest) =>
      codeSeparators rest + if opcode = opCodeseparator then 1 else 0
termination_by script.length
decreasing_by exact getScriptOp_shorter ‹_›

/-- The second loop of `SerializeScriptCode` and the write behind it.  What stands
between `itBegin` and `it` is pending. -/
def writeScriptCode (pending script : Bytes) : Bytes :=
  match _found : getScriptOp script with
  | none => pending ++ passedByFailure script
  | some (opcode, _, rest) =>
      let passed := pending ++ script.take (script.length - rest.length)
      if opcode = opCodeseparator then passed.dropLast ++ writeScriptCode [] rest
      else writeScriptCode passed rest
termination_by script.length
decreasing_by all_goals exact getScriptOp_shorter ‹_›

structure CTransactionSignatureSerializer where
  txTo : CTransaction
  scriptCode : Bytes
  nIn : UInt32
  fAnyoneCanPay : Bool
  fHashSingle : Bool
  fHashNone : Bool

namespace CTransactionSignatureSerializer

/-- The constructor. -/
def ofHashType (txTo : CTransaction) (scriptCode : Bytes) (nIn : UInt32) (nHashType : Int32) :
    CTransactionSignatureSerializer :=
  ⟨txTo, scriptCode, nIn, anyoneCanPay nHashType, hashesSingle nHashType, hashesNone nHashType⟩

variable (txTmp : CTransactionSignatureSerializer)

def serializeScriptCode : Bytes :=
  encodeVarint (txTmp.scriptCode.length - codeSeparators txTmp.scriptCode) ++
    writeScriptCode [] txTmp.scriptCode

def serializeInput (nInput : Nat) : Option Bytes := do
  let nInput := if txTmp.fAnyoneCanPay then txTmp.nIn.toNat else nInput
  let txin ← txTmp.txTo.vin[nInput]?
  some (txin.prevout.serialize ++
    (if nInput ≠ txTmp.nIn.toNat then encodeBytes [] else txTmp.serializeScriptCode) ++
    (if nInput ≠ txTmp.nIn.toNat ∧ (txTmp.fHashSingle || txTmp.fHashNone) then packI32 0
      else packU32 txin.nSequence))

def serializeOutput (nOutput : Nat) : Option Bytes :=
  if txTmp.fHashSingle ∧ nOutput ≠ txTmp.nIn.toNat then some CTxOut.null.serialize
  else txTmp.txTo.vout[nOutput]?.map CTxOut.serialize

def nInputs : UInt32 :=
  if txTmp.fAnyoneCanPay then 1 else UInt32.ofNat txTmp.txTo.vin.length

def nOutputs : UInt32 :=
  if txTmp.fHashNone then 0
  else if txTmp.fHashSingle then txTmp.nIn + 1
  else UInt32.ofNat txTmp.txTo.vout.length

def serialize : Option Bytes := do
  let inputs ← (List.range txTmp.nInputs.toNat).mapM txTmp.serializeInput
  let outputs ← (List.range txTmp.nOutputs.toNat).mapM txTmp.serializeOutput
  some (packI32 txTmp.txTo.nVersion ++
    encodeVarint txTmp.nInputs.toNat ++ inputs.flatten ++
    encodeVarint txTmp.nOutputs.toNat ++ outputs.flatten ++
    packU32 txTmp.txTo.nLockTime)

end CTransactionSignatureSerializer

/-! ## The data of a transaction -/

section Hashing

variable (sha256 : Bytes → Uint256)

/-- `HashWriter::GetHash`. -/
def getHash (written : Bytes) : Uint256 := sha256 (sha256 written).bytes

def getPrevoutsSHA256 (txTo : CTransaction) : Uint256 :=
  sha256 (txTo.vin.flatMap fun txin => txin.prevout.serialize)

def getSequencesSHA256 (txTo : CTransaction) : Uint256 :=
  sha256 (txTo.vin.flatMap fun txin => packU32 txin.nSequence)

def getOutputsSHA256 (txTo : CTransaction) : Uint256 :=
  sha256 (txTo.vout.flatMap CTxOut.serialize)

/-- `SHA256Uint256`. -/
def sha256Uint256 (input : Uint256) : Uint256 := sha256 input.bytes

/-- `PrecomputedTransactionData`, as far as `SignatureHash` reads it. -/
structure PrecomputedTransactionData where
  hashPrevouts : Uint256
  hashSequence : Uint256
  hashOutputs : Uint256
  bip143SegwitReady : Bool

/-- `PrecomputedTransactionData()`. -/
def PrecomputedTransactionData.default : PrecomputedTransactionData :=
  ⟨.null, .null, .null, false⟩

/-- An output with the size and the first byte of a version 1 or version 2 program. -/
def looksLikeTaproot (spent : CTxOut) : Bool :=
  spent.scriptPubKey.length = 34 &&
    (spent.scriptPubKey[0]? = some op1 || spent.scriptPubKey[0]? = some op2)

/-- The loop of `Init`, for `uses_bip143_segwit` behind it.  The other flag starts
with the same value, and an input that sets it leaves this one alone. -/
def usesBip143Segwit (force : Bool) (vin : List CTxIn) (spentOutputs : List CTxOut) : Bool :=
  force || (List.range vin.length).any fun inpos =>
    vin[inpos]?.any (fun txin => !txin.scriptWitness.isEmpty) &&
      !spentOutputs[inpos]?.any looksLikeTaproot

/-- `PrecomputedTransactionData::Init` on fresh data. -/
def PrecomputedTransactionData.init (txTo : CTransaction) (spentOutputs : List CTxOut)
    (force : Bool) : Option PrecomputedTransactionData :=
  if spentOutputs ≠ [] ∧ spentOutputs.length ≠ txTo.vin.length then none
  else if usesBip143Segwit force txTo.vin spentOutputs then
    some ⟨sha256Uint256 sha256 (getPrevoutsSHA256 sha256 txTo),
      sha256Uint256 sha256 (getSequencesSHA256 sha256 txTo),
      sha256Uint256 sha256 (getOutputsSHA256 sha256 txTo), true⟩
  else some .default

/-- Hashes that are ready are those of the transaction. -/
structure PrecomputedTransactionData.Describes (data : PrecomputedTransactionData)
    (txTo : CTransaction) : Prop where
  prevouts : data.bip143SegwitReady →
    data.hashPrevouts = sha256Uint256 sha256 (getPrevoutsSHA256 sha256 txTo)
  sequences : data.bip143SegwitReady →
    data.hashSequence = sha256Uint256 sha256 (getSequencesSHA256 sha256 txTo)
  outputs : data.bip143SegwitReady →
    data.hashOutputs = sha256Uint256 sha256 (getOutputsSHA256 sha256 txTo)

end Hashing

theorem PrecomputedTransactionData.default_describes (sha256 : Bytes → Uint256)
    (txTo : CTransaction) : PrecomputedTransactionData.default.Describes sha256 txTo := by
  constructor <;> intro ready <;> cases ready

/-- `Init` computes the data of its transaction. -/
theorem PrecomputedTransactionData.init_describes {sha256 : Bytes → Uint256}
    {txTo : CTransaction} {spentOutputs : List CTxOut} {force : Bool}
    {data : PrecomputedTransactionData}
    (initialized : init sha256 txTo spentOutputs force = some data) :
    data.Describes sha256 txTo := by
  rw [init] at initialized
  split_ifs at initialized
  · cases initialized
    exact ⟨fun _ => rfl, fun _ => rfl, fun _ => rfl⟩
  · cases initialized
    exact default_describes sha256 txTo

/-! ## The cache -/

/-- `SigHashCache::CacheIndex`. -/
def cacheIndex (hashType : Int32) : Nat :=
  3 * (anyoneCanPay hashType).toNat + 2 * (hashesSingle hashType).toNat +
    1 * (hashesNone hashType).toNat

/-- A type is not both. -/
theorem hashesNone_of_hashesSingle {hashType : Int32} (single : hashesSingle hashType = true) :
    hashesNone hashType = false := by
  have both : hashType &&& 0x1f = sighashSingle := by simpa [hashesSingle] using single
  rw [hashesNone, both]
  decide

theorem cacheIndex_lt (hashType : Int32) : cacheIndex hashType < 6 := by
  have exclusive := @hashesNone_of_hashesSingle hashType
  rw [cacheIndex]
  generalize hashesSingle hashType = single, hashesNone hashType = blank at exclusive ⊢
  generalize anyoneCanPay hashType = anyone
  revert anyone single blank
  decide

/-- A slot of the cache is one combination of the flags. -/
theorem cacheIndex_eq_iff {first second : Int32} :
    cacheIndex first = cacheIndex second ↔
      anyoneCanPay first = anyoneCanPay second ∧ hashesSingle first = hashesSingle second ∧
        hashesNone first = hashesNone second := by
  have firstExclusive := @hashesNone_of_hashesSingle first
  have secondExclusive := @hashesNone_of_hashesSingle second
  rw [cacheIndex, cacheIndex]
  generalize hashesSingle first = single, hashesNone first = blank at firstExclusive ⊢
  generalize hashesSingle second = single', hashesNone second = blank' at secondExclusive ⊢
  generalize anyoneCanPay first = anyone, anyoneCanPay second = anyone'
  revert anyone single blank anyone' single' blank'
  decide

/-- `m_cache_entries`. -/
abbrev SigHashCache := SlotCache.Cache (Fin 6) (SigVersion × Bytes) Bytes

namespace SigHashCache

/-- The slot of a hash type. -/
def slot (hashType : Int32) : Fin 6 := ⟨cacheIndex hashType, cacheIndex_lt hashType⟩

/-- `SigHashCache::Load`. -/
def load (cache : SigHashCache) (hashType : Int32) (sigversion : SigVersion)
    (scriptCode : Bytes) : Option Bytes :=
  SlotCache.load cache (slot hashType) (sigversion, scriptCode)

/-- `SigHashCache::Store`. -/
def store (cache : SigHashCache) (hashType : Int32) (sigversion : SigVersion)
    (scriptCode writer : Bytes) : SigHashCache :=
  SlotCache.store cache (slot hashType) (sigversion, scriptCode) writer

end SigHashCache

/-! ## `SignatureHash` -/

section Calls

variable (sha256 : Bytes → Uint256)

/-- The branch of `SignatureHash` for `WITNESS_V0`. -/
def writeWitnessV0 (scriptCode : Bytes) (txTo : CTransaction) (nIn : UInt32) (nHashType : Int32)
    (amount : Int64) (cache : Option PrecomputedTransactionData) : Option Bytes := do
  let ready := cache.filter PrecomputedTransactionData.bip143SegwitReady
  let hashPrevouts :=
    if !anyoneCanPay nHashType then
      (ready.map PrecomputedTransactionData.hashPrevouts).getD
        (sha256Uint256 sha256 (getPrevoutsSHA256 sha256 txTo))
    else .null
  let hashSequence :=
    if !anyoneCanPay nHashType && !hashesSingle nHashType && !hashesNone nHashType then
      (ready.map PrecomputedTransactionData.hashSequence).getD
        (sha256Uint256 sha256 (getSequencesSHA256 sha256 txTo))
    else .null
  let hashOutputs :=
    if !hashesSingle nHashType && !hashesNone nHashType then
      (ready.map PrecomputedTransactionData.hashOutputs).getD
        (sha256Uint256 sha256 (getOutputsSHA256 sha256 txTo))
    else if hashesSingle nHashType then
      (txTo.vout[nIn.toNat]?.map fun out => getHash sha256 out.serialize).getD .null
    else .null
  let txin ← txTo.vin[nIn.toNat]?
  some (packI32 txTo.nVersion ++ hashPrevouts.bytes ++ hashSequence.bytes ++
    txin.prevout.serialize ++ encodeBytes scriptCode ++ serializeI64 amount ++
    packU32 txin.nSequence ++ hashOutputs.bytes ++ packU32 txTo.nLockTime)

/-- Everything that is written before the hash type. -/
def writeMidstate (scriptCode : Bytes) (txTo : CTransaction) (nIn : UInt32) (nHashType : Int32)
    (amount : Int64) (sigversion : SigVersion) (cache : Option PrecomputedTransactionData) :
    Option Bytes :=
  if sigversion = .witnessV0 then
    writeWitnessV0 sha256 scriptCode txTo nIn nHashType amount cache
  else (CTransactionSignatureSerializer.ofHashType txTo scriptCode nIn nHashType).serialize

/-- The sentinel is returned in place of a hash. -/
def outOfRange (txTo : CTransaction) (nIn : UInt32) (nHashType : Int32)
    (sigversion : SigVersion) : Bool :=
  sigversion ≠ .witnessV0 && hashesSingle nHashType && txTo.vout.length ≤ nIn.toNat

/-- `SignatureHash`, with the cache behind the call. -/
def signatureHash (scriptCode : Bytes) (txTo : CTransaction) (nIn : UInt32) (nHashType : Int32)
    (amount : Int64) (sigversion : SigVersion) (cache : Option PrecomputedTransactionData)
    (sighashCache : Option SigHashCache) : Option (Uint256 × Option SigHashCache) :=
  if ¬ nIn.toNat < txTo.vin.length then none
  else if outOfRange txTo nIn nHashType sigversion then some (Uint256.one, sighashCache)
  else
    match sighashCache.bind fun entries => entries.load nHashType sigversion scriptCode with
    | some ss => some (getHash sha256 (ss ++ packI32 nHashType), sighashCache)
    | none => do
        let ss ← writeMidstate sha256 scriptCode txTo nIn nHashType amount sigversion cache
        some (getHash sha256 (ss ++ packI32 nHashType),
          sighashCache.map fun entries => entries.store nHashType sigversion scriptCode ss)

/-- The arguments of a call that differ between the signatures of an input. -/
structure SighashCall (txTo : CTransaction) where
  scriptCode : Bytes
  nHashType : Int32
  sigversion : SigVersion
  cache : Option {data : PrecomputedTransactionData // data.Describes sha256 txTo}

variable {sha256} {txTo : CTransaction}

/-- The argument `cache`. -/
def SighashCall.data (call : SighashCall sha256 txTo) : Option PrecomputedTransactionData :=
  call.cache.map Subtype.val

/-- `SignatureHash` with the arguments of a call. -/
def SighashCall.signatureHash (nIn : UInt32) (amount : Int64) (call : SighashCall sha256 txTo)
    (sighashCache : Option SigHashCache) : Option (Uint256 × Option SigHashCache) :=
  QuantyCoin.signatureHash sha256 call.scriptCode txTo nIn call.nHashType amount call.sigversion
    call.data sighashCache

/-- Calls one after the other, which hand on the cache. -/
def signatureHashes (nIn : UInt32) (amount : Int64) :
    Option SigHashCache → List (SighashCall sha256 txTo) → Option (List Uint256)
  | _, [] => some []
  | sighashCache, call :: calls => do
      let (hash, sighashCache) ← call.signatureHash nIn amount sighashCache
      let hashes ← signatureHashes nIn amount sighashCache calls
      some (hash :: hashes)

end Calls

/-! ## What the hash type decides -/

section Transparent

variable {sha256 : Bytes → Uint256} {txTo : CTransaction} {nIn : UInt32} {amount : Int64}

/-- What a call writes before the hash type. -/
def SighashCall.midstate (nIn : UInt32) (amount : Int64) (call : SighashCall sha256 txTo) :
    Option Bytes :=
  writeMidstate sha256 call.scriptCode txTo nIn call.nHashType amount call.sigversion
    call.data

/-- Data of the transaction changes nothing. -/
theorem writeWitnessV0_describes {data : PrecomputedTransactionData}
    (describes : data.Describes sha256 txTo) (scriptCode : Bytes) (nHashType : Int32) :
    writeWitnessV0 sha256 scriptCode txTo nIn nHashType amount (some data) =
      writeWitnessV0 sha256 scriptCode txTo nIn nHashType amount none := by
  cases ready : data.bip143SegwitReady with
  | false => simp [writeWitnessV0, Option.filter, ready]
  | true =>
      simp [writeWitnessV0, Option.filter, ready, describes.prevouts ready,
        describes.sequences ready, describes.outputs ready]

theorem SighashCall.midstate_eq (call : SighashCall sha256 txTo) :
    call.midstate nIn amount =
      writeMidstate sha256 call.scriptCode txTo nIn call.nHashType amount call.sigversion none := by
  rw [midstate, data]
  rcases call.cache with _ | ⟨data, describes⟩
  · rfl
  · simp only [Option.map_some, writeMidstate, writeWitnessV0_describes describes]

/-- What is written before the hash type depends on it only through the slot. -/
theorem writeMidstate_slot {first second : Int32}
    (same : SigHashCache.slot first = SigHashCache.slot second) (scriptCode : Bytes)
    (sigversion : SigVersion) (cache : Option PrecomputedTransactionData) :
    writeMidstate sha256 scriptCode txTo nIn first amount sigversion cache =
      writeMidstate sha256 scriptCode txTo nIn second amount sigversion cache := by
  obtain ⟨anyone, single, blank⟩ := cacheIndex_eq_iff.mp (Fin.mk.inj same)
  simp only [writeMidstate, writeWitnessV0, CTransactionSignatureSerializer.ofHashType, anyone,
    single, blank]

/-- The slot, the version and the script decide what a call stores. -/
theorem midstate_determined :
    SlotCache.Determined (fun call : SighashCall sha256 txTo => SigHashCache.slot call.nHashType)
      (fun call => (call.sigversion, call.scriptCode)) (SighashCall.midstate nIn amount) := by
  intro first second slots keys
  obtain ⟨versions, scripts⟩ := Prod.mk.inj keys
  rw [first.midstate_eq, second.midstate_eq, versions, scripts]
  exact writeMidstate_slot slots second.scriptCode second.sigversion none

/-- The entries of a cache are what the calls of an input write. -/
abbrev SigHashCache.Sound (sha256 : Bytes → Uint256) (txTo : CTransaction) (nIn : UInt32)
    (amount : Int64) (cache : SigHashCache) : Prop :=
  SlotCache.Sound (fun call : SighashCall sha256 txTo => SigHashCache.slot call.nHashType)
    (fun call => (call.sigversion, call.scriptCode)) (SighashCall.midstate nIn amount) cache

/-- A call with a sound cache returns what it returns without one, and leaves the
cache sound. -/
theorem SighashCall.signatureHash_sound {cache : SigHashCache}
    (sound : cache.Sound sha256 txTo nIn amount) (call : SighashCall sha256 txTo) :
    (call.signatureHash nIn amount (some cache)).map Prod.fst =
        (call.signatureHash nIn amount none).map Prod.fst ∧
      ∀ hash after, call.signatureHash nIn amount (some cache) = some (hash, after) →
        ∃ entries, after = some entries ∧ SigHashCache.Sound sha256 txTo nIn amount entries := by
  simp only [SighashCall.signatureHash, QuantyCoin.signatureHash]
  split_ifs with outside sentinel
  · refine ⟨rfl, fun hash after returned => ?_⟩
    cases returned
    exact ⟨cache, rfl, sound⟩
  · have loads : (some cache).bind (fun entries : SigHashCache =>
        entries.load call.nHashType call.sigversion call.scriptCode) =
          cache.load call.nHashType call.sigversion call.scriptCode := rfl
    rw [loads]
    cases loaded : cache.load call.nHashType call.sigversion call.scriptCode with
    | some ss =>
        have written : call.midstate nIn amount = some ss := sound call ss loaded
        rw [SighashCall.midstate] at written
        refine ⟨by simp [written], fun hash after returned => ?_⟩
        cases returned
        exact ⟨cache, rfl, sound⟩
    | none =>
        cases written : call.midstate nIn amount with
        | none =>
            rw [SighashCall.midstate] at written
            exact ⟨by simp [written], fun hash after returned => by simp [written] at returned⟩
        | some ss =>
            have stored := SlotCache.Sound.store midstate_determined sound written
            rw [SighashCall.midstate] at written
            refine ⟨by simp [written], fun hash after returned => ?_⟩
            simp only [written, Option.bind_eq_bind, Option.bind_some, Option.map_some,
              Option.some.injEq, Prod.mk.injEq] at returned
            exact ⟨_, returned.2.symm, stored⟩
  · exact ⟨rfl, fun hash after returned => by cases returned⟩

/-- The run lemma, from any sound cache. -/
theorem signatureHashes_sound {cache : SigHashCache} (sound : cache.Sound sha256 txTo nIn amount)
    (calls : List (SighashCall sha256 txTo)) :
    signatureHashes nIn amount (some cache) calls =
      calls.mapM fun call => (call.signatureHash nIn amount none).map Prod.fst := by
  induction calls generalizing cache with
  | nil => rfl
  | cons call calls ih =>
      obtain ⟨same, kept⟩ := call.signatureHash_sound sound
      rw [signatureHashes, List.mapM_cons, ← same]
      cases returned : call.signatureHash nIn amount (some cache) with
      | none => rfl
      | some result =>
          obtain ⟨hash, after⟩ := result
          obtain ⟨entries, rfl, soundAfter⟩ := kept hash after returned
          simp only [Option.bind_eq_bind, Option.bind_some, Option.map_some, ih soundAfter]
          rfl

end Transparent

/-- Calls that share a cache return what they return without one. -/
theorem signatureHashes_transparent (sha256 : Bytes → Uint256) (txTo : CTransaction)
    (nIn : UInt32) (amount : Int64) (calls : List (SighashCall sha256 txTo)) :
    signatureHashes nIn amount (some SlotCache.empty) calls =
      calls.mapM fun call => (call.signatureHash nIn amount none).map Prod.fst :=
  signatureHashes_sound SlotCache.sound_empty calls

end QuantyCoin
