import QuantyCoin.ScriptSolver
import QuantyCoin.ConsensusParameters

/-!
# Signing of scripts

`script/sign.cpp`: `ProduceSignature`, `SignStep` and the functions they call, with
the assertions and exceptions of the source as failures.  `SignStep` comes back to itself through
the leaves of a script tree.  The functions in between take this call as an argument,
and `signStep` closes the recursion with a bound on its depth.
-/

namespace QuantyCoin

open ByteDecoder

/-! ## Signature data -/

/-- Why a call gives no result: an assertion of the source is false, a `CHECK_NONFATAL`
throws, or the calls of `SignStep` are nested deeper than the bound. -/
inductive Halt
  | assertion
  | nonFatalCheck
  | outOfFuel
  deriving DecidableEq

/-- `assert`. -/
def assertThat (condition : Prop) [Decidable condition] : Except Halt Unit :=
  if condition then .ok () else .error .assertion

inductive SigVersion
  | base
  | witnessV0
  | taproot
  | tapscript
  | p2mrTapscript
  deriving DecidableEq

structure KeyOriginInfo where
  fingerprint : Bytes
  path : List UInt32

/-- The `scripts` of spend data: the control blocks of every script and leaf version. -/
abbrev LeafScripts := List ((Bytes × UInt8) × List Bytes)

/-- `scripts[key].merge(values)`. -/
def mergeEntry (entry : (Bytes × UInt8) × List Bytes) : LeafScripts → LeafScripts
  | [] => [(entry.1, entry.2.foldr (setInsert shortestVectorFirst) [])]
  | first :: rest =>
      if entry.1 = first.1 then
        (first.1, entry.2.foldr (setInsert shortestVectorFirst) first.2) :: rest
      else if leafKeyLess entry.1 first.1 then
        (entry.1, entry.2.foldr (setInsert shortestVectorFirst) []) :: first :: rest
      else first :: mergeEntry entry rest

/-- The loop of `Merge` over the scripts of the other spend data. -/
def mergeScripts (scripts other : LeafScripts) : LeafScripts :=
  other.foldl (fun scripts entry => mergeEntry entry scripts) scripts

/-- `P2MRSpendData::Merge`. -/
def P2MRSpendData.merge (data other : P2MRSpendData) : P2MRSpendData where
  merkleRoot := if data.merkleRoot = .null then other.merkleRoot else data.merkleRoot
  scripts := mergeScripts data.scripts other.scripts

/-- The scripts with their leaf versions, in the order of the map. -/
def P2MRSpendData.leaves (data : P2MRSpendData) : List (Bytes × UInt8) :=
  data.scripts.map Prod.fst

/-- `TaprootSpendData`. -/
structure TaprootSpendData where
  internalKey : Uint256
  merkleRoot : Uint256
  scripts : LeafScripts

/-- `TaprootSpendData::Merge`. -/
def TaprootSpendData.merge (data other : TaprootSpendData) : TaprootSpendData where
  internalKey := if data.internalKey = .null then other.internalKey else data.internalKey
  merkleRoot := if data.merkleRoot = .null then other.merkleRoot else data.merkleRoot
  scripts := mergeScripts data.scripts other.scripts

/-- `SignatureData`.  A `std::map` that is only searched is a function.  The Taproot
builder is written and never read.  The preimages of hashes are only read by Miniscript. -/
structure SignatureData where
  complete : Bool
  witness : Bool
  scriptSig : Bytes
  redeemScript : Bytes
  witnessScript : Bytes
  scriptWitness : List Bytes
  trSpenddata : TaprootSpendData
  p2mrSpenddata : P2MRSpendData
  signatures : Bytes → Option (Bytes × Bytes)
  miscPubkeys : Bytes → Option (Bytes × KeyOriginInfo)
  dilithiumSignatures : Bytes → Option (Bytes × Bytes)
  p2mrDilithiumScriptSigs : Bytes × Uint256 → Option (Bytes × Bytes)
  dilithiumMiscPubkeys : Bytes → Option (Bytes × KeyOriginInfo)
  taprootKeyPathSig : Bytes
  taprootScriptSigs : Uint256 × Uint256 → Option Bytes
  taprootMiscPubkeys : Uint256 → Option (List Uint256 × KeyOriginInfo)
  tapPubkeys : Bytes → Option Uint256
  missingPubkeys : List Bytes
  missingSigs : List Bytes
  missingDilithiumPubkeys : List Bytes
  missingDilithiumSigs : List Bytes
  missingRedeemScript : Bytes
  missingWitnessScript : Bytes

/-- `std::map::emplace`, which keeps a value that is there. -/
def emplace {α β : Type} [DecidableEq α] (map : α → Option β) (key : α) (value : β) :
    α → Option β :=
  if (map key).isSome then map else Function.update map key (some value)

/-! ## What signing depends on -/

/-- `CKey`, by what it computes. -/
structure CKey where
  isCompressed : Bool
  sign : Uint256 → Option Bytes
  signSchnorr : Uint256 → Option Uint256 → Option Bytes

/-- `CDilithiumKey`, by what it computes. -/
structure CDilithiumKey where
  sign : Uint256 → Option Bytes

/-- `SigningProvider`. -/
structure SigningProvider where
  getCScript : Bytes → Option Bytes
  getPubKey : Bytes → Option Bytes
  getKey : Bytes → Option CKey
  getKeyOrigin : Bytes → Option KeyOriginInfo
  getTaprootSpendData : Uint256 → Option TaprootSpendData
  getP2MRSpendData : Uint256 → Option P2MRSpendData
  getDilithiumPubKey : Bytes → Option Bytes
  getDilithiumKeyByHash : Bytes → Option CDilithiumKey
  getDilithiumKeyOrigin : Bytes → Option KeyOriginInfo

/-- `MutableTransactionSignatureCreator`, with the signature hashes of its
transaction and input.  `SignatureHashSchnorr` treats the two tapscript versions
alike, so that it depends on the leaf only. -/
structure MutableTransactionSignatureCreator where
  nHashType : Int
  amount : Int
  txdataReady : Bool
  signatureHash : Bytes → Int → SigVersion → Uint256
  signatureHashSchnorr : Option Uint256 → UInt8 → Option Uint256

/-- The outcome of `FromScript` and `Satisfy`: whether a satisfaction was found,
the stack, the keys that were asked for a signature and the key hashes without a key. -/
structure Satisfaction (Key : Type) where
  available : Bool
  stack : List Bytes
  signed : List Key
  missingPubkeys : List Bytes

/-- Miniscript leaves the script to the solver. -/
def Satisfaction.deferred {Key : Type} (satisfaction : Satisfaction Key) : Bool :=
  !satisfaction.available && satisfaction.stack.isEmpty

/-- Miniscript of `script/miniscript.h` for one type of keys, given by what it makes
of a script, the keys behind key hashes and the signatures that keys give.  It makes
nothing of a script on which it throws, such as a leaf of a script tree with a key of
33 bytes (`TapSatisfier::FromPKBytes`).  Whether it throws, and whether it satisfies the
script, depends on which keys sign, and not on the bytes of their signatures. -/
structure Miniscript (Key : Type) where
  satisfy : Bytes → (Bytes → Option Bytes) → (Key → Option Bytes) → Option (Satisfaction Key)
  deferred_congr : ∀ script pubkeys sign sign',
    (∀ key, (sign key).isSome = (sign' key).isSome) →
      (satisfy script pubkeys sign).map Satisfaction.deferred =
        (satisfy script pubkeys sign').map Satisfaction.deferred

/-- What a call of `ProduceSignature` depends on besides its arguments. -/
structure Signing where
  hashes : ScriptHashes
  hash160 : Bytes → Bytes
  ripemd160 : Bytes → Bytes
  provider : SigningProvider
  creator : MutableTransactionSignatureCreator
  wshMiniscript : Miniscript Bytes
  tapMiniscript : Miniscript Uint256
  verifyScript : Bytes → Bytes → List Bytes → Bool

/-- What the signing functions give: whether they succeeded, the stack and the data. -/
structure SignResult where
  solved : Bool
  result : List Bytes
  sigdata : SignatureData

/-- The type of `SignStep`: script, version, data and the hash of the leaf. -/
abbrev Step := Bytes → SigVersion → SignatureData → Option Uint256 → Except Halt SignResult

namespace Signing

variable (signing : Signing)

/-! ## Signatures -/

/-- `GetCScript`. -/
def getCScript (sigdata : SignatureData) (scriptId : Bytes) : Option Bytes :=
  match signing.provider.getCScript scriptId with
  | some script => some script
  | none =>
      if signing.hash160 sigdata.redeemScript = scriptId then some sigdata.redeemScript
      else if signing.hash160 sigdata.witnessScript = scriptId then some sigdata.witnessScript
      else none

/-- `GetPubKey`. -/
def getPubKey (sigdata : SignatureData) (address : Bytes) : Option Bytes :=
  (sigdata.signatures address).map Prod.fst <|>
    (sigdata.miscPubkeys address).map Prod.fst <|>
    (sigdata.tapPubkeys address).map (fun key => 0x02 :: key.bytes) <|>
    signing.provider.getPubKey address

/-- `GetDilithiumPubKey`. -/
def getDilithiumPubKey (sigdata : SignatureData) (address : Bytes) : Option Bytes :=
  (sigdata.dilithiumSignatures address).map Prod.fst <|>
    (sigdata.dilithiumMiscPubkeys address).map Prod.fst <|>
    signing.provider.getDilithiumPubKey address

/-- `XOnlyPubKey::GetKeyIDs`. -/
def keyIds (key : Uint256) : List Bytes :=
  [signing.hash160 (0x02 :: key.bytes), signing.hash160 (0x03 :: key.bytes)]

/-- The hash type of signatures that cannot leave it out. -/
def explicitHashType : Int :=
  if signing.creator.nHashType = 0 then 1 else signing.creator.nHashType

/-- `(unsigned char)hashtype`. -/
def hashTypeByte (hashType : Int) : UInt8 := UInt8.ofNat (hashType % 256).toNat

/-- `MutableTransactionSignatureCreator::CreateSig`. -/
def creatorCreateSig (keyId script : Bytes) (version : SigVersion) :
    Except Halt (Option Bytes) := do
  assertThat (version = .base ∨ version = .witnessV0)
  match signing.provider.getKey keyId with
  | none => return none
  | some key =>
      if version = .witnessV0 ∧ key.isCompressed = false then return none
      else if version = .witnessV0 ∧
          ¬ (0 ≤ signing.creator.amount ∧ signing.creator.amount ≤ maxMoneySatoshis) then
        return none
      else
        let hash := signing.creator.signatureHash script signing.explicitHashType version
        return (key.sign hash).map (· ++ [hashTypeByte signing.explicitHashType])

/-- `MutableTransactionSignatureCreator::CreateSchnorrSig`. -/
def creatorCreateSchnorrSig (pubkey : Uint256) (leafHash merkleRoot : Option Uint256)
    (version : SigVersion) : Except Halt (Option Bytes) := do
  assertThat (version = .taproot ∨ version = .tapscript ∨ version = .p2mrTapscript)
  return do
    let key ← (signing.keyIds pubkey).findSome? signing.provider.getKey
    if signing.creator.txdataReady = false then none
    else if version ≠ .taproot ∧ leafHash = none then none
    else
      let hashType := hashTypeByte signing.creator.nHashType
      let hash ← signing.creator.signatureHashSchnorr
        (if version = .taproot then none else leafHash) hashType
      let sig ← key.signSchnorr hash merkleRoot
      if signing.creator.nHashType = 0 then some sig else some (sig ++ [hashType])

/-- `MutableTransactionSignatureCreator::CreateDilithiumSig`. -/
def creatorCreateDilithiumSig (keyId : Bytes) (version : SigVersion) (leafHash : Option Uint256) :
    Except Halt (Option Bytes) := do
  assertThat (version = .p2mrTapscript)
  return do
    let key ← signing.provider.getDilithiumKeyByHash keyId
    let leaf ← leafHash
    if signing.creator.txdataReady = false then none
    else
      let hashType := hashTypeByte signing.explicitHashType
      let hash ← signing.creator.signatureHashSchnorr (some leaf) hashType
      let sig ← key.sign hash
      some (sig ++ [hashType])

/-- Remember where a key comes from. -/
def rememberKey (sigdata : SignatureData) (keyId pubkey : Bytes) : SignatureData :=
  match signing.provider.getKeyOrigin keyId with
  | none => sigdata
  | some info =>
      { sigdata with miscPubkeys := emplace sigdata.miscPubkeys keyId (pubkey, info) }

/-- `CreateSig`. -/
def createSig (script : Bytes) (version : SigVersion) (sigdata : SignatureData)
    (pubkey : Bytes) : Except Halt (Option Bytes × SignatureData) :=
  let keyId := signing.hash160 pubkey
  match sigdata.signatures keyId with
  | some (_, sig) => .ok (some sig, sigdata)
  | none => do
      let sigdata := signing.rememberKey sigdata keyId pubkey
      match ← signing.creatorCreateSig keyId script version with
      | some sig =>
          assertThat ((sigdata.signatures keyId).isNone)
          return (some sig,
            { sigdata with signatures := emplace sigdata.signatures keyId (pubkey, sig) })
      | none => return (none, { sigdata with missingSigs := sigdata.missingSigs ++ [keyId] })

/-- Remember where a Dilithium key comes from. -/
def rememberDilithiumKey (sigdata : SignatureData) (keyId pubkey : Bytes) : SignatureData :=
  match signing.provider.getDilithiumKeyOrigin keyId with
  | none => sigdata
  | some info =>
      { sigdata with
        dilithiumMiscPubkeys := emplace sigdata.dilithiumMiscPubkeys keyId (pubkey, info) }

/-- The Dilithium signature that is already there: of the leaf in a script tree, of
the input elsewhere. -/
def storedDilithiumSig (version : SigVersion) (leafHash : Option Uint256)
    (sigdata : SignatureData) (keyId : Bytes) : Option (Bytes × Bytes) :=
  match version, leafHash with
  | .p2mrTapscript, some leaf => sigdata.p2mrDilithiumScriptSigs (keyId, leaf)
  | _, _ => sigdata.dilithiumSignatures keyId

/-- Store a new Dilithium signature. -/
def storeDilithiumSig (version : SigVersion) (leafHash : Option Uint256)
    (sigdata : SignatureData) (keyId pubkey sig : Bytes) : Except Halt SignatureData :=
  match version, leafHash with
  | .p2mrTapscript, some leaf =>
      .ok { sigdata with
        p2mrDilithiumScriptSigs :=
          emplace sigdata.p2mrDilithiumScriptSigs (keyId, leaf) (pubkey, sig) }
  | _, _ => do
      assertThat ((sigdata.dilithiumSignatures keyId).isNone)
      return { sigdata with
        dilithiumSignatures := emplace sigdata.dilithiumSignatures keyId (pubkey, sig) }

/-- `CreateDilithiumSig`. -/
def createDilithiumSig (version : SigVersion) (leafHash : Option Uint256)
    (sigdata : SignatureData) (pubkey : Bytes) : Except Halt (Option Bytes × SignatureData) :=
  let keyId := signing.hash160 pubkey
  match storedDilithiumSig version leafHash sigdata keyId with
  | some (_, sig) => .ok (some sig, sigdata)
  | none => do
      let sigdata := signing.rememberDilithiumKey sigdata keyId pubkey
      match ← signing.creatorCreateDilithiumSig keyId version leafHash with
      | some sig => return (some sig, ← storeDilithiumSig version leafHash sigdata keyId pubkey sig)
      | none =>
          return (none,
            { sigdata with missingDilithiumSigs := sigdata.missingDilithiumSigs ++ [keyId] })

/-- Note the origin of a Taproot key, with the leaf it occurs in. -/
def noteTaprootKey (sigdata : SignatureData) (pubkey : Uint256) (leafHash : Option Uint256) :
    SignatureData :=
  match (signing.keyIds pubkey).findSome? signing.provider.getKeyOrigin with
  | none => sigdata
  | some info =>
      let (hashes, origin) := (sigdata.taprootMiscPubkeys pubkey).getD ([], info)
      let hashes := hashes ++ leafHash.toList.filter (· ∉ hashes)
      { sigdata with
        taprootMiscPubkeys :=
          Function.update sigdata.taprootMiscPubkeys pubkey (some (hashes, origin)) }

/-- `CreateTaprootScriptSig`. -/
def createTaprootScriptSig (leafHash : Uint256) (version : SigVersion) (sigdata : SignatureData)
    (pubkey : Uint256) : Except Halt (Option Bytes × SignatureData) :=
  let sigdata := signing.noteTaprootKey sigdata pubkey (some leafHash)
  match sigdata.taprootScriptSigs (pubkey, leafHash) with
  | some sig => .ok (some sig, sigdata)
  | none => do
      match ← signing.creatorCreateSchnorrSig pubkey (some leafHash) none version with
      | some sig =>
          return (some sig,
            { sigdata with
              taprootScriptSigs :=
                Function.update sigdata.taprootScriptSigs (pubkey, leafHash) (some sig) })
      | none => return (none, sigdata)

/-- The signature that a key gives, for a function that makes signatures. -/
def signatureOf {Key : Type}
    (create : SignatureData → Key → Except Halt (Option Bytes × SignatureData))
    (sigdata : SignatureData) (key : Key) : Option Bytes :=
  match create sigdata key with
  | .ok (sig, _) => sig
  | .error _ => none

/-- A run of Miniscript, which throws or asks for the signatures of some keys.  These
stay in the signature data. -/
def satisfy {Key : Type} (miniscript : Miniscript Key)
    (create : SignatureData → Key → Except Halt (Option Bytes × SignatureData))
    (script : Bytes) (sigdata : SignatureData) : Except Halt (Satisfaction Key × SignatureData) :=
  match miniscript.satisfy script (signing.getPubKey sigdata) (signatureOf create sigdata) with
  | none => .error .nonFatalCheck
  | some satisfaction => do
      let sigdata ← satisfaction.signed.foldlM
        (fun sigdata key => Prod.snd <$> create sigdata key) sigdata
      return (satisfaction,
        { sigdata with missingPubkeys := sigdata.missingPubkeys ++ satisfaction.missingPubkeys })

/-! ## Script trees -/

/-- `SignTaprootScript`. -/
def signTaprootScript (step : Step) (sigdata : SignatureData) (leafVersion : UInt8)
    (script : Bytes) (version : SigVersion) : Except Halt SignResult :=
  if leafVersion ≠ taprootLeafTapscript then .ok ⟨false, [], sigdata⟩
  else do
    let leafHash := computeTapleafHash signing.hashes leafVersion script
    let (satisfaction, sigdata) ← signing.satisfy signing.tapMiniscript
      (signing.createTaprootScriptSig leafHash version) script sigdata
    if satisfaction.available then .ok ⟨true, satisfaction.stack, sigdata⟩
    else if version = .p2mrTapscript ∧ satisfaction.stack.isEmpty then
      step script version sigdata (some leafHash)
    else .ok ⟨false, satisfaction.stack, sigdata⟩

/-- `GetSerializeSize` of a stack. -/
def serializeSize (stack : List Bytes) : Nat :=
  (encodeVarint stack.length ++ stack.flatMap encodeBytes).length

/-- Keep the smallest stack, after the script and its smallest control block are
pushed on the new one. -/
def keepSmallest (smallest : List Bytes) (entry : (Bytes × UInt8) × List Bytes)
    (signed : SignResult) : List Bytes :=
  let stack := signed.result ++ [entry.1.1, entry.2.headD []]
  if signed.solved ∧ (smallest.isEmpty ∨ serializeSize stack < serializeSize smallest) then stack
  else smallest

/-- One round of the loop over the leaves of a tree. -/
def signLeaf (step : Step) (version : SigVersion) (state : List Bytes × SignatureData)
    (entry : (Bytes × UInt8) × List Bytes) : Except Halt (List Bytes × SignatureData) := do
  let signed ← signing.signTaprootScript step state.2 entry.1.2 entry.1.1 version
  return (keepSmallest state.1 entry signed, signed.sigdata)

/-- The loop over the leaves of a tree. -/
def signLeaves (step : Step) (version : SigVersion) (scripts : LeafScripts)
    (sigdata : SignatureData) : Except Halt SignResult := do
  let (smallest, sigdata) ← scripts.foldlM (signing.signLeaf step version) ([], sigdata)
  return ⟨!smallest.isEmpty, smallest, sigdata⟩

/-- The key path: keep a signature that is there, else try one. -/
def signKeyPath (pubkey : Uint256) (merkleRoot : Option Uint256) (sigdata : SignatureData) :
    Except Halt SignatureData :=
  if sigdata.taprootKeyPathSig.isEmpty then do
    match ← signing.creatorCreateSchnorrSig pubkey none merkleRoot .taproot with
    | some sig => return { sigdata with taprootKeyPathSig := sig }
    | none => return sigdata
  else .ok sigdata

/-- The data for a Taproot output, with what the provider knows about it. -/
def gatherTaproot (output : Uint256) (sigdata : SignatureData) : SignatureData :=
  match signing.provider.getTaprootSpendData output with
  | some spenddata => { sigdata with trSpenddata := sigdata.trSpenddata.merge spenddata }
  | none => sigdata

/-- `SignTaproot`. -/
def signTaproot (step : Step) (output : Uint256) (sigdata : SignatureData) :
    Except Halt SignResult := do
  let sigdata := signing.gatherTaproot output sigdata
  let sigdata := signing.noteTaprootKey sigdata sigdata.trSpenddata.internalKey none
  let sigdata ← signing.signKeyPath sigdata.trSpenddata.internalKey
    (some sigdata.trSpenddata.merkleRoot) sigdata
  let sigdata ← signing.signKeyPath output none sigdata
  if sigdata.taprootKeyPathSig.isEmpty then
    signing.signLeaves step .tapscript sigdata.trSpenddata.scripts sigdata
  else return ⟨true, [sigdata.taprootKeyPathSig], sigdata⟩

/-- The spend data for a program, with what the provider knows about it. -/
def gather (data : P2MRSpendData) (program : Uint256) : P2MRSpendData :=
  match signing.provider.getP2MRSpendData program with
  | some spenddata => data.merge spenddata
  | none => data

/-- `SignP2MR`.  A nested call would add leaves to the map that the loop runs over; such
a call never returns (`signP2MR_ne_ok`), so that the loop sees the leaves it
started with. -/
def signP2MR (step : Step) (program : Uint256) (sigdata : SignatureData) :
    Except Halt SignResult :=
  let sigdata := { sigdata with p2mrSpenddata := signing.gather sigdata.p2mrSpenddata program }
  signing.signLeaves step .p2mrTapscript sigdata.p2mrSpenddata.scripts sigdata

/-! ## Templates -/

/-- One round of the loop over the keys of a multisignature script. -/
def signKey (create : SignatureData → Bytes → Except Halt (Option Bytes × SignatureData))
    (required : Nat) (state : List Bytes × SignatureData) (pubkey : Bytes) :
    Except Halt (List Bytes × SignatureData) := do
  match ← create state.2 pubkey with
  | (some sig, sigdata) =>
      return (if state.1.length < required + 1 then state.1 ++ [sig] else state.1, sigdata)
  | (none, sigdata) => return (state.1, sigdata)

/-- The multisignature templates.  The last loop of the source counts up while it
appends, so that it fills half of the places that are missing. -/
def signKeys (create : SignatureData → Bytes → Except Halt (Option Bytes × SignatureData))
    (required : Nat) (pubkeys : List Bytes) (sigdata : SignatureData) :
    Except Halt SignResult := do
  let (ret, sigdata) ← pubkeys.foldlM (signKey create required) ([[]], sigdata)
  return ⟨ret.length = required + 1,
    ret ++ List.replicate ((required + 2 - ret.length) / 2) [], sigdata⟩

/-- A signature as the only element, or with the key after it. -/
def signSingle (create : SignatureData → Bytes → Except Halt (Option Bytes × SignatureData))
    (pubkey : Bytes) (suffix : List Bytes) (sigdata : SignatureData) :
    Except Halt SignResult := do
  match ← create sigdata pubkey with
  | (some sig, sigdata) => return ⟨true, sig :: suffix, sigdata⟩
  | (none, sigdata) => return ⟨false, [], sigdata⟩

/-- `SignStep`, with the call that comes back to it. -/
def signStepWith (step : Step) : Step := fun script version sigdata leafHash =>
  match solver script with
  | .nonstandard | .nullData | .witnessUnknown _ _ => .ok ⟨false, [], sigdata⟩
  | .pubkey pubkey => signSingle (signing.createSig script version) pubkey [] sigdata
  | .pubkeyhash hash =>
      match signing.getPubKey sigdata hash with
      | none =>
          .ok ⟨false, [], { sigdata with missingPubkeys := sigdata.missingPubkeys ++ [hash] }⟩
      | some pubkey => signSingle (signing.createSig script version) pubkey [pubkey] sigdata
  | .scripthash hash =>
      match signing.getCScript sigdata hash with
      | some redeemScript => .ok ⟨true, [redeemScript], sigdata⟩
      | none => .ok ⟨false, [], { sigdata with missingRedeemScript := hash }⟩
  | .multisig required pubkeys =>
      signKeys (signing.createSig script version) required pubkeys sigdata
  | .witnessV0Keyhash program => .ok ⟨true, [program], sigdata⟩
  | .witnessV0Scripthash program =>
      match signing.getCScript sigdata (signing.ripemd160 program) with
      | some witnessScript => .ok ⟨true, [witnessScript], sigdata⟩
      | none => .ok ⟨false, [], { sigdata with missingWitnessScript := program }⟩
  | .witnessV1Taproot program => signing.signTaproot step program sigdata
  | .witnessV2P2mr program => signing.signP2MR step program sigdata
  | .dilithiumPubkey pubkey =>
      if version ≠ .p2mrTapscript then .ok ⟨false, [], sigdata⟩
      else signSingle (signing.createDilithiumSig version leafHash) pubkey [] sigdata
  | .dilithiumPubkeyhash hash =>
      if version ≠ .p2mrTapscript then .ok ⟨false, [], sigdata⟩
      else
        match signing.getDilithiumPubKey sigdata hash with
        | none =>
            .ok ⟨false, [],
              { sigdata with
                missingDilithiumPubkeys := sigdata.missingDilithiumPubkeys ++ [hash] }⟩
        | some pubkey =>
            signSingle (signing.createDilithiumSig version leafHash) pubkey [pubkey] sigdata
  | .dilithiumMultisig required pubkeys =>
      if version ≠ .p2mrTapscript then .ok ⟨false, [], sigdata⟩
      else signKeys (signing.createDilithiumSig version leafHash) required pubkeys sigdata
  | .dilithiumScripthash | .dilithiumWitnessV0Keyhash | .dilithiumWitnessV0Scripthash =>
      .ok ⟨false, [], sigdata⟩

/-- `SignStep`, with a bound on the depth of its calls. -/
def signStep : Nat → Step
  | 0 => fun _ _ _ _ => .error .outOfFuel
  | fuel + 1 => signing.signStepWith (signStep fuel)

/-! ## Complete signatures -/

/-- `CScript << data`. -/
def pushData (data : Bytes) : Bytes :=
  if data.length < opPushdata1.toNat then UInt8.ofNat data.length :: data
  else if data.length ≤ 0xff then opPushdata1 :: leBytes 1 data.length ++ data
  else if data.length ≤ 0xffff then opPushdata2 :: leBytes 2 data.length ++ data
  else opPushdata4 :: leBytes 4 data.length ++ data

/-- `PushAll`. -/
def pushAll (values : List Bytes) : Bytes :=
  values.flatMap fun value =>
    match value with
    | [] => [0]
    | [byte] =>
        if 1 ≤ byte ∧ byte ≤ 16 then [byte + 0x50]
        else if byte = 0x81 then [op1Negate]
        else pushData [byte]
    | value => pushData value

/-- The local variables of `ProduceSignature` between its stages. -/
structure Stage where
  solved : Bool
  result : List Bytes
  whichType : TxoutType
  subscript : Option Bytes
  sigdata : SignatureData

/-- The first stage: the script, and behind a script hash the redeem script. -/
def signOuter (fuel : Nat) (fromPubKey : Bytes) (sigdata : SignatureData) :
    Except Halt Stage := do
  let outer ← signing.signStep fuel fromPubKey .base sigdata none
  match outer.solved, solver fromPubKey with
  | true, .scripthash _ =>
      let subscript := outer.result.headD []
      let inner ← signing.signStep fuel subscript .base
        { outer.sigdata with redeemScript := subscript } none
      let nested := match solver subscript with
        | .scripthash _ => true
        | _ => false
      return ⟨inner.solved && !nested, inner.result, solver subscript, some subscript,
        inner.sigdata⟩
  | solved, whichType => return ⟨solved, outer.result, whichType, none, outer.sigdata⟩

/-- The script behind a witness key hash. -/
def keyHashScript (hash : Bytes) : Bytes :=
  [opDup, opHash160] ++ pushData hash ++ [opEqualverify, opChecksig]

/-- The script behind a witness script hash: the solver, then Miniscript. -/
def signWitnessScript (fuel : Nat) (witnessScript : Bytes) (sigdata : SignatureData) :
    Except Halt SignResult := do
  let sub ← signing.signStep fuel witnessScript .witnessV0 { sigdata with witnessScript } none
  let refused := match solver witnessScript with
    | .scripthash _ | .witnessV0Scripthash _ | .witnessV0Keyhash _ => true
    | _ => false
  if sub.solved && !refused then return sub
  else if sub.result.isEmpty then
    let (satisfaction, sigdata) ← signing.satisfy signing.wshMiniscript
      (signing.createSig witnessScript .witnessV0) witnessScript sub.sigdata
    return ⟨satisfaction.available, satisfaction.stack, sigdata⟩
  else return ⟨false, sub.result, sub.sigdata⟩

/-- The second stage: the witness. -/
def signWitness (fuel : Nat) (stage : Stage) : Except Halt Stage :=
  match stage.solved, stage.whichType with
  | true, .witnessV0Keyhash _ => do
      let sub ← signing.signStep fuel (keyHashScript (stage.result.headD [])) .witnessV0
        stage.sigdata none
      return { stage with
        solved := sub.solved, result := []
        sigdata := { sub.sigdata with scriptWitness := sub.result, witness := true } }
  | true, .witnessV0Scripthash _ => do
      let witnessScript := stage.result.headD []
      let sub ← signing.signWitnessScript fuel witnessScript stage.sigdata
      return { stage with
        solved := sub.solved, result := []
        sigdata :=
          { sub.sigdata with scriptWitness := sub.result ++ [witnessScript], witness := true } }
  | solved, .witnessV1Taproot _ | solved, .witnessV2P2mr _ =>
      if stage.subscript.isNone then
        let scriptWitness := if solved then stage.result else stage.sigdata.scriptWitness
        .ok { stage with
          result := [], sigdata := { stage.sigdata with scriptWitness, witness := true } }
      else .ok stage
  | true, .witnessUnknown _ _ =>
      .ok { stage with sigdata := { stage.sigdata with witness := true } }
  | _, _ => .ok stage

/-- The last stage: the script signature and the test of the solution. -/
def finishSignature (fromPubKey : Bytes) (stage : Stage) : Bool × SignatureData :=
  let scriptWitness := if stage.sigdata.witness then stage.sigdata.scriptWitness else []
  let scriptSig := pushAll (stage.result ++ stage.subscript.toList)
  let complete := stage.solved && signing.verifyScript scriptSig fromPubKey scriptWitness
  (complete, { stage.sigdata with scriptWitness, scriptSig, complete })

/-- `ProduceSignature`. -/
def produceSignature (fuel : Nat) (fromPubKey : Bytes) (sigdata : SignatureData) :
    Except Halt (Bool × SignatureData) :=
  if sigdata.complete then .ok (true, sigdata)
  else do
    let outer ← signing.signOuter fuel fromPubKey sigdata
    let stage ← signing.signWitness fuel outer
    return signing.finishSignature fromPubKey stage

end Signing

end QuantyCoin
