import QuantyCoin.FailingFolds
import QuantyCoin.ScriptSigning

/-!
# Signing of one leaf of a script tree

`SignP2MR` sends every leaf that Miniscript leaves unsatisfied back to `SignStep`.
A leaf that needs an ECDSA signature then runs into an assertion, and a leaf that is
again a P2MR output starts a nested call.  Miniscript itself throws on some leaves, among
them leaves of the tree behind a leaf that is a Taproot output.  All other leaves leave
the data alone that decides about the leaves after them (`SameLeaves`), up to what
`SignTaproot` collects (`TaprootState`).
-/

namespace QuantyCoin.Signing

open ByteDecoder FailingFolds

variable (signing : Signing)

/-! ## What happens to a leaf -/

/-- The program of a script that is a P2MR output. -/
def nestedProgram (script : Bytes) : Option Uint256 :=
  match solver script with
  | .witnessV2P2mr program => some program
  | _ => none

/-- The output of a script that is a Taproot output. -/
def taprootOutput (script : Bytes) : Option Uint256 :=
  match solver script with
  | .witnessV1Taproot output => some output
  | _ => none

/-- What Miniscript makes of a leaf, if it does not throw. -/
def leafSatisfaction (sigdata : SignatureData) (leaf : Bytes × UInt8) :
    Option (Satisfaction Uint256) :=
  signing.tapMiniscript.satisfy leaf.1 (signing.getPubKey sigdata)
    (signatureOf (signing.createTaprootScriptSig
      (computeTapleafHash signing.hashes leaf.2 leaf.1) .p2mrTapscript) sigdata)

/-- Miniscript throws on the leaf. -/
def ThrowsOn (sigdata : SignatureData) (leaf : Bytes × UInt8) : Prop :=
  leaf.2 = taprootLeafTapscript ∧ signing.leafSatisfaction sigdata leaf = none

/-- Miniscript leaves the leaf to the solver. -/
def Defers (sigdata : SignatureData) (leaf : Bytes × UInt8) : Prop :=
  leaf.2 = taprootLeafTapscript ∧
    (signing.leafSatisfaction sigdata leaf).map Satisfaction.deferred = some true

instance (sigdata : SignatureData) (leaf : Bytes × UInt8) :
    Decidable (signing.Defers sigdata leaf) :=
  inferInstanceAs (Decidable (_ ∧ _))

/-- The template of the script asks for an ECDSA signature that is not among the
data. -/
def LacksSignature (sigdata : SignatureData) (script : Bytes) : Prop :=
  match solver script with
  | .pubkey pubkey => sigdata.signatures (signing.hash160 pubkey) = none
  | .pubkeyhash hash =>
      ∃ pubkey, signing.getPubKey sigdata hash = some pubkey ∧
        sigdata.signatures (signing.hash160 pubkey) = none
  | .multisig _ pubkeys =>
      ∃ pubkey ∈ pubkeys, sigdata.signatures (signing.hash160 pubkey) = none
  | _ => False

/-- The leaf runs into the assertion of `CreateSig`. -/
def Fails (sigdata : SignatureData) (leaf : Bytes × UInt8) : Prop :=
  signing.Defers sigdata leaf ∧ signing.LacksSignature sigdata leaf.1

/-- The program of a leaf that starts a nested call of `SignP2MR`. -/
def entered (sigdata : SignatureData) (leaf : Bytes × UInt8) : Option Uint256 :=
  if signing.Defers sigdata leaf then nestedProgram leaf.1 else none

/-- The output of a leaf that starts a call of `SignTaproot`. -/
def taprootEntered (sigdata : SignatureData) (leaf : Bytes × UInt8) : Option Uint256 :=
  if signing.Defers sigdata leaf then taprootOutput leaf.1 else none

/-- What `SignTaproot` goes by and leaves for its next call: the spend data, and whether
there is a signature for the key path. -/
structure TaprootState where
  spenddata : TaprootSpendData
  signed : Bool

/-- The state in the signature data. -/
def taprootState (sigdata : SignatureData) : TaprootState where
  spenddata := sigdata.trSpenddata
  signed := !sigdata.taprootKeyPathSig.isEmpty

/-- A signature for the key path can be made. -/
def signsKeyPath (pubkey : Uint256) (merkleRoot : Option Uint256) : Bool :=
  match signing.creatorCreateSchnorrSig pubkey none merkleRoot .taproot with
  | .ok (some sig) => !sig.isEmpty
  | _ => false

/-- The spend data for an output, with what the provider knows about it. -/
def taprootData (output : Uint256) (data : TaprootSpendData) : TaprootSpendData :=
  match signing.provider.getTaprootSpendData output with
  | some spenddata => data.merge spenddata
  | none => data

/-- The state after the key path of an output. -/
def afterKeyPath (output : Uint256) (state : TaprootState) : TaprootState where
  spenddata := signing.taprootData output state.spenddata
  signed :=
    let data := signing.taprootData output state.spenddata
    state.signed || signing.signsKeyPath data.internalKey (some data.merkleRoot) ||
      signing.signsKeyPath output none

/-- The state after a leaf. -/
def afterLeaf (sigdata : SignatureData) (state : TaprootState) (leaf : Bytes × UInt8) :
    TaprootState :=
  match signing.taprootEntered sigdata leaf with
  | some output => signing.afterKeyPath output state
  | none => state

/-- `SignTaproot` comes to a leaf on which Miniscript throws. -/
def TaprootThrows (sigdata : SignatureData) (output : Uint256) (state : TaprootState) : Prop :=
  (signing.afterKeyPath output state).signed = false ∧
    ∃ entry ∈ (signing.afterKeyPath output state).spenddata.scripts,
      signing.ThrowsOn sigdata entry.1

/-- Miniscript throws on the leaf, or on a leaf of the tree of the Taproot output that
the leaf is. -/
def Throws (sigdata : SignatureData) (state : TaprootState) (leaf : Bytes × UInt8) : Prop :=
  signing.ThrowsOn sigdata leaf ∨
    ∃ output, signing.taprootEntered sigdata leaf = some output ∧
      signing.TaprootThrows sigdata output state

/-- `SignP2MR` gets past the leaf. -/
structure Passes (sigdata : SignatureData) (state : TaprootState) (leaf : Bytes × UInt8) :
    Prop where
  entered : signing.entered sigdata leaf = none
  fails : ¬ signing.Fails sigdata leaf
  throws : ¬ signing.Throws sigdata state leaf

/-- `SignP2MR` gets past the leaves, one after the other. -/
def LeftBehind (sigdata : SignatureData) : TaprootState → List (Bytes × UInt8) → Prop
  | _, [] => True
  | state, leaf :: leaves =>
      signing.Passes sigdata state leaf ∧
        LeftBehind sigdata (signing.afterLeaf sigdata state leaf) leaves

/-! ## Data that stays -/

/-- The script-path signature that the creator makes. -/
def scriptPathSig (place : Uint256 × Uint256) : Option Bytes :=
  match signing.creatorCreateSchnorrSig place.1 (some place.2) none .p2mrTapscript with
  | .ok sig => sig
  | .error _ => none

/-- A key has a script-path signature for a leaf, stored or made. -/
def signsLeaf (sigdata : SignatureData) (place : Uint256 × Uint256) : Bool :=
  (sigdata.taprootScriptSigs place).isSome || (signing.scriptPathSig place).isSome

/-- What decides about a leaf is the same. -/
structure SameKeys (before after : SignatureData) : Prop where
  signatures : after.signatures = before.signatures
  miscPubkeys : after.miscPubkeys = before.miscPubkeys
  tapPubkeys : after.tapPubkeys = before.tapPubkeys
  signsLeaf : ∀ place, signing.signsLeaf after place = signing.signsLeaf before place

/-- The leaves are the same too. -/
structure SameLeaves (before after : SignatureData) : Prop
    extends SameKeys signing before after where
  p2mrSpenddata : after.p2mrSpenddata = before.p2mrSpenddata

/-- What `SignTaproot` goes by is the same too. -/
structure Steady (before after : SignatureData) : Prop
    extends SameLeaves signing before after where
  taproot : taprootState after = taprootState before

/-- The data after a leaf. -/
structure Follows (leaf : Bytes × UInt8) (before after : SignatureData) : Prop
    extends SameLeaves signing before after where
  taproot : taprootState after = signing.afterLeaf before (taprootState before) leaf

variable {signing}

namespace SameKeys

variable {before middle after : SignatureData}

/-- Data with the same keys and signatures. -/
theorem of_eq (signatures : after.signatures = before.signatures)
    (miscPubkeys : after.miscPubkeys = before.miscPubkeys)
    (tapPubkeys : after.tapPubkeys = before.tapPubkeys)
    (taprootScriptSigs : after.taprootScriptSigs = before.taprootScriptSigs) :
    signing.SameKeys before after where
  signatures := signatures
  miscPubkeys := miscPubkeys
  tapPubkeys := tapPubkeys
  signsLeaf place := by rw [Signing.signsLeaf, Signing.signsLeaf, taprootScriptSigs]

theorem trans (first : signing.SameKeys before middle) (second : signing.SameKeys middle after) :
    signing.SameKeys before after where
  signatures := second.signatures.trans first.signatures
  miscPubkeys := second.miscPubkeys.trans first.miscPubkeys
  tapPubkeys := second.tapPubkeys.trans first.tapPubkeys
  signsLeaf place := (second.signsLeaf place).trans (first.signsLeaf place)

theorem getPubKey (same : signing.SameKeys before after) :
    signing.getPubKey after = signing.getPubKey before := by
  funext address
  rw [Signing.getPubKey, Signing.getPubKey, same.signatures, same.miscPubkeys, same.tapPubkeys]

end SameKeys

namespace SameLeaves

variable {before middle after : SignatureData}

variable (signing) in
theorem refl (sigdata : SignatureData) : signing.SameLeaves sigdata sigdata :=
  ⟨.of_eq rfl rfl rfl rfl, rfl⟩

theorem trans (first : signing.SameLeaves before middle)
    (second : signing.SameLeaves middle after) : signing.SameLeaves before after :=
  ⟨first.toSameKeys.trans second.toSameKeys, second.p2mrSpenddata.trans first.p2mrSpenddata⟩

end SameLeaves

namespace Steady

variable {before middle after : SignatureData}

/-- Data with the same keys, signatures and trees. -/
theorem of_eq (same : signing.SameKeys before after)
    (p2mrSpenddata : after.p2mrSpenddata = before.p2mrSpenddata)
    (taproot : taprootState after = taprootState before) : signing.Steady before after :=
  ⟨⟨same, p2mrSpenddata⟩, taproot⟩

variable (signing) in
theorem refl (sigdata : SignatureData) : signing.Steady sigdata sigdata :=
  ⟨.refl signing sigdata, rfl⟩

theorem trans (first : signing.Steady before middle) (second : signing.Steady middle after) :
    signing.Steady before after :=
  ⟨first.toSameLeaves.trans second.toSameLeaves, second.taproot.trans first.taproot⟩

end Steady

/-! ## Script-path signatures -/

variable (signing) in
theorem noteTaprootKey_steady (sigdata : SignatureData) (pubkey : Uint256)
    (leafHash : Option Uint256) :
    signing.Steady sigdata (signing.noteTaprootKey sigdata pubkey leafHash) := by
  unfold noteTaprootKey
  split
  · exact .refl signing sigdata
  · exact .of_eq (.of_eq rfl rfl rfl rfl) rfl rfl

@[simp]
theorem noteTaprootKey_taprootScriptSigs (sigdata : SignatureData) (pubkey : Uint256)
    (leafHash : Option Uint256) :
    (signing.noteTaprootKey sigdata pubkey leafHash).taprootScriptSigs =
      sigdata.taprootScriptSigs := by
  unfold noteTaprootKey
  split <;> rfl

variable (signing) in
/-- The two tapscript versions give the same script-path signatures. -/
theorem creatorCreateSchnorrSig_leaf {version : SigVersion}
    (tapscript : version = .tapscript ∨ version = .p2mrTapscript) (place : Uint256 × Uint256) :
    signing.creatorCreateSchnorrSig place.1 (some place.2) none version =
      .ok (signing.scriptPathSig place) := by
  obtain rfl | rfl := tapscript <;> rfl

theorem createTaprootScriptSig_version {version : SigVersion}
    (tapscript : version = .tapscript ∨ version = .p2mrTapscript) (leafHash : Uint256) :
    signing.createTaprootScriptSig leafHash version =
      signing.createTaprootScriptSig leafHash .p2mrTapscript := by
  obtain rfl | rfl := tapscript <;> rfl

/-- A stored signature that the creator makes anyway changes nothing. -/
theorem steady_storeScriptSig (sigdata : SignatureData) {place : Uint256 × Uint256} {sig : Bytes}
    (made : signing.scriptPathSig place = some sig) :
    signing.Steady sigdata
      { sigdata with
        taprootScriptSigs := Function.update sigdata.taprootScriptSigs place (some sig) } := by
  refine .of_eq ⟨rfl, rfl, rfl, fun other => ?_⟩ rfl rfl
  by_cases same : other = place
  · subst same
    simp [signsLeaf, made]
  · simp [signsLeaf, Function.update_of_ne same]

theorem createTaprootScriptSig_returns {version : SigVersion}
    (tapscript : version = .tapscript ∨ version = .p2mrTapscript) (leafHash : Uint256)
    (sigdata : SignatureData) (pubkey : Uint256) :
    Returns (signing.createTaprootScriptSig leafHash version sigdata pubkey) fun given =>
      signing.Steady sigdata given.2 ∧
        given.1.isSome = signing.signsLeaf sigdata (pubkey, leafHash) := by
  have noted := noteTaprootKey_steady signing sigdata pubkey (some leafHash)
  have creates := creatorCreateSchnorrSig_leaf signing tapscript (pubkey, leafHash)
  unfold createTaprootScriptSig
  simp only [noteTaprootKey_taprootScriptSigs, creates]
  cases stored : sigdata.taprootScriptSigs (pubkey, leafHash) with
  | some sig => exact .ok ⟨noted, by simp [signsLeaf, stored]⟩
  | none =>
      cases made : signing.scriptPathSig (pubkey, leafHash) with
      | none => exact .ok ⟨noted, by simp [signsLeaf, stored, made]⟩
      | some sig =>
          refine .ok ⟨noted.trans ?_, by simp [signsLeaf, made]⟩
          have stays := steady_storeScriptSig
            (signing.noteTaprootKey sigdata pubkey (some leafHash)) made
          rwa [noteTaprootKey_taprootScriptSigs] at stays

theorem signatureOf_isSome (leafHash : Uint256) (sigdata : SignatureData) (pubkey : Uint256) :
    (signatureOf (signing.createTaprootScriptSig leafHash .p2mrTapscript) sigdata pubkey).isSome =
      signing.signsLeaf sigdata (pubkey, leafHash) := by
  obtain ⟨given, created, -, sig⟩ :=
    createTaprootScriptSig_returns (.inr rfl) leafHash sigdata pubkey
  rw [signatureOf, created]
  exact sig

/-- Miniscript gives its satisfaction and keeps what decides about the leaves. -/
theorem satisfy_returns {version : SigVersion}
    (tapscript : version = .tapscript ∨ version = .p2mrTapscript) {leaf : Bytes × UInt8}
    {sigdata : SignatureData} {satisfaction : Satisfaction Uint256}
    (settled : signing.leafSatisfaction sigdata leaf = some satisfaction) :
    Returns (signing.satisfy signing.tapMiniscript
        (signing.createTaprootScriptSig
          (computeTapleafHash signing.hashes leaf.2 leaf.1) version) leaf.1 sigdata)
      fun given => given.1 = satisfaction ∧ signing.Steady sigdata given.2 := by
  rw [leafSatisfaction] at settled
  simp only [createTaprootScriptSig_version tapscript, satisfy, settled]
  refine (returns_foldlM (signing.Steady sigdata) (.refl signing sigdata)
    fun key _ state steady => ?_).bind fun state steady => ?_
  · refine (createTaprootScriptSig_returns (.inr rfl) _ state key).map fun given kept => ?_
    exact steady.trans kept.1
  · exact .ok ⟨rfl, steady.trans (.of_eq (.of_eq rfl rfl rfl rfl) rfl rfl)⟩

theorem satisfy_throws {version : SigVersion}
    (tapscript : version = .tapscript ∨ version = .p2mrTapscript) {leaf : Bytes × UInt8}
    {sigdata : SignatureData} (throws : signing.leafSatisfaction sigdata leaf = none) :
    signing.satisfy signing.tapMiniscript
        (signing.createTaprootScriptSig
          (computeTapleafHash signing.hashes leaf.2 leaf.1) version) leaf.1 sigdata =
      .error .nonFatalCheck := by
  rw [leafSatisfaction] at throws
  simp only [createTaprootScriptSig_version tapscript, satisfy, throws]

namespace SameKeys

variable {before after : SignatureData} (same : signing.SameKeys before after)

include same

theorem leafSatisfaction_deferred (leaf : Bytes × UInt8) :
    (signing.leafSatisfaction after leaf).map Satisfaction.deferred =
      (signing.leafSatisfaction before leaf).map Satisfaction.deferred := by
  rw [leafSatisfaction, leafSatisfaction, same.getPubKey]
  refine signing.tapMiniscript.deferred_congr _ _ _ _ fun key => ?_
  rw [signatureOf_isSome, signatureOf_isSome, same.signsLeaf]

theorem defers_iff (leaf : Bytes × UInt8) :
    signing.Defers after leaf ↔ signing.Defers before leaf := by
  rw [Defers, Defers, same.leafSatisfaction_deferred]

theorem throwsOn_iff (leaf : Bytes × UInt8) :
    signing.ThrowsOn after leaf ↔ signing.ThrowsOn before leaf := by
  have deferred := same.leafSatisfaction_deferred leaf
  rw [ThrowsOn, ThrowsOn, ← Option.map_eq_none_iff (f := Satisfaction.deferred), deferred,
    Option.map_eq_none_iff]

theorem lacksSignature_iff (script : Bytes) :
    signing.LacksSignature after script ↔ signing.LacksSignature before script := by
  rw [LacksSignature, LacksSignature, same.getPubKey, same.signatures]

theorem fails_iff (leaf : Bytes × UInt8) :
    signing.Fails after leaf ↔ signing.Fails before leaf := by
  rw [Fails, Fails, same.defers_iff, same.lacksSignature_iff]

theorem entered_eq (leaf : Bytes × UInt8) :
    signing.entered after leaf = signing.entered before leaf := by
  simp only [entered, same.defers_iff]

theorem taprootEntered_eq (leaf : Bytes × UInt8) :
    signing.taprootEntered after leaf = signing.taprootEntered before leaf := by
  simp only [taprootEntered, same.defers_iff]

theorem afterLeaf_eq (state : TaprootState) (leaf : Bytes × UInt8) :
    signing.afterLeaf after state leaf = signing.afterLeaf before state leaf := by
  rw [afterLeaf, afterLeaf, same.taprootEntered_eq]

theorem taprootThrows_iff (output : Uint256) (state : TaprootState) :
    signing.TaprootThrows after output state ↔ signing.TaprootThrows before output state := by
  simp only [TaprootThrows, same.throwsOn_iff]

theorem throws_iff (state : TaprootState) (leaf : Bytes × UInt8) :
    signing.Throws after state leaf ↔ signing.Throws before state leaf := by
  simp only [Throws, same.throwsOn_iff, same.taprootEntered_eq, same.taprootThrows_iff]

theorem passes_iff (state : TaprootState) (leaf : Bytes × UInt8) :
    signing.Passes after state leaf ↔ signing.Passes before state leaf := by
  constructor
  · rintro ⟨entered, fails, throws⟩
    exact ⟨same.entered_eq leaf ▸ entered, mt (same.fails_iff leaf).mpr fails,
      mt (same.throws_iff state leaf).mpr throws⟩
  · rintro ⟨entered, fails, throws⟩
    exact ⟨(same.entered_eq leaf).trans entered, mt (same.fails_iff leaf).mp fails,
      mt (same.throws_iff state leaf).mp throws⟩

end SameKeys

/-! ## Templates in a leaf -/

theorem creatorCreateSig_p2mr (keyId script : Bytes) :
    signing.creatorCreateSig keyId script .p2mrTapscript = .error .assertion := rfl

/-- In a leaf, `CreateSig` gives a stored signature. -/
theorem createSig_stored {script pubkey : Bytes} {sigdata : SignatureData}
    (stored : sigdata.signatures (signing.hash160 pubkey) ≠ none) :
    Returns (signing.createSig script .p2mrTapscript sigdata pubkey) fun given =>
      given.2 = sigdata := by
  obtain ⟨pair, found⟩ := Option.ne_none_iff_exists'.mp stored
  simp only [createSig, found]
  exact .ok rfl

theorem createSig_steady {script pubkey : Bytes} {sigdata : SignatureData}
    (stored : sigdata.signatures (signing.hash160 pubkey) ≠ none) :
    Returns (signing.createSig script .p2mrTapscript sigdata pubkey) fun given =>
      signing.Steady sigdata given.2 :=
  (createSig_stored stored).imp fun _ same => same ▸ .refl signing sigdata

/-- In a leaf, `CreateSig` cannot make a signature. -/
theorem createSig_lacking {script pubkey : Bytes} {sigdata : SignatureData}
    (lacking : sigdata.signatures (signing.hash160 pubkey) = none) :
    signing.createSig script .p2mrTapscript sigdata pubkey = .error .assertion := by
  simp only [createSig, lacking, creatorCreateSig_p2mr]
  rfl

variable (signing) in
theorem creatorCreateDilithiumSig_p2mr (keyId : Bytes) (leafHash : Option Uint256) :
    ∃ made, signing.creatorCreateDilithiumSig keyId .p2mrTapscript leafHash = .ok made :=
  ⟨_, rfl⟩

variable (signing) in
theorem rememberDilithiumKey_steady (sigdata : SignatureData) (keyId pubkey : Bytes) :
    signing.Steady sigdata (signing.rememberDilithiumKey sigdata keyId pubkey) := by
  unfold rememberDilithiumKey
  split
  · exact .refl signing sigdata
  · exact .of_eq (.of_eq rfl rfl rfl rfl) rfl rfl

theorem createDilithiumSig_returns (leafHash : Uint256) (sigdata : SignatureData)
    (pubkey : Bytes) :
    Returns (signing.createDilithiumSig .p2mrTapscript (some leafHash) sigdata pubkey)
      fun given => signing.Steady sigdata given.2 := by
  have remembered :=
    rememberDilithiumKey_steady signing sigdata (signing.hash160 pubkey) pubkey
  simp only [createDilithiumSig]
  split
  · exact .ok (.refl signing sigdata)
  · obtain ⟨made, created⟩ :=
      creatorCreateDilithiumSig_p2mr signing (signing.hash160 pubkey) (some leafHash)
    simp only [created]
    cases made with
    | some sig => exact .ok (remembered.trans (.of_eq (.of_eq rfl rfl rfl rfl) rfl rfl))
    | none => exact .ok (remembered.trans (.of_eq (.of_eq rfl rfl rfl rfl) rfl rfl))

section Create

variable {create : SignatureData → Bytes → Except Halt (Option Bytes × SignatureData)}
  {sigdata : SignatureData} (good : SignatureData → Prop)

theorem signSingle_returns {pubkey : Bytes} {suffix : List Bytes}
    (creates : Returns (create sigdata pubkey) fun given => good given.2) :
    Returns (signSingle create pubkey suffix sigdata) fun signed => good signed.sigdata := by
  unfold signSingle
  refine creates.bind fun given kept => ?_
  obtain ⟨sig, after⟩ := given
  cases sig with
  | none => exact .ok kept
  | some sig => exact .ok kept

theorem signKey_returns {required : Nat} {pubkey : Bytes} {state : List Bytes × SignatureData}
    (creates : Returns (create state.2 pubkey) fun given => good given.2) :
    Returns (signKey create required state pubkey) fun next => good next.2 := by
  unfold signKey
  refine creates.bind fun given kept => ?_
  obtain ⟨sig, after⟩ := given
  cases sig with
  | none => exact .ok kept
  | some sig => exact .ok kept

theorem signKeys_returns {required : Nat} {pubkeys : List Bytes}
    (creates : ∀ pubkey ∈ pubkeys, ∀ state, signing.Steady sigdata state →
      Returns (create state pubkey) fun given => signing.Steady state given.2) :
    Returns (signKeys create required pubkeys sigdata) fun signed =>
      signing.Steady sigdata signed.sigdata := by
  unfold signKeys
  refine (returns_foldlM (fun state => signing.Steady sigdata state.2) (.refl signing sigdata)
    fun pubkey member state steady => ?_).bind fun state steady => .ok steady
  exact (signKey_returns _ (creates pubkey member state.2 steady)).imp fun next => steady.trans

end Create

/-! ## Leaves -/

/-- Leaves on which Miniscript does not throw return, unless `SignStep` gets them. -/
theorem signTaprootScript_returns {version : SigVersion} (step : Step) {sigdata : SignatureData}
    {leafVersion : UInt8} {script : Bytes}
    (throws : ¬ signing.ThrowsOn sigdata (script, leafVersion))
    (settled : version = .tapscript ∨
      version = .p2mrTapscript ∧ ¬ signing.Defers sigdata (script, leafVersion)) :
    Returns (signing.signTaprootScript step sigdata leafVersion script version) fun signed =>
      signing.Steady sigdata signed.sigdata := by
  rw [signTaprootScript]
  split_ifs with tapscriptLeaf
  · exact .ok (.refl signing sigdata)
  · obtain ⟨satisfaction, made⟩ :=
      Option.ne_none_iff_exists'.mp fun none => throws ⟨not_ne_iff.mp tapscriptLeaf, none⟩
    refine (satisfy_returns (settled.imp_right And.left) made).bind fun given kept => ?_
    obtain ⟨given, after⟩ := given
    obtain ⟨rfl, steady⟩ := kept
    dsimp only at steady ⊢
    split_ifs with available stuck
    · exact .ok steady
    · obtain rfl | ⟨rfl, notDeferred⟩ := settled
      · cases stuck.1
      · refine absurd ⟨not_ne_iff.mp tapscriptLeaf, ?_⟩ notDeferred
        rw [made, Option.map_some, Satisfaction.deferred]
        simp [available, stuck.2]
    · exact .ok steady

/-- A leaf that Miniscript leaves unsatisfied goes to `SignStep`. -/
theorem signTaprootScript_deferred (step : Step) {sigdata : SignatureData} {leafVersion : UInt8}
    {script : Bytes} (deferred : signing.Defers sigdata (script, leafVersion)) :
    ∃ after, signing.Steady sigdata after ∧
      signing.signTaprootScript step sigdata leafVersion script .p2mrTapscript =
        step script .p2mrTapscript after
          (some (computeTapleafHash signing.hashes leafVersion script)) := by
  obtain ⟨tapscriptLeaf, left⟩ := deferred
  obtain ⟨satisfaction, made, left⟩ := Option.map_eq_some_iff.mp left
  obtain ⟨⟨given, after⟩, satisfied, rfl, steady⟩ := satisfy_returns (.inr rfl) made
  refine ⟨after, steady, ?_⟩
  rw [Satisfaction.deferred, Bool.and_eq_true, Bool.not_eq_true'] at left
  rw [signTaprootScript, if_neg (not_ne_iff.mpr tapscriptLeaf)]
  dsimp only at satisfied left
  simp only [satisfied]
  change (if given.available then _ else _) = _
  rw [if_neg (by simp [left.1]), if_pos ⟨trivial, left.2⟩]

theorem signTaprootScript_throws {version : SigVersion} (step : Step)
    (tapscript : version = .tapscript ∨ version = .p2mrTapscript) {sigdata : SignatureData}
    {leafVersion : UInt8} {script : Bytes}
    (throws : signing.ThrowsOn sigdata (script, leafVersion)) :
    signing.signTaprootScript step sigdata leafVersion script version =
      .error .nonFatalCheck := by
  have stops := satisfy_throws tapscript throws.2
  dsimp only at stops
  rw [signTaprootScript, if_neg (not_ne_iff.mpr throws.1)]
  simp only [stops]
  rfl

theorem signLeaf_returns {version : SigVersion} (step : Step)
    {state : List Bytes × SignatureData} {entry : (Bytes × UInt8) × List Bytes}
    (throws : ¬ signing.ThrowsOn state.2 entry.1)
    (settled : version = .tapscript ∨
      version = .p2mrTapscript ∧ ¬ signing.Defers state.2 entry.1) :
    Returns (signing.signLeaf step version state entry) fun next =>
      signing.Steady state.2 next.2 := by
  unfold signLeaf
  exact (signTaprootScript_returns step throws settled).bind fun signed steady => .ok steady

theorem signLeaf_throwsOn {version : SigVersion} (step : Step)
    (tapscript : version = .tapscript ∨ version = .p2mrTapscript)
    {state : List Bytes × SignatureData} {entry : (Bytes × UInt8) × List Bytes}
    (throws : signing.ThrowsOn state.2 entry.1) :
    signing.signLeaf step version state entry = .error .nonFatalCheck := by
  rw [signLeaf, signTaprootScript_throws step tapscript throws]
  rfl

/-! ## Taproot outputs -/

/-- The key path leaves a signature if there was one or one can be made. -/
theorem signKeyPath_returns (pubkey : Uint256) (merkleRoot : Option Uint256)
    (sigdata : SignatureData) :
    Returns (signing.signKeyPath pubkey merkleRoot sigdata) fun after =>
      signing.SameLeaves sigdata after ∧ after.trSpenddata = sigdata.trSpenddata ∧
        (!after.taprootKeyPathSig.isEmpty) =
          (!sigdata.taprootKeyPathSig.isEmpty || signing.signsKeyPath pubkey merkleRoot) := by
  obtain ⟨made, created⟩ :
      ∃ made, signing.creatorCreateSchnorrSig pubkey none merkleRoot .taproot = .ok made :=
    ⟨_, rfl⟩
  simp only [signKeyPath, signsKeyPath, created]
  split_ifs with unsigned
  · cases made with
    | none => exact .ok ⟨.refl signing sigdata, rfl, by simp [unsigned]⟩
    | some sig => exact .ok ⟨⟨.of_eq rfl rfl rfl rfl, rfl⟩, rfl, by simp [unsigned]⟩
  · exact .ok ⟨.refl signing sigdata, rfl, by simp [unsigned]⟩

/-- `SignTaproot` up to its loop: the key path of the internal key, then that of the
output. -/
def taprootKeyPath (signing : Signing) (output : Uint256) (sigdata : SignatureData) :
    Except Halt SignatureData := do
  let gathered := signing.gatherTaproot output sigdata
  let noted := signing.noteTaprootKey gathered gathered.trSpenddata.internalKey none
  let first ← signing.signKeyPath noted.trSpenddata.internalKey
    (some noted.trSpenddata.merkleRoot) noted
  signing.signKeyPath output none first

theorem signTaproot_eq (step : Step) (output : Uint256) (sigdata : SignatureData) :
    signing.signTaproot step output sigdata =
      signing.taprootKeyPath output sigdata >>= fun sigdata =>
        if sigdata.taprootKeyPathSig.isEmpty then
          signing.signLeaves step .tapscript sigdata.trSpenddata.scripts sigdata
        else pure ⟨true, [sigdata.taprootKeyPathSig], sigdata⟩ := by
  simp only [signTaproot, taprootKeyPath, bind_assoc]

theorem taprootKeyPath_returns (output : Uint256) (sigdata : SignatureData) :
    Returns (signing.taprootKeyPath output sigdata) fun after =>
      signing.SameLeaves sigdata after ∧
        taprootState after = signing.afterKeyPath output (taprootState sigdata) := by
  have gathered : signing.SameLeaves sigdata (signing.gatherTaproot output sigdata) ∧
      taprootState (signing.gatherTaproot output sigdata) =
        ⟨signing.taprootData output sigdata.trSpenddata, (taprootState sigdata).signed⟩ := by
    unfold gatherTaproot taprootData
    cases signing.provider.getTaprootSpendData output with
    | some spenddata => exact ⟨⟨.of_eq rfl rfl rfl rfl, rfl⟩, rfl⟩
    | none => exact ⟨.refl signing sigdata, rfl⟩
  have noted := noteTaprootKey_steady signing (signing.gatherTaproot output sigdata)
    (signing.gatherTaproot output sigdata).trSpenddata.internalKey none
  have state := noted.taproot.trans gathered.2
  unfold taprootKeyPath
  refine (signKeyPath_returns _ _ _).bind fun first firstKept => ?_
  refine (signKeyPath_returns _ _ first).imp fun second secondKept => ?_
  obtain ⟨firstLeaves, firstData, firstSigned⟩ := firstKept
  obtain ⟨secondLeaves, secondData, secondSigned⟩ := secondKept
  refine ⟨((gathered.1.trans noted.toSameLeaves).trans firstLeaves).trans secondLeaves, ?_⟩
  rw [taprootState, TaprootState.mk.injEq] at state
  rw [taprootState, afterKeyPath, secondSigned, firstSigned, secondData, firstData, state.1,
    state.2]
  rfl

/-- The loop over the leaves of a Taproot output ends if Miniscript throws on none of
them, and throws if it does on one. -/
theorem signTaproot_returns (step : Step) {output : Uint256} {sigdata : SignatureData}
    (safe : ¬ signing.TaprootThrows sigdata output (taprootState sigdata)) :
    Returns (signing.signTaproot step output sigdata) fun signed =>
      signing.SameLeaves sigdata signed.sigdata ∧
        taprootState signed.sigdata = signing.afterKeyPath output (taprootState sigdata) := by
  rw [signTaproot_eq]
  refine (taprootKeyPath_returns output sigdata).bind fun started kept => ?_
  obtain ⟨same, state⟩ := kept
  split_ifs with unsigned
  · refine (returns_foldlM (fun next => signing.Steady started next.2) (.refl signing started)
      fun entry member next steady => ?_).bind fun next steady => ?_
    · refine (signLeaf_returns step ?_ (.inl rfl)).imp fun later => steady.trans
      rw [(same.toSameKeys.trans steady.toSameKeys).throwsOn_iff]
      refine fun throws => safe ⟨?_, entry, ?_, throws⟩
      · rw [← state, taprootState, unsigned]
        rfl
      · rw [← state]
        exact member
    · exact .ok ⟨same.trans steady.toSameLeaves, steady.taproot.trans state⟩
  · exact .ok ⟨same, state⟩

theorem signTaproot_throws (step : Step) {output : Uint256} {sigdata : SignatureData}
    (throws : signing.TaprootThrows sigdata output (taprootState sigdata)) :
    signing.signTaproot step output sigdata = .error .nonFatalCheck := by
  obtain ⟨unsigned, entry, member, throwsOn⟩ := throws
  obtain ⟨started, reached, same, state⟩ := taprootKeyPath_returns output sigdata
  rw [← state] at unsigned member
  obtain ⟨before, after, split⟩ := List.append_of_mem member
  have looped : started.trSpenddata.scripts.foldlM (signing.signLeaf step .tapscript)
      ([], started) = .error .nonFatalCheck := by
    refine foldlM_eq_error (fun next => signing.Steady started next.2) split
      (.refl signing started) (fun earlier _ next steady => ?_) fun next steady => ?_
    · by_cases stops : signing.ThrowsOn next.2 earlier.1
      · exact .inr (signLeaf_throwsOn step (.inl rfl) stops)
      · exact .inl ((signLeaf_returns step stops (.inl rfl)).imp fun later => steady.trans)
    · refine signLeaf_throwsOn step (.inl rfl) ?_
      rwa [(same.toSameKeys.trans steady.toSameKeys).throwsOn_iff]
  rw [signTaproot_eq, reached]
  change (if started.taprootKeyPathSig.isEmpty then _ else _) = _
  rw [if_pos (by simpa [taprootState] using unsigned), signLeaves, looped]
  rfl

/-! ## `SignStep` on a leaf -/

theorem signStepWith_lacking (step : Step) {script : Bytes} {sigdata : SignatureData}
    (lacks : signing.LacksSignature sigdata script) (leafHash : Uint256) :
    signing.signStepWith step script .p2mrTapscript sigdata (some leafHash) =
      .error .assertion := by
  unfold LacksSignature at lacks
  unfold signStepWith
  split at lacks
  case h_1 pubkey solved =>
    simp only [solved, signSingle, createSig_lacking lacks]
    rfl
  case h_2 hash solved =>
    obtain ⟨pubkey, known, lacking⟩ := lacks
    simp only [solved, known, signSingle, createSig_lacking lacking]
    rfl
  case h_3 required pubkeys solved =>
    obtain ⟨pubkey, member, lacking⟩ := lacks
    obtain ⟨before, after, split⟩ := List.append_of_mem member
    simp only [solved, signKeys]
    rw [foldlM_eq_error (fun state => state.2 = sigdata) split rfl]
    · rfl
    · rintro earlier - ⟨ret, state⟩ rfl
      by_cases stored : state.signatures (signing.hash160 earlier) = none
      · exact .inr (by simp only [signKey, createSig_lacking stored]; rfl)
      · exact .inl (signKey_returns (· = state) (createSig_stored stored))
    · rintro ⟨ret, state⟩ rfl
      simp only [signKey, createSig_lacking lacking]
      rfl
  case h_4 => exact lacks.elim

theorem signStepWith_nested (step : Step) {script : Bytes} {program : Uint256}
    (nested : nestedProgram script = some program) (version : SigVersion)
    (sigdata : SignatureData) (leafHash : Option Uint256) :
    signing.signStepWith step script version sigdata leafHash =
      signing.signP2MR step program sigdata := by
  unfold nestedProgram at nested
  split at nested
  case h_1 found solved =>
    cases nested
    simp only [signStepWith, solved]
  case h_2 => cases nested

theorem signStepWith_taproot (step : Step) {script : Bytes} {output : Uint256}
    (taproot : taprootOutput script = some output) (version : SigVersion)
    (sigdata : SignatureData) (leafHash : Option Uint256) :
    signing.signStepWith step script version sigdata leafHash =
      signing.signTaproot step output sigdata := by
  unfold taprootOutput at taproot
  split at taproot
  case h_1 found solved =>
    cases taproot
    simp only [signStepWith, solved]
  case h_2 => cases taproot

theorem signStepWith_returns (step : Step) {script : Bytes} {sigdata : SignatureData}
    (plain : nestedProgram script = none) (untweaked : taprootOutput script = none)
    (complete : ¬ signing.LacksSignature sigdata script) (leafHash : Uint256) :
    Returns (signing.signStepWith step script .p2mrTapscript sigdata (some leafHash)) fun signed =>
      signing.Steady sigdata signed.sigdata := by
  unfold nestedProgram at plain
  unfold taprootOutput at untweaked
  unfold LacksSignature at complete
  unfold signStepWith
  cases solved : solver script <;>
    simp only [solved, ne_eq, not_true_eq_false, if_false] at plain untweaked complete ⊢
  case nonstandard | nullData | witnessUnknown | witnessV0Keyhash | dilithiumScripthash |
      dilithiumWitnessV0Keyhash | dilithiumWitnessV0Scripthash =>
    exact .ok (.refl signing sigdata)
  case scripthash | witnessV0Scripthash =>
    split
    · exact .ok (.refl signing sigdata)
    · exact .ok (.of_eq (.of_eq rfl rfl rfl rfl) rfl rfl)
  case pubkey pubkey => exact signSingle_returns _ (createSig_steady complete)
  case pubkeyhash hash =>
    split
    case h_1 => exact .ok (.of_eq (.of_eq rfl rfl rfl rfl) rfl rfl)
    case h_2 pubkey known =>
      exact signSingle_returns _ (createSig_steady fun lacking => complete ⟨pubkey, known, lacking⟩)
  case multisig required pubkeys =>
    refine signKeys_returns fun pubkey member state steady => createSig_steady fun lacking => ?_
    exact complete ⟨pubkey, member, steady.signatures ▸ lacking⟩
  case witnessV2P2mr => cases plain
  case witnessV1Taproot => cases untweaked
  case dilithiumPubkey pubkey =>
    exact signSingle_returns _ (createDilithiumSig_returns leafHash sigdata pubkey)
  case dilithiumPubkeyhash hash =>
    split
    · exact .ok (.of_eq (.of_eq rfl rfl rfl rfl) rfl rfl)
    · exact signSingle_returns _ (createDilithiumSig_returns leafHash sigdata _)
  case dilithiumMultisig required pubkeys =>
    exact signKeys_returns fun pubkey _ state _ => createDilithiumSig_returns leafHash state pubkey

/-! ## Leaves between the calls -/

section SignLeaf

variable {state : List Bytes × SignatureData} {entry : (Bytes × UInt8) × List Bytes}

/-- A leaf that comes to neither `SignP2MR` nor `SignTaproot` keeps the data. -/
theorem Follows.of_steady {leaf : Bytes × UInt8} {before after : SignatureData}
    (stays : signing.taprootEntered before leaf = none) (steady : signing.Steady before after) :
    signing.Follows leaf before after :=
  ⟨steady.toSameLeaves, by rw [steady.taproot, afterLeaf, stays]⟩

theorem signLeaf_deferred (step : Step) (deferred : signing.Defers state.2 entry.1) :
    ∃ after, signing.Steady state.2 after ∧
      signing.signLeaf step .p2mrTapscript state entry =
        step entry.1.1 .p2mrTapscript after
            (some (computeTapleafHash signing.hashes entry.1.2 entry.1.1)) >>=
          fun signed => pure (keepSmallest state.1 entry signed, signed.sigdata) := by
  obtain ⟨after, steady, signs⟩ := signTaprootScript_deferred step deferred
  exact ⟨after, steady, by rw [signLeaf, signs]⟩

/-- A leaf that Miniscript settles. -/
theorem signLeaf_settled (step : Step) (throws : ¬ signing.ThrowsOn state.2 entry.1)
    (settled : ¬ signing.Defers state.2 entry.1) :
    Returns (signing.signLeaf step .p2mrTapscript state entry) fun next =>
      signing.Follows entry.1 state.2 next.2 := by
  refine (signLeaf_returns step throws (.inr ⟨rfl, settled⟩)).imp fun next steady => ?_
  exact .of_steady (by rw [taprootEntered, if_neg settled]) steady

/-- `SignP2MR` gets past a leaf that `Passes`. -/
theorem signLeaf_passes (step : Step)
    (passes : signing.Passes state.2 (taprootState state.2) entry.1) :
    Returns (signing.signLeaf (signing.signStepWith step) .p2mrTapscript state entry) fun next =>
      signing.Follows entry.1 state.2 next.2 := by
  by_cases deferred : signing.Defers state.2 entry.1
  · obtain ⟨after, steady, signs⟩ := signLeaf_deferred (signing.signStepWith step) deferred
    rw [signs]
    have noProgram : nestedProgram entry.1.1 = none := by
      simpa only [entered, if_pos deferred] using passes.entered
    cases taproot : taprootOutput entry.1.1 with
    | none =>
        have complete : ¬ signing.LacksSignature after entry.1.1 := fun lacks =>
          passes.fails ⟨deferred, (steady.lacksSignature_iff _).mp lacks⟩
        refine (signStepWith_returns step noProgram taproot complete _).bind
          fun signed kept => .ok ?_
        exact .of_steady (by rw [taprootEntered, if_pos deferred, taproot]) (steady.trans kept)
    | some output =>
        have enters : signing.taprootEntered state.2 entry.1 = some output := by
          rw [taprootEntered, if_pos deferred, taproot]
        rw [signStepWith_taproot step taproot]
        refine (signTaproot_returns step fun throws => ?_).bind fun signed kept => .ok ?_
        · rw [steady.taprootThrows_iff, steady.taproot] at throws
          exact passes.throws (.inr ⟨output, enters, throws⟩)
        · refine ⟨steady.toSameLeaves.trans kept.1, ?_⟩
          rw [kept.2, steady.taproot, afterLeaf, enters]
  · exact signLeaf_settled _ (fun throws => passes.throws (.inl throws)) deferred

theorem signLeaf_fails (step : Step) (fails : signing.Fails state.2 entry.1) :
    signing.signLeaf (signing.signStepWith step) .p2mrTapscript state entry =
      .error .assertion := by
  obtain ⟨after, steady, signs⟩ := signLeaf_deferred (signing.signStepWith step) fails.1
  rw [signs, signStepWith_lacking step ((steady.lacksSignature_iff _).mpr fails.2)]
  rfl

theorem signLeaf_throws (step : Step)
    (throws : signing.Throws state.2 (taprootState state.2) entry.1) :
    signing.signLeaf (signing.signStepWith step) .p2mrTapscript state entry =
      .error .nonFatalCheck := by
  obtain throwsOn | ⟨output, enters, throws⟩ := throws
  · exact signLeaf_throwsOn _ (.inr rfl) throwsOn
  · have deferred : signing.Defers state.2 entry.1 := by
      by_contra settled
      rw [taprootEntered, if_neg settled] at enters
      cases enters
    obtain ⟨after, steady, signs⟩ := signLeaf_deferred (signing.signStepWith step) deferred
    rw [taprootEntered, if_pos deferred] at enters
    rw [signs, signStepWith_taproot step enters, signTaproot_throws step]
    · rfl
    · rwa [steady.taprootThrows_iff, steady.taproot]

theorem defers_of_entered {sigdata : SignatureData} {leaf : Bytes × UInt8} {program : Uint256}
    (enters : signing.entered sigdata leaf = some program) : signing.Defers sigdata leaf := by
  by_contra settled
  rw [entered, if_neg settled] at enters
  cases enters

/-- A leaf that is a P2MR output starts a call on the same leaves. -/
theorem signLeaf_nested (step : Step) {program : Uint256}
    (enters : signing.entered state.2 entry.1 = some program) :
    ∃ after, signing.Steady state.2 after ∧
      signing.signLeaf (signing.signStepWith step) .p2mrTapscript state entry =
        signing.signP2MR step program after >>=
          fun signed => pure (keepSmallest state.1 entry signed, signed.sigdata) := by
  have deferred := defers_of_entered enters
  obtain ⟨after, steady, signs⟩ := signLeaf_deferred (signing.signStepWith step) deferred
  rw [entered, if_pos deferred] at enters
  exact ⟨after, steady, by rw [signs, signStepWith_nested step enters]⟩

/-- Without fuel, no leaf gets to `SignStep`. -/
theorem signLeaf_zero :
    (signing.Passes state.2 (taprootState state.2) entry.1 ∧
        Returns (signing.signLeaf (signing.signStep 0) .p2mrTapscript state entry) fun next =>
          signing.Follows entry.1 state.2 next.2) ∨
      signing.signLeaf (signing.signStep 0) .p2mrTapscript state entry = .error .outOfFuel ∨
      signing.signLeaf (signing.signStep 0) .p2mrTapscript state entry =
        .error .nonFatalCheck := by
  by_cases deferred : signing.Defers state.2 entry.1
  · obtain ⟨after, -, signs⟩ := signLeaf_deferred (signing.signStep 0) deferred
    exact .inr (.inl signs)
  · by_cases throws : signing.ThrowsOn state.2 entry.1
    · exact .inr (.inr (signLeaf_throwsOn _ (.inr rfl) throws))
    · refine .inl ⟨⟨?_, fun fails => deferred fails.1, ?_⟩, signLeaf_settled _ throws deferred⟩
      · rw [entered, if_neg deferred]
      · rintro (throwsOn | ⟨output, enters, -⟩)
        · exact throws throwsOn
        · rw [taprootEntered, if_neg deferred] at enters
          cases enters

/-- A leaf that is left behind passes, if nested calls never return. -/
theorem signLeaf_ok {fuel : Nat} {next : List Bytes × SignatureData}
    (never : ∀ program after result, signing.entered state.2 entry.1 = some program →
      signing.Steady state.2 after → ∀ inner, fuel = inner + 1 →
        signing.signP2MR (signing.signStep inner) program after ≠ .ok result)
    (given : signing.signLeaf (signing.signStep fuel) .p2mrTapscript state entry = .ok next) :
    signing.Passes state.2 (taprootState state.2) entry.1 ∧
      signing.Follows entry.1 state.2 next.2 := by
  cases fuel with
  | zero =>
      obtain ⟨passes, returns⟩ | stopped | stopped := @signLeaf_zero signing state entry
      · exact ⟨passes, returns.of_ok given⟩
      · cases stopped.symm.trans given
      · cases stopped.symm.trans given
  | succ inner =>
      rw [signStep] at given
      have passes : signing.Passes state.2 (taprootState state.2) entry.1 := by
        refine ⟨?_, fun fails => ?_, fun throws => ?_⟩
        · by_contra enters
          obtain ⟨program, enters⟩ := Option.ne_none_iff_exists'.mp enters
          obtain ⟨after, steady, signs⟩ := signLeaf_nested (signing.signStep inner) enters
          rw [signs] at given
          exact bind_ne_ok (fun result => never program after result enters steady inner rfl) _
            given
        · cases (signLeaf_fails _ fails).symm.trans given
        · cases (signLeaf_throws _ throws).symm.trans given
      exact ⟨passes, (signLeaf_passes _ passes).of_ok given⟩

end SignLeaf

end QuantyCoin.Signing
