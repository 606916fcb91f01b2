import QuantyCoin.CoinSelection
import QuantyCoin.KeyLookups

/-!
# The choice of keys

An input is signed with the keys that the lookups find for its output.  If they find none,
it is signed with the first receiving key, and the input is rejected.
-/

namespace QuantyCoin

open Secp256k1 StateTriples

/-! ## Rejected signatures -/

section Rejection

variable {signers : Signers} {prim : Primitives}

/-- What the keys sign is not accepted for the script. -/
def SigningKeys.Rejects (signers : Signers) (prim : Primitives) (keys : SigningKeys)
    (script : Bytes) : Prop :=
  ∀ (amount : Nat) (tx signed : Transaction) (inputIndex : Nat),
    InputSigning.sign signers prim ⟨keys, script, amount⟩ tx inputIndex = .ok signed →
      signed.verifyInputSignature prim inputIndex script amount = false

theorem privkeyToPubkey_length {privkeyBytes pubkey : Bytes}
    (derived : privkeyToPubkey privkeyBytes true = .ok pubkey) : pubkey.length = 33 := by
  simp only [privkeyToPubkey, if_true] at derived
  split_ifs at derived
  split at derived
  · cases derived
  · cases derived
    rw [List.length_cons, toBytesBig_length]

/-- A classical signature names the key that has made it. -/
theorem Transaction.ecdsaItems_key {tx : Transaction} {inputIndex amount : Nat}
    {privkeyBytes script : Bytes} {items : Bytes × Bytes}
    (made : tx.ecdsaItems signers prim inputIndex privkeyBytes script amount = .ok items) :
    privkeyToPubkey privkeyBytes true = .ok items.2 := by
  obtain ⟨sighash, -, rest⟩ := except_bind_eq_ok.mp made
  obtain ⟨⟨r, s⟩, -, rest⟩ := except_bind_eq_ok.mp rest
  obtain ⟨derSig, -, rest⟩ := except_bind_eq_ok.mp rest
  obtain ⟨pubkey, isKey, returned⟩ := except_bind_eq_ok.mp rest
  cases returned
  exact isKey

theorem Transaction.setWitness_witness {tx : Transaction} {inputIndex : Nat} {inp : TxIn}
    {witness : List Bytes}
    (found : (tx.setWitness inputIndex witness).vin[inputIndex]? = some inp) :
    inp.witness = witness := by
  rw [setWitness, List.getElem?_modify_eq] at found
  obtain ⟨before, -, rfl⟩ := Option.map_eq_some_iff.mp found
  rfl

/-- A classical signature is only accepted for the hash of its own key. -/
theorem SigningKeys.ecdsa_rejects {privkeyBytes script : Bytes}
    (isWitness : script.head? ≠ some 0x76)
    (other : ∀ pubkey, privkeyToPubkey privkeyBytes true = .ok pubkey →
      script ≠ [0x00, 0x14] ++ prim.hash160 pubkey) :
    (SigningKeys.ecdsa privkeyBytes).Rejects signers prim script := by
  intro amount tx signed inputIndex signs
  rw [Bool.eq_false_iff]
  intro verified
  obtain ⟨⟨derSig, pubkey⟩, made, isSigned⟩ := except_bind_eq_ok.mp signs
  have isKey := Transaction.ecdsaItems_key made
  cases isSigned
  obtain ⟨inp, found, authorized⟩ := Transaction.authorized_of_verified verified
  rw [Transaction.setWitness_witness found] at authorized
  cases authorized with
  | witnessKeyHash isScript accepts => exact other pubkey isKey isScript
  | keyHash isScript accepts =>
      rw [isScript] at isWitness
      exact isWitness rfl
  | mlDsa isScript accepts =>
      have short := privkeyToPubkey_length isKey
      rw [accepts.pubkey_length] at short
      exact absurd short (by decide)

end Rejection

namespace HDWallet

variable {env : WalletEnvironment} {root : WalletRoot} {counts : KeyCounts} {program : Bytes}
  {given : Option (List Char)}

/-! ## Chosen keys -/

/-- The keys that are chosen for a script: they match it if the lookup finds them, and else
what they sign is rejected. -/
def Chosen (env : WalletEnvironment) (root : WalletRoot) (script : Bytes) (keys : SigningKeys)
    (wallet : HDWallet) : Option KeyCounts → Prop
  | some after => (∀ amount, InputSigning.Matches env.signers env.prim ⟨keys, script, amount⟩) ∧
      HoldsFirst env root after wallet
  | none => keys.Rejects env.signers env.prim script

theorem Owns.privkeyToPubkey {key : HDKey} (owns : Owns env program key) :
    ∃ pubkey, Secp256k1.privkeyToPubkey key.key true = .ok pubkey ∧
      env.prim.hash160 pubkey = program := by
  obtain ⟨pubkey, isPubkey, isProgram⟩ := except_map_eq_ok.mp owns.isProgram
  rw [HDKey.getPublicKey, if_pos owns.isPrivate] at isPubkey
  exact ⟨pubkey, isPubkey, isProgram⟩

theorem chooseKeys_keyHash (derived : WellDerived env root)
    (names : Given .receiving program given) (started : 0 < counts.receiving) :
    Triple (HoldsFirst env root counts) (chooseKeys env given ([0x00, 0x14] ++ program))
      (fun keys wallet => Chosen env root ([0x00, 0x14] ++ program) keys wallet
        (afterKeyLookup env root counts given.isSome program))
      (fun _ => True) := by
  apply (matchPq_none names.addressWith_eq.1 (by simp)).bind
  rintro (_ | never)
  swap
  · exact fun _ => False.elim
  apply (matchHybrid_none names.addressWith_eq.2 (by simp)).bind
  rintro (_ | never)
  swap
  · exact fun _ => False.elim
  apply (matchKey_first derived names started).bind
  intro key
  apply Triple.pure
  intro wallet lookedUp
  cases lookup : afterKeyLookup env root counts given.isSome program with
  | some after =>
      rw [lookup] at lookedUp
      obtain ⟨owns, holds⟩ := lookedUp
      obtain ⟨pubkey, isPubkey, rfl⟩ := owns.privkeyToPubkey
      exact ⟨fun amount => .witnessKeyHash isPubkey, holds⟩
  | none =>
      rw [lookup] at lookedUp
      obtain ⟨isPrivate, other⟩ := lookedUp
      apply SigningKeys.ecdsa_rejects (by simp)
      intro pubkey isPubkey isScript
      apply other
      rw [WalletRoot.keyProgram, HDKey.getPublicKey, if_pos isPrivate, isPubkey,
        List.append_cancel_left isScript]
      rfl

/-- Other witness programs are not signed for with a classical key. -/
theorem matchKey_rejects {script : Bytes} {pre : HDWallet → Prop}
    (isWitness : script.head? ≠ some 0x76) (other : script.take 2 ≠ [0x00, 0x14]) :
    Triple pre
      (do
        let key ← matchKey env given script
        return SigningKeys.ecdsa key.key)
      (fun keys _ => keys.Rejects env.signers env.prim script) (fun _ => True) := by
  apply Triple.trivial.bind
  intro key
  apply Triple.pure
  intro wallet _
  apply SigningKeys.ecdsa_rejects isWitness
  rintro pubkey - rfl
  exact other rfl

/-- The halves of an ML-DSA key belong together. -/
def KeyPairs (env : WalletEnvironment) : Prop :=
  ∀ seed key, env.mldsaFromSeed seed = .ok key →
    env.signers.MldsaKeyPair key.secretKey key.publicKey

theorem KeyPairs.pair (pairs : KeyPairs env) {index : Nat} {key : MLDSAKey}
    (isKey : root.pqKey env index = .ok key) :
    env.signers.MldsaKeyPair key.secretKey key.publicKey :=
  pairs _ key isKey

theorem chooseKeys_pq (derived : WellDerived env root) (pairs : KeyPairs env)
    (ordered : counts.Ordered) (names : Given .pq program given) (length : program.length = 32)
    (near : given.isSome = true →
      ∃ position, firstMatch env root .pq program (counts.pqAddresses + 50) = some position) :
    Triple (HoldsFirst env root counts) (chooseKeys env given ([0x51, 0x20] ++ program))
      (fun keys wallet => Chosen env root ([0x51, 0x20] ++ program) keys wallet
        (afterPqLookup env root counts given.isSome program))
      (fun _ => True) := by
  apply (matchPq_first derived ordered names near length).bind
  rintro (_ | key)
  · apply Triple.of_fact
    intro missed
    rw [missed]
    apply (matchHybrid_none names.addressWith_eq.2 (by simp)).bind
    rintro (_ | never)
    · exact matchKey_rejects (by simp) (by simp)
    · exact fun _ => False.elim
  · apply Triple.pure
    rintro wallet ⟨⟨rfl, index, isKey⟩, after, found, holds⟩
    rw [found]
    exact ⟨fun amount => .mlDsa (pairs.pair isKey), holds⟩

theorem chooseKeys_hybrid (derived : WellDerived env root) (pairs : KeyPairs env)
    (ordered : counts.Ordered) (names : Given .hybrid program given) (length : program.length = 32)
    (near : given.isSome = true →
      ∃ position, firstMatch env root .hybrid program (counts.hybrid + 50) = some position) :
    Triple (HoldsFirst env root counts) (chooseKeys env given ([0x52, 0x20] ++ program))
      (fun keys wallet => Chosen env root ([0x52, 0x20] ++ program) keys wallet
        (afterHybridLookup env root counts given.isSome program))
      (fun _ => True) := by
  apply (matchPq_none names.addressWith_eq.1 (by simp)).bind
  rintro (_ | never)
  swap
  · exact fun _ => False.elim
  apply (matchHybrid_first derived ordered names near length).bind
  rintro (_ | keys)
  · apply Triple.of_fact
    intro missed
    rw [missed]
    exact matchKey_rejects (by simp) (by simp)
  · apply Triple.pure
    rintro wallet ⟨⟨isProgram, index, isKey, isPqKey⟩, after, found, holds⟩
    rw [found]
    refine ⟨fun amount => ?_, holds⟩
    obtain ⟨pubkey, isPubkey, rfl⟩ := except_map_eq_ok.mp isProgram
    rw [HDKey.getPublicKey, if_pos (derived.chainKey_isPrivate isKey)] at isPubkey
    exact .hybrid isPubkey (pairs.pair isPqKey)

/-! ## Signed inputs -/

section Inputs

variable {utxo : Utxo} {kind : AddressKind} {index : Nat}

/-- The numbers of entries after the lookup of the keys of an output, if it finds them. -/
def Utxo.afterLookup (env : WalletEnvironment) (root : WalletRoot) (counts : KeyCounts)
    (utxo : Utxo) : Option KeyCounts :=
  let script := utxo.scriptPubKey.getD []
  let hasAddress := utxo.address.isSome
  if script.take 2 = [0x00, 0x14] then afterKeyLookup env root counts hasAddress (script.drop 2)
  else if script.take 2 = [0x51, 0x20] then
    afterPqLookup env root counts hasAddress (script.drop 2)
  else if script.take 2 = [0x52, 0x20] then
    afterHybridLookup env root counts hasAddress (script.drop 2)
  else none

/-- The lookups find the keys of all outputs, one after the other. -/
def findsAll (env : WalletEnvironment) (root : WalletRoot) : KeyCounts → List Utxo → Bool
  | _, [] => true
  | counts, utxo :: utxos =>
      match utxo.afterLookup env root counts with
      | some after => findsAll env root after utxos
      | none => false

/-- An output to an address of the wallet, which the address field gives if it is there. -/
structure Utxo.Receives (env : WalletEnvironment) (root : WalletRoot) (utxo : Utxo)
    (kind : AddressKind) (program : Bytes) : Prop where
  script : utxo.scriptPubKey = some (witnessScript kind.version program)
  names : Given kind program utxo.address
  length : program.length = programLength kind
  isMatch : ∃ index < 50, Matches env root kind program index

theorem exists_firstMatch {bound : Nat} (small : index < bound)
    (isMatch : Matches env root kind program index) :
    ∃ position, firstMatch env root kind program bound = some position := by
  rw [← Option.isSome_iff_exists, Option.isSome_iff_ne_none, ne_eq, firstMatch_eq_none_iff]
  exact fun none => none index small isMatch

/-- An output is found by its address, if that is no change address. -/
theorem Utxo.Receives.exists_afterLookup (receives : utxo.Receives env root kind program)
    (notChange : kind ≠ .change) (given : utxo.address.isSome = true) :
    ∃ after, utxo.afterLookup env root counts = some after := by
  obtain ⟨script, -, length, index, small, isMatch⟩ := receives
  rw [witnessScript, length] at script
  rw [Utxo.afterLookup, script, given]
  have near (count : Nat) : index < count + 50 := Nat.lt_of_lt_of_le small (Nat.le_add_left 50 count)
  cases kind with
  | receiving =>
      change ∃ after, afterKeyLookup env root counts true program = some after
      obtain ⟨position, found⟩ := exists_firstMatch (near counts.receiving) isMatch
      rw [afterKeyLookup, if_pos rfl, found]
      split_ifs
      · exact ⟨counts, rfl⟩
      · exact ⟨_, rfl⟩
  | change => exact absurd rfl notChange
  | pq =>
      obtain ⟨position, found⟩ := exists_firstMatch (near counts.pqAddresses) isMatch
      exact ⟨_, Option.map_eq_some_iff.mpr ⟨position, found, rfl⟩⟩
  | hybrid =>
      obtain ⟨position, found⟩ := exists_firstMatch (near counts.hybrid) isMatch
      exact ⟨_, Option.map_eq_some_iff.mpr ⟨position, found, rfl⟩⟩

/-- Outputs that come with addresses, none of them a change address, are all found. -/
theorem findsAll_of_given {utxos : List Utxo}
    (receives : ∀ utxo ∈ utxos, utxo.address.isSome = true ∧
      ∃ kind program, utxo.Receives env root kind program ∧ kind ≠ .change) :
    findsAll env root counts utxos = true := by
  induction utxos generalizing counts with
  | nil => rfl
  | cons utxo utxos ih =>
      obtain ⟨given, kind, program, isReceived, notChange⟩ := receives utxo List.mem_cons_self
      obtain ⟨after, found⟩ := isReceived.exists_afterLookup notChange given
      rw [findsAll, found]
      exact ih fun other member => receives other (List.mem_cons_of_mem utxo member)

theorem chooseKeys_first (derived : WellDerived env root) (pairs : KeyPairs env)
    (started : 0 < counts.receiving) (receives : utxo.Receives env root kind program) :
    Triple (HoldsFirst env root counts)
      (chooseKeys env utxo.address (witnessScript kind.version program))
      (fun keys wallet => Chosen env root (witnessScript kind.version program) keys wallet
        (utxo.afterLookup env root counts))
      (fun _ => True) := by
  intro wallet holds
  obtain ⟨script, names, length, index, small, isMatch⟩ := receives
  rw [witnessScript] at script ⊢
  rw [Utxo.afterLookup, script, length]
  cases kind with
  | receiving => exact chooseKeys_keyHash derived names started wallet holds
  | change =>
      have sameNames : Given .receiving program utxo.address := fun address given =>
        ⟨(names address given).encoded, length⟩
      exact chooseKeys_keyHash derived sameNames started wallet holds
  | pq =>
      have near := exists_firstMatch
        (Nat.lt_of_lt_of_le small (Nat.le_add_left 50 counts.pqAddresses)) isMatch
      exact chooseKeys_pq derived pairs holds.ordered names length (fun _ => near) wallet holds
  | hybrid =>
      have near := exists_firstMatch
        (Nat.lt_of_lt_of_le small (Nat.le_add_left 50 counts.hybrid)) isMatch
      exact chooseKeys_hybrid derived pairs holds.ordered names length (fun _ => near) wallet holds

theorem Utxo.afterLookup_receiving_le {after : KeyCounts}
    (found : utxo.afterLookup env root counts = some after) :
    counts.receiving ≤ after.receiving := by
  simp only [afterLookup, afterKeyLookup, afterPqLookup, afterHybridLookup] at found
  split_ifs at found
  all_goals
    first
    | cases found
      exact Nat.le_refl _
    | obtain ⟨position, -, rfl⟩ := Option.map_eq_some_iff.mp found
      first
      | exact Nat.le_refl _
      | exact Nat.le_max_left _ _

/-- Every input is accepted for the output that it spends. -/
def AllVerified (prim : Primitives) (tx : Transaction) (utxos : List Utxo)
    (inputIndex : Nat) : Prop :=
  ∀ position utxo script, utxos[position]? = some utxo → utxo.scriptPubKey = some script →
    tx.verifyInputSignature prim (inputIndex + position) script utxo.valueSat = true

theorem allVerified_cons {prim : Primitives} {tx : Transaction} {utxos : List Utxo}
    {inputIndex : Nat} {script : Bytes} (isScript : utxo.scriptPubKey = some script) :
    AllVerified prim tx (utxo :: utxos) inputIndex ↔
      tx.verifyInputSignature prim inputIndex script utxo.valueSat = true ∧
        AllVerified prim tx utxos (inputIndex + 1) := by
  constructor
  · intro all
    refine ⟨all 0 utxo script rfl isScript, fun position other otherScript found => ?_⟩
    rw [Nat.add_assoc, Nat.add_comm 1]
    exact all (position + 1) other otherScript found
  · rintro ⟨first, rest⟩ position other otherScript found isOther
    cases position with
    | zero =>
        cases found
        cases isScript.symm.trans isOther
        exact first
    | succ position =>
        have verified := rest position other otherScript found isOther
        rwa [Nat.add_assoc, Nat.add_comm 1] at verified

/-- The inputs before the given one are left as they are. -/
theorem signInputs_frame (utxos : List Utxo) (inputIndex : Nat) (tx : Transaction) :
    Triple (fun _ => True) (signInputs env utxos inputIndex tx)
      (fun signed _ => ∀ other < inputIndex, ∀ script amount,
        signed.verifyInputSignature env.prim other script amount =
          tx.verifyInputSignature env.prim other script amount)
      (fun _ => True) := by
  induction utxos generalizing inputIndex tx with
  | nil => exact .pure fun _ _ _ _ _ _ => rfl
  | cons utxo utxos ih =>
      apply Triple.trivial.bind
      intro prevScript
      apply Triple.trivial.bind
      intro keys
      have signs : Triple (fun _ => True)
          (reading fun _ => InputSigning.sign env.signers env.prim
            ⟨keys, prevScript, utxo.valueSat⟩ tx inputIndex)
          (fun signed _ => ∀ other ≠ inputIndex, ∀ script amount,
            signed.verifyInputSignature env.prim other script amount =
              tx.verifyInputSignature env.prim other script amount)
          (fun _ : HDWallet => True) := by
        apply Triple.reading fun _ _ => True.intro
        intro _ signed _ signs
        exact (InputSigning.sign_frame signs).2.2
      apply signs.bind
      intro signed
      apply Triple.of_fact
      intro same
      apply (ih (inputIndex + 1) signed).weaken fun _ _ => True.intro
      intro last _ later other before script amount
      rw [later other (Nat.lt_succ_of_lt before), same other (Nat.ne_of_lt before)]

theorem signInputs_first (correct : env.signers.Correct env.prim) (derived : WellDerived env root)
    (pairs : KeyPairs env) {utxos : List Utxo}
    (receives : ∀ utxo ∈ utxos, ∃ kind program, utxo.Receives env root kind program)
    (started : 0 < counts.receiving) (inputIndex : Nat) (tx : Transaction) :
    Triple (HoldsFirst env root counts) (signInputs env utxos inputIndex tx)
      (fun signed _ => AllVerified env.prim signed utxos inputIndex ↔
        findsAll env root counts utxos = true)
      (fun _ => True) := by
  induction utxos generalizing counts inputIndex tx with
  | nil =>
      apply Triple.pure
      intro wallet _
      simp [AllVerified, findsAll]
  | cons utxo utxos ih =>
      obtain ⟨kind, program, isReceived⟩ := receives utxo List.mem_cons_self
      have isScript := isReceived.script
      have asked : Triple (HoldsFirst env root counts) (reading fun _ => utxo.prevScript)
          (fun script wallet => script = witnessScript kind.version program ∧
            HoldsFirst env root counts wallet)
          (fun _ => True) := by
        apply Triple.reading fun _ _ => True.intro
        intro wallet script holds isPrev
        rw [Utxo.prevScript, isScript] at isPrev
        exact ⟨(Except.ok.inj isPrev).symm, holds⟩
      apply asked.bind
      intro script
      apply Triple.assuming
      rintro rfl
      apply (chooseKeys_first derived pairs started isReceived).bind
      intro keys
      have frame (signed : Transaction) (pre : HDWallet → Prop) :
          Triple pre (signInputs env utxos (inputIndex + 1) signed)
            (fun last _ => last.verifyInputSignature env.prim inputIndex
                (witnessScript kind.version program) utxo.valueSat =
              signed.verifyInputSignature env.prim inputIndex
                (witnessScript kind.version program) utxo.valueSat)
            (fun _ => True) :=
        (signInputs_frame utxos (inputIndex + 1) signed).weaken (fun _ _ => True.intro)
          fun _ _ same => same inputIndex (Nat.lt_succ_self _) _ _
      cases lookup : utxo.afterLookup env root counts with
      | some after =>
          have signs : Triple
              (fun wallet => Chosen env root (witnessScript kind.version program) keys wallet
                (some after))
              (reading fun _ => InputSigning.sign env.signers env.prim
                ⟨keys, witnessScript kind.version program, utxo.valueSat⟩ tx inputIndex)
              (fun signed wallet => signed.verifyInputSignature env.prim inputIndex
                  (witnessScript kind.version program) utxo.valueSat = true ∧
                HoldsFirst env root after wallet)
              (fun _ => True) := by
            apply Triple.reading fun _ _ => True.intro
            rintro wallet signed ⟨isMatch, holds⟩ signs
            exact ⟨InputSigning.verified_of_sign correct (isMatch _) signs, holds⟩
          apply signs.bind
          intro signed
          apply Triple.assuming
          intro verified
          have grown := Utxo.afterLookup_receiving_le lookup
          have rest := ih (fun other member => receives other (List.mem_cons_of_mem utxo member))
            (Nat.lt_of_lt_of_le started grown) (inputIndex + 1) signed
          apply (rest.both (frame signed _)).weaken fun _ holds => holds
          rintro last wallet ⟨isVerified, same⟩
          rw [allVerified_cons isScript, same, isVerified, findsAll, lookup]
          exact and_iff_right verified
      | none =>
          have signs : Triple
              (fun wallet => Chosen env root (witnessScript kind.version program) keys wallet none)
              (reading fun _ => InputSigning.sign env.signers env.prim
                ⟨keys, witnessScript kind.version program, utxo.valueSat⟩ tx inputIndex)
              (fun signed _ => signed.verifyInputSignature env.prim inputIndex
                (witnessScript kind.version program) utxo.valueSat = false)
              (fun _ => True) := by
            apply Triple.reading fun _ _ => True.intro
            intro wallet signed rejects signs
            exact rejects _ _ _ _ signs
          apply signs.bind
          intro signed
          apply Triple.of_fact
          intro rejected
          apply (frame signed _).weaken fun _ holds => holds
          intro last wallet same
          rw [allVerified_cons isScript, same, rejected, findsAll, lookup]
          simp

end Inputs

end HDWallet

end QuantyCoin
