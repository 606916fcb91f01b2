import QuantyCoin.Bech32Exactness
import QuantyCoin.TraceRuns
import QuantyCoin.WalletPayments

/-!
# What a wallet derives

Whatever a wallet is asked for, its caches hold values that are derived from its root, so
that an address that it returns belongs to one of its keys.
-/

namespace QuantyCoin

open DerivedCache StateTriples

/-! ## Addresses -/

/-- The methods that return an address. -/
inductive AddressKind
  | receiving
  | change
  | pq
  | hybrid
  deriving DecidableEq

/-- The witness version of an address. -/
def AddressKind.version : AddressKind → Nat
  | .receiving | .change => 0
  | .pq => 1
  | .hybrid => 2

namespace WalletRoot

variable (env : WalletEnvironment)

/-- The hash in the address of a key. -/
def keyProgram (key : HDKey) : Except PyException Bytes :=
  key.getPublicKey.map env.prim.hash160

/-- The witness program of an address. -/
def program (root : WalletRoot) : AddressKind → Nat → Except PyException Bytes
  | .receiving, index => do keyProgram env (← root.receivingKey env index)
  | .change, index => do keyProgram env (← root.changeKey env index)
  | .pq, index => do
      let key ← root.pqKey env index
      .ok (env.prim.sha256 key.publicKey)
  | .hybrid, index => do
      let secpKey ← root.receivingKey env index
      let pqKey ← root.pqKey env index
      hybridProgram env secpKey pqKey

/-- The address of a kind with an index. -/
def address (root : WalletRoot) (kind : AddressKind) (index : Nat) :
    Except PyException (List Char) := do
  encodeSegwitAddress mainnetBech32Hrp kind.version (← root.program env kind index)

end WalletRoot

theorem HDKey.getAddress_eq (env : WalletEnvironment) (key : HDKey) :
    key.getAddress env.prim =
      WalletRoot.keyProgram env key >>= encodeSegwitAddress mainnetBech32Hrp 0 := by
  rw [HDKey.getAddress, WalletRoot.keyProgram]
  cases key.getPublicKey <;> rfl

namespace HDWallet

variable {env : WalletEnvironment} {root : WalletRoot}

/-- The four methods that return an address. -/
def getAddressOf (env : WalletEnvironment) : AddressKind → Nat → WalletM (List Char)
  | .receiving => getReceivingAddress env
  | .change => getChangeAddress env
  | .pq => getPqAddress env
  | .hybrid => getHybridAddress env

/-! ## Derived entries -/

/-- All entries are derived from the root. -/
structure Consistent (env : WalletEnvironment) (root : WalletRoot) (wallet : HDWallet) :
    Prop where
  root_eq : wallet.root = root
  receiving : Sound (root.receivingKey env) wallet.receivingKeys
  change : Sound (root.changeKey env) wallet.changeKeys
  pq : Sound (root.pqKey env) wallet.pqKeys
  pqAddresses : Sound (root.address env .pq) wallet.pqAddresses
  hybridAddresses : Sound (root.address env .hybrid) wallet.hybridAddresses

/-- A method of a consistent wallet returns what the root determines. -/
abbrev Derives (env : WalletEnvironment) (root : WalletRoot) {α : Type} (method : WalletM α)
    (derived : Except PyException α) : Prop :=
  Yields (Consistent env root) method derived (Consistent env root) (Consistent env root)

theorem derives_getReceivingKey (index : Nat) :
    Derives env root (getReceivingKey env index) (root.receivingKey env index) := by
  apply storedOr_sound fun _ holds => holds.receiving
  · exact fun _ _ holds derived => { holds with receiving := holds.receiving.append derived }
  · exact .reading (fun _ holds => holds) (fun _ holds => by rw [holds.root_eq])
      fun _ holds => holds

theorem derives_getChangeKey (index : Nat) :
    Derives env root (getChangeKey env index) (root.changeKey env index) := by
  apply storedOr_sound fun _ holds => holds.change
  · exact fun _ _ holds derived => { holds with change := holds.change.append derived }
  · exact .reading (fun _ holds => holds) (fun _ holds => by rw [holds.root_eq])
      fun _ holds => holds

theorem derives_getPqKey (index : Nat) :
    Derives env root (getPqKey env index) (root.pqKey env index) := by
  apply storedOr_sound fun _ holds => holds.pq
  · exact fun _ _ holds derived => { holds with pq := holds.pq.append derived }
  · exact .reading (fun _ holds => holds) (fun _ holds => by rw [holds.root_eq])
      fun _ holds => holds

theorem derives_getReceivingAddress (index : Nat) :
    Derives env root (getReceivingAddress env index) (root.address env .receiving index) := by
  rw [WalletRoot.address, WalletRoot.program, bind_assoc]
  apply (derives_getReceivingKey index).bind
  intro key _
  rw [HDKey.getAddress_eq]
  exact .const

theorem derives_getChangeAddress (index : Nat) :
    Derives env root (getChangeAddress env index) (root.address env .change index) := by
  rw [WalletRoot.address, WalletRoot.program, bind_assoc]
  apply (derives_getChangeKey index).bind
  intro key _
  rw [HDKey.getAddress_eq]
  exact .const

theorem derives_getPqAddress (index : Nat) :
    Derives env root (getPqAddress env index) (root.address env .pq index) := by
  apply storedOr_sound fun _ holds => holds.pqAddresses
  · exact fun _ _ holds derived =>
      { holds with pqAddresses := holds.pqAddresses.append derived }
  · rw [WalletRoot.address, WalletRoot.program, bind_assoc]
    apply (derives_getPqKey index).bind
    intro key _
    exact .const

theorem derives_getHybridAddress (index : Nat) :
    Derives env root (getHybridAddress env index) (root.address env .hybrid index) := by
  apply storedOr_sound fun _ holds => holds.hybridAddresses
  · exact fun _ _ holds derived =>
      { holds with hybridAddresses := holds.hybridAddresses.append derived }
  · rw [WalletRoot.address, WalletRoot.program, bind_assoc]
    apply (derives_getReceivingKey index).bind
    intro secpKey _
    rw [bind_assoc]
    apply (derives_getPqKey index).bind
    intro pqKey _
    exact .const

/-- Every method that returns an address returns the one that the root determines. -/
theorem derives_getAddressOf (kind : AddressKind) (index : Nat) :
    Derives env root (getAddressOf env kind index) (root.address env kind index) := by
  cases kind with
  | receiving => exact derives_getReceivingAddress index
  | change => exact derives_getChangeAddress index
  | pq => exact derives_getPqAddress index
  | hybrid => exact derives_getHybridAddress index

/-! ## What all methods keep -/

/-- The methods that store entries keep an invariant, also where they raise. -/
structure KeptByStores (env : WalletEnvironment) (invariant : HDWallet → Prop) : Prop where
  receivingKey : ∀ index, Keeps invariant (getReceivingKey env index)
  changeKey : ∀ index, Keeps invariant (getChangeKey env index)
  pqKey : ∀ index, Keeps invariant (getPqKey env index)
  pqAddress : ∀ index, Keeps invariant (getPqAddress env index)
  hybridAddress : ∀ index, Keeps invariant (getHybridAddress env index)

theorem consistent_keptByStores : KeptByStores env (Consistent env root) where
  receivingKey index := (derives_getReceivingKey index).keeps
  changeKey index := (derives_getChangeKey index).keeps
  pqKey index := (derives_getPqKey index).keeps
  pqAddress index := (derives_getPqAddress index).keeps
  hybridAddress index := (derives_getHybridAddress index).keeps

section Methods

variable {invariant : HDWallet → Prop} (kept : KeptByStores env invariant)
include kept

theorem keeps_getAddressOf (kind : AddressKind) (index : Nat) :
    Keeps invariant (getAddressOf env kind index) := by
  cases kind with
  | receiving => exact (kept.receivingKey index).bind fun _ => .reading _
  | change => exact (kept.changeKey index).bind fun _ => .reading _
  | pq => exact kept.pqAddress index
  | hybrid => exact kept.hybridAddress index

variable {address : List Char} {given : Option (List Char)} {script : Bytes}

theorem keeps_findKeyForAddress : Keeps invariant (findKeyForAddress env address) := by
  apply Keeps.bind (.reading _)
  intro receiving
  apply Keeps.bind (.reading _)
  intro change
  apply (Keeps.searchFirst fun _ => .reading _).otherwise
  apply (Keeps.searchFirst fun _ => .reading _).otherwise
  apply Keeps.searchFirst
  intro index
  exact (kept.receivingKey index).bind fun _ => .reading _

theorem keeps_findPqKeyForAddress : Keeps invariant (findPqKeyForAddress env address) :=
  keeps_findAhead kept.pqAddress (fun _ => .reading _) 50 address

theorem keeps_hybridKeys (index : Nat) : Keeps invariant (hybridKeys env index) := by
  apply (kept.receivingKey index).bind
  intro secpKey
  exact (Keeps.reading _).bind fun _ => .pure _

theorem keeps_findHybridKeysForAddress :
    Keeps invariant (findHybridKeysForAddress env address) :=
  keeps_findAhead kept.hybridAddress (keeps_hybridKeys kept) 50 address

theorem keeps_matchPq : Keeps invariant (matchPq env given script) := by
  apply Keeps.otherwise
  · exact .whenSome fun _ => keeps_findPqKeyForAddress kept
  · exact .reading _

theorem keeps_hybridKeysWithProgram (program : Bytes) (index : Nat) :
    Keeps invariant (hybridKeysWithProgram env program index) := by
  apply (kept.receivingKey index).bind
  intro secpKey
  apply (kept.pqKey index).bind
  intro pqKey
  exact .reading _

theorem keeps_matchHybrid : Keeps invariant (matchHybrid env given script) := by
  apply Keeps.otherwise
  · exact .whenSome fun _ => keeps_findHybridKeysForAddress kept
  · unfold matchHybridProgram
    split_ifs
    · apply Keeps.bind (.reading _)
      intro known
      exact .searchFirst (keeps_hybridKeysWithProgram kept _)
    · exact .pure _

theorem keeps_matchKey : Keeps invariant (matchKey env given script) := by
  apply Keeps.bind
  · apply Keeps.otherwise
    · exact .whenSome fun _ => keeps_findKeyForAddress kept
    · apply Keeps.bind (.reading _)
      intro keys
      exact .searchFirst fun _ => .reading _
  · intro found
    cases found with
    | some key => exact .pure _
    | none => exact kept.receivingKey 0

theorem keeps_chooseKeys : Keeps invariant (chooseKeys env given script) := by
  apply (keeps_matchPq kept).bind
  intro pqMatch
  cases pqMatch with
  | some key => exact .pure _
  | none =>
      apply (keeps_matchHybrid kept).bind
      intro hybridMatch
      cases hybridMatch with
      | some keys => exact .pure _
      | none => exact (keeps_matchKey kept).bind fun _ => .pure _

theorem keeps_signInputs (utxos : List Utxo) (inputIndex : Nat) (tx : Transaction) :
    Keeps invariant (signInputs env utxos inputIndex tx) := by
  induction utxos generalizing inputIndex tx with
  | nil => exact .pure _
  | cons utxo utxos ih =>
      apply Keeps.bind (.reading _)
      intro prevScript
      apply (keeps_chooseKeys kept).bind
      intro keys
      apply Keeps.bind (.reading _)
      intro signed
      exact ih (inputIndex + 1) signed

theorem keeps_changeOutput (changeSat : Int) (changeAddress : Option (List Char)) :
    Keeps invariant (changeOutput env changeSat changeAddress) := by
  unfold changeOutput
  split_ifs
  · apply Keeps.bind
    · unfold changeAddressOr
      split
      · exact .pure _
      · exact keeps_getAddressOf kept .change 0
    · intro address
      exact (Keeps.reading _).bind fun _ => .pure _
  · exact .pure _

theorem keeps_buildTransaction (payment : Payment) :
    Keeps invariant (buildTransaction env payment) := by
  unfold buildTransaction
  split_ifs
  · exact .throw _
  · exact .throw _
  · apply Keeps.bind (.reading _)
    intro out
    apply (keeps_changeOutput kept _ _).bind
    intro change
    exact keeps_signInputs kept _ _ _

end Methods

/-! ## Runs -/

/-- What a wallet is asked for. -/
inductive WalletCall
  | getAddress (kind : AddressKind) (index : Nat)
  | build (payment : Payment)

/-- A call, with the address that it returns.  A call that raises keeps what it has
cached. -/
def call (env : WalletEnvironment) (wallet : HDWallet) :
    WalletCall → Option (HDWallet × List (List Char))
  | .getAddress kind index =>
      match getAddressOf env kind index wallet with
      | .ok address next => some (next, [address])
      | .error _ next => some (next, [])
  | .build payment => some (finalState (buildTransaction env payment wallet), [])

/-- The indices that a wallet is asked for. -/
def WithinFifty : WalletCall → Prop
  | .getAddress _ index => index < 50
  | .build _ => True

/-- The addresses that a wallet has returned, and what has become of it. -/
abbrev WalletRun (env : WalletEnvironment) (start : HDWallet) :
    List (List Char) → HDWallet → Prop :=
  TraceRuns.Run (call env) start fun _ _ asked => WithinFifty asked

theorem WalletRun.invariant {start wallet : HDWallet} {addresses : List (List Char)}
    (consistent : Consistent env root start) (run : WalletRun env start addresses wallet) :
    Consistent env root wallet ∧ ∀ address ∈ addresses,
      ∃ kind index, index < 50 ∧ root.address env kind index = .ok address := by
  apply TraceRuns.Run.invariant _ _ run
  · exact ⟨consistent, by simp⟩
  · rintro addresses wallet asked next events - ⟨holds, derived⟩ within called
    cases asked with
    | build payment =>
        cases called
        exact ⟨(keeps_buildTransaction consistent_keptByStores payment).final holds, by simpa using derived⟩
    | getAddress kind index =>
        have yields := derives_getAddressOf kind index wallet holds
        rw [call] at called
        split at called
        · rename_i address after returned
          rw [returned] at yields
          cases called
          refine ⟨yields.2, ?_⟩
          intro other member
          rcases List.mem_append.mp member with earlier | new
          · exact derived other earlier
          · cases List.mem_singleton.mp new
            exact ⟨kind, index, within, yields.1⟩
        · rename_i error after raised
          rw [raised] at yields
          cases called
          exact ⟨yields, by simpa using derived⟩

end HDWallet

end QuantyCoin
