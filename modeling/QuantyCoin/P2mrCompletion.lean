import QuantyCoin.MissingOutputs
import QuantyCoin.P2mrSigning
import QuantyCoin.StateTriples
import QuantyCoin.WalletCoins

/-!
# Completion of P2MR transactions

`SignP2MRTransaction` of `wallet/p2mr.cpp`, with `CWallet::SignTransaction` and
`SignTransaction` of `script/sign.cpp`, which go over all inputs before.  The flag
`complete` speaks of the inputs that spend a P2MR coin.  Each of them has been verified
if the flag is set, and the others are left as the wallet has signed them.

`VerifyScript` and the hashes of signatures are given by what they compute from the
unsigned transaction, the spent outputs, the index of the input and its amount; the
interpreter is one instance of `VerifyScript`.
-/

namespace QuantyCoin

open ByteDecoder StateTriples

/-! ## Transactions that are signed -/

/-- `CTxIn` of a `CMutableTransaction`. -/
structure MutableTxIn extends CTxIn where
  scriptSig : Bytes
  deriving DecidableEq

structure CMutableTransaction where
  nVersion : Int32
  vin : List MutableTxIn
  vout : List CTxOut
  nLockTime : UInt32
  deriving DecidableEq

/-- The input without what signing changes. -/
def MutableTxIn.unsigned (txin : MutableTxIn) : CTxIn := { txin.toCTxIn with scriptWitness := [] }

/-- The transaction without what signing changes. -/
def CMutableTransaction.unsigned (tx : CMutableTransaction) : CTransaction :=
  ⟨tx.nVersion, tx.vin.map MutableTxIn.unsigned, tx.vout, tx.nLockTime⟩

/-- `Coin`, without its height and whether it is from a coinbase transaction. -/
structure Coin where
  out : CTxOut

/-- `Coin::IsSpent`. -/
def Coin.isSpent (coin : Coin) : Bool := coin.out.nValue = -1

/-- A coins map. -/
abbrev Coins := COutPoint → Option Coin

/-- The coin of an outpoint, if it is there and not spent. -/
def Coins.unspent (coins : Coins) (prevout : COutPoint) : Option Coin :=
  (coins prevout).filter fun coin => !coin.isSpent

/-- What signing takes from elsewhere: hashes, Miniscript, the creator of signatures
and `VerifyScript` under the standard flags with the checker of an input, each without
or with the spent outputs, and what `DataFromTransaction` extracts from an input.  A
signature check of a P2MR leaf that lacks the spent outputs fails, and with it the
script: what is accepted without them is accepted with them. -/
structure SigningContext where
  hashes : ScriptHashes
  hash160 : Bytes → Bytes
  ripemd160 : Bytes → Bytes
  wshMiniscript : Miniscript Bytes
  tapMiniscript : Miniscript Uint256
  creator : CTransaction → Option (List CTxOut) → Nat → Int64 → MutableTransactionSignatureCreator
  verifyScript : CTransaction → Option (List CTxOut) → Nat → Int64 →
    Bytes → Bytes → List Bytes → Bool
  extracted : CTransaction → Nat → CTxOut → Bytes → List Bytes → SignatureData
  verifyScript_of_missing : ∀ tx spent i amount scriptSig program scriptWitness,
    verifyScript tx none i amount scriptSig (p2mrScript program) scriptWitness = true →
      verifyScript tx (some spent) i amount scriptSig (p2mrScript program) scriptWitness = true

/-- The context whose `VerifyScript` is the one of the interpreter. -/
def SigningContext.ofCrypto (crypto : TransactionCrypto) (wshMiniscript : Miniscript Bytes)
    (tapMiniscript : Miniscript Uint256)
    (creator : CTransaction → Option (List CTxOut) → Nat → Int64 →
      MutableTransactionSignatureCreator)
    (extracted : CTransaction → Nat → CTxOut → Bytes → List Bytes → SignatureData) :
    SigningContext where
  hashes := crypto.toScriptHashes
  hash160 := HashOp.hash160.eval crypto.toScriptCrypto
  ripemd160 := HashOp.ripemd160.eval crypto.toScriptCrypto
  wshMiniscript := wshMiniscript
  tapMiniscript := tapMiniscript
  creator := creator
  verifyScript := crypto.verifyInput
  extracted := extracted
  verifyScript_of_missing := crypto.verifyInput_of_missing

/-- The script and the witness of an input solve its coin. -/
def SigningContext.verifies (context : SigningContext) (tx : CTransaction)
    (spent : Option (List CTxOut)) (i : Nat) (txout : CTxOut) (txin : MutableTxIn) : Bool :=
  context.verifyScript tx spent i txout.nValue txin.scriptSig txout.scriptPubKey txin.scriptWitness

/-- The wallet, by the providers it signs with: those of its `ScriptPubKeyMan`s for some
coins, and the one of `BuildP2MRSigningProvider`, which may hold no tree. -/
structure SigningWallet where
  scriptPubKeyMans : List (Coins → SigningProvider)
  p2mrProvider : Option (List Char) → SigningProvider
  hasP2mrTrees : Bool
  findCoins : COutPoint → Coin

/-! ## One input -/

/-- `UpdateInput`. -/
def MutableTxIn.update (txin : MutableTxIn) (data : SignatureData) : MutableTxIn :=
  { txin with scriptSig := data.scriptSig, scriptWitness := data.scriptWitness }

/-- The input with no script and a witness of its own. -/
def MutableTxIn.withWitness (txin : MutableTxIn) (scriptWitness : List Bytes) : MutableTxIn :=
  { txin with scriptSig := [], scriptWitness }

namespace SigningContext

variable (context : SigningContext) (tx : CTransaction)

/-- The arguments of `ProduceSignature` for an input. -/
def signing (provider : SigningProvider) (spent : Option (List CTxOut)) (i : Nat)
    (amount : Int64) : Signing where
  hashes := context.hashes
  hash160 := context.hash160
  ripemd160 := context.ripemd160
  provider := provider
  creator := context.creator tx spent i amount
  wshMiniscript := context.wshMiniscript
  tapMiniscript := context.tapMiniscript
  verifyScript := context.verifyScript tx spent i amount

/-- `DataFromTransaction`, whose checker has no spent outputs. -/
def dataFromTransaction (i : Nat) (txout : CTxOut) (txin : MutableTxIn) : SignatureData :=
  { context.extracted tx i txout txin.scriptSig txin.scriptWitness with
    scriptSig := txin.scriptSig
    scriptWitness := txin.scriptWitness
    witness := false
    complete := context.verifies tx none i txout txin }

variable (fuel : Nat) (provider : SigningProvider)

/-- `SignTransaction` for one input: the input, and whether it has no error. -/
def signTxIn (spent : Option (List CTxOut)) (coins : Coins) (i : Nat) (txin : MutableTxIn) :
    Except Halt (MutableTxIn × Bool) :=
  match coins.unspent txin.prevout with
  | none => .ok (txin, false)
  | some coin => do
      let (_, data) ← (context.signing tx provider spent i coin.out.nValue).produceSignature fuel
        coin.out.scriptPubKey (context.dataFromTransaction tx i coin.out txin)
      let updated := txin.update data
      let missingAmount := coin.out.nValue = maxMoney ∧ updated.scriptWitness ≠ []
      return (updated, !missingAmount && context.verifies tx spent i coin.out updated)

/-- The witness of a script that takes no arguments, made from the first leaf. -/
def fallback (spent : List CTxOut) (program : Uint256) (i : Nat) (txout : CTxOut)
    (txin : MutableTxIn) : MutableTxIn × Bool :=
  match (provider.getP2MRSpendData program).bind fun data => data.scripts.head? with
  | some ((script, leafVersion), controlBlock :: _) =>
      if leafVersion = taprootLeafTapscript then
        if context.verifies tx (some spent) i txout (txin.withWitness [script, controlBlock]) then
          (txin.withWitness [script, controlBlock], true)
        else (txin.withWitness [], false)
      else (txin, false)
  | _ => (txin, false)

/-- The body of the loop of `SignP2MRTransaction`: the input, and whether `complete`
may stay. -/
def signP2MRTxIn (spent : List CTxOut) (coins : Coins) (i : Nat) (txin : MutableTxIn) :
    Except Halt (MutableTxIn × Bool) :=
  match coins.unspent txin.prevout with
  | none => .ok (txin, true)
  | some coin =>
      match solver coin.out.scriptPubKey with
      | .witnessV2P2mr program => do
          let (solved, data) ←
            (context.signing tx provider (some spent) i coin.out.nValue).produceSignature fuel
              coin.out.scriptPubKey (context.dataFromTransaction tx i coin.out txin)
          return if solved then (txin.update data, true)
            else context.fallback tx provider spent program i coin.out txin
      | _ => .ok (txin, true)

/-! ## All inputs -/

/-- A loop over the inputs, and whether all of them are done. -/
def signEach (sign : Nat → MutableTxIn → Except Halt (MutableTxIn × Bool)) :
    Nat → List MutableTxIn → Except Halt (List MutableTxIn × Bool)
  | _, [] => .ok ([], true)
  | i, txin :: vin => do
      let (signed, done) ← sign i txin
      let (rest, all) ← signEach sign (i + 1) vin
      return (signed :: rest, done && all)

/-- The outputs that are spent, if all of them are there. -/
def spentOutputs (coins : Coins) (vin : List MutableTxIn) : Option (List CTxOut) :=
  vin.mapM fun txin => (coins.unspent txin.prevout).map Coin.out

/-- The outputs that are spent, with a null output for every coin that is not there. -/
def spentOrNull (coins : Coins) (vin : List MutableTxIn) : List CTxOut :=
  vin.map fun txin => ((coins.unspent txin.prevout).map Coin.out).getD CTxOut.null

/-- `SignTransaction`: the transaction, and whether there are no errors. -/
def signTransaction (coins : Coins) (tx : CMutableTransaction) :
    Except Halt (CMutableTransaction × Bool) := do
  let (vin, all) ← signEach
    (context.signTxIn tx.unsigned fuel provider (spentOutputs coins tx.vin) coins) 0 tx.vin
  return ({ tx with vin }, all)

end SigningContext

namespace SigningWallet

open SigningContext

variable (wallet : SigningWallet) (context : SigningContext) (fuel : Nat)

/-- The providers of `CWallet::SignTransaction`, in their order. -/
def providers (coins : Coins) : List SigningProvider :=
  wallet.scriptPubKeyMans.map (fun manager => manager coins) ++
    if wallet.hasP2mrTrees then [wallet.p2mrProvider none] else []

/-- `CWallet::SignTransaction`, which stops when there are no errors. -/
def signWith (coins : Coins) :
    List SigningProvider → CMutableTransaction → Except Halt CMutableTransaction
  | [], tx => .ok tx
  | provider :: providers, tx => do
      let (signed, all) ← context.signTransaction fuel provider coins tx
      if all then return signed else signWith coins providers signed

/-- The map of the coins, with an entry for every input. -/
def coins (tx : CMutableTransaction) : Coins := fun prevout =>
  if prevout ∈ tx.vin.map (fun txin => txin.prevout) then some (wallet.findCoins prevout) else none

/-- `P2MRSpendSigned`. -/
structure P2MRSpendSigned where
  tx : CMutableTransaction
  complete : Bool
  deriving DecidableEq

/-- `SignP2MRTransaction`. -/
def signP2MRTransaction (onlyId : Option (List Char)) (tx : CMutableTransaction) :
    Except Halt P2MRSpendSigned := do
  let coins := wallet.coins tx
  let signed ← signWith context fuel coins (wallet.providers coins) tx
  let (vin, complete) ← signEach
    (context.signP2MRTxIn signed.unsigned fuel (wallet.p2mrProvider onlyId)
      (spentOrNull coins signed.vin) coins) 0 signed.vin
  return ⟨{ signed with vin }, complete⟩

end SigningWallet

/-! ## What a loop over the inputs leaves -/

namespace SigningContext

section Loop

variable {sign : Nat → MutableTxIn → Except Halt (MutableTxIn × Bool)}
  {vin signed : List MutableTxIn} {all : Bool}

theorem signEach_cons {i : Nat} {txin : MutableTxIn}
    (ran : signEach sign i (txin :: vin) = .ok (signed, all)) :
    ∃ first done rest others, sign i txin = .ok (first, done) ∧
      signEach sign (i + 1) vin = .ok (rest, others) ∧ signed = first :: rest ∧
      all = (done && others) := by
  obtain ⟨⟨first, done⟩, step, later⟩ := except_bind_eq_ok.mp ran
  obtain ⟨⟨rest, others⟩, passed, both⟩ := except_bind_eq_ok.mp later
  cases both
  exact ⟨first, done, rest, others, step, passed, rfl, rfl⟩

/-- Every input that is left comes from the one at its index. -/
theorem signEach_getElem? {i k : Nat} {after : MutableTxIn}
    (ran : signEach sign i vin = .ok (signed, all)) (found : signed[k]? = some after) :
    ∃ before done, vin[k]? = some before ∧ sign (i + k) before = .ok (after, done) ∧
      (all = true → done = true) := by
  induction vin generalizing i k signed all with
  | nil =>
      cases ran
      simp at found
  | cons txin vin ih =>
      obtain ⟨first, done, rest, others, step, later, rfl, rfl⟩ := signEach_cons ran
      cases k with
      | zero =>
          cases found
          exact ⟨txin, done, rfl, step, fun both => (Bool.and_eq_true_iff.mp both).1⟩
      | succ k =>
          obtain ⟨before, done', here, ran', kept⟩ := ih later found
          refine ⟨before, done', here, ?_, fun both => kept (Bool.and_eq_true_iff.mp both).2⟩
          rw [show i + (k + 1) = i + 1 + k by omega]
          exact ran'

theorem signEach_unsigned {i : Nat} (ran : signEach sign i vin = .ok (signed, all))
    (keeps : ∀ i before after done, sign i before = .ok (after, done) →
      after.unsigned = before.unsigned) :
    signed.map MutableTxIn.unsigned = vin.map MutableTxIn.unsigned := by
  induction vin generalizing i signed all with
  | nil =>
      cases ran
      rfl
  | cons txin vin ih =>
      obtain ⟨first, done, rest, others, step, later, rfl, -⟩ := signEach_cons ran
      rw [List.map_cons, List.map_cons, keeps i txin first done step, ih later]

end Loop

/-! ## Only scripts and witnesses change -/

theorem prevout_eq {first second : MutableTxIn} (same : first.unsigned = second.unsigned) :
    first.prevout = second.prevout := by
  have prevouts : first.unsigned.prevout = second.unsigned.prevout := congrArg CTxIn.prevout same
  exact prevouts

@[simp] theorem unsigned_update (txin : MutableTxIn) (data : SignatureData) :
    (txin.update data).unsigned = txin.unsigned := rfl

variable {context : SigningContext} {tx : CTransaction} {fuel : Nat} {provider : SigningProvider}
  {coins : Coins} {spent : List CTxOut} {i : Nat} {before after : MutableTxIn} {done : Bool}

theorem signTxIn_unsigned {outputs : Option (List CTxOut)}
    (ran : context.signTxIn tx fuel provider outputs coins i before = .ok (after, done)) :
    after.unsigned = before.unsigned := by
  unfold signTxIn at ran
  cases coin : coins.unspent before.prevout with
  | none =>
      rw [coin] at ran
      cases ran
      rfl
  | some coin' =>
      simp only [coin] at ran
      obtain ⟨⟨solved, data⟩, -, updated⟩ := except_bind_eq_ok.mp ran
      cases updated
      rfl

theorem fallback_unsigned (program : Uint256) (txout : CTxOut) (txin : MutableTxIn) :
    (context.fallback tx provider spent program i txout txin).1.unsigned = txin.unsigned := by
  unfold fallback
  split
  · split_ifs <;> rfl
  · rfl

/-- What the body of the loop does to an unspent P2MR coin. -/
theorem signP2MRTxIn_p2mr {coin : Coin} {program : Uint256}
    (found : coins.unspent before.prevout = some coin)
    (solved : solver coin.out.scriptPubKey = .witnessV2P2mr program)
    (ran : context.signP2MRTxIn tx fuel provider spent coins i before = .ok (after, done)) :
    ∃ signs data,
      (context.signing tx provider (some spent) i coin.out.nValue).produceSignature fuel
        coin.out.scriptPubKey (context.dataFromTransaction tx i coin.out before) =
          .ok (signs, data) ∧
      (after, done) = if signs then (before.update data, true)
        else context.fallback tx provider spent program i coin.out before := by
  unfold signP2MRTxIn at ran
  simp only [found, solved] at ran
  obtain ⟨⟨signs, data⟩, produced, result⟩ := except_bind_eq_ok.mp ran
  exact ⟨signs, data, produced, (Except.ok.inj result).symm⟩

/-- Every other input is passed over. -/
theorem signP2MRTxIn_other
    (other : ∀ coin program, coins.unspent before.prevout = some coin →
      solver coin.out.scriptPubKey ≠ .witnessV2P2mr program) :
    context.signP2MRTxIn tx fuel provider spent coins i before = .ok (before, true) := by
  unfold signP2MRTxIn
  cases found : coins.unspent before.prevout with
  | none => rfl
  | some coin =>
      cases solved : solver coin.out.scriptPubKey with
      | witnessV2P2mr program => exact absurd solved (other coin program found)
      | _ => simp only [solved]

theorem signP2MRTxIn_unsigned
    (ran : context.signP2MRTxIn tx fuel provider spent coins i before = .ok (after, done)) :
    after.unsigned = before.unsigned := by
  by_cases other : ∀ coin program, coins.unspent before.prevout = some coin →
      solver coin.out.scriptPubKey ≠ .witnessV2P2mr program
  · rw [signP2MRTxIn_other other] at ran
    cases ran
    rfl
  · simp only [not_forall, not_not] at other
    obtain ⟨coin, program, found, solved⟩ := other
    obtain ⟨signs, data, -, result⟩ := signP2MRTxIn_p2mr found solved ran
    cases signs with
    | true =>
        cases result
        rfl
    | false =>
        have filled : (after, done) =
            context.fallback tx provider spent program i coin.out before := result
        have same : (after, done).1.unsigned = before.unsigned := by
          rw [filled]
          exact fallback_unsigned program coin.out before
        exact same

/-! ## A signed P2MR input verifies -/

/-- What `ProduceSignature` reports as signed was complete before or is verified. -/
theorem produceSignature_verified {signing : Signing} {script : Bytes}
    {sigdata data : SignatureData}
    (produced : signing.produceSignature fuel script sigdata = .ok (true, data)) :
    (sigdata.complete = true ∧ data = sigdata) ∨
      signing.verifyScript data.scriptSig script data.scriptWitness = true := by
  unfold Signing.produceSignature at produced
  by_cases complete : sigdata.complete = true
  · rw [if_pos complete] at produced
    cases produced
    exact Or.inl ⟨complete, rfl⟩
  · rw [if_neg complete] at produced
    right
    obtain ⟨outer, -, witnessed⟩ := except_bind_eq_ok.mp produced
    obtain ⟨stage, -, finished⟩ := except_bind_eq_ok.mp witnessed
    have result : signing.finishSignature script stage = (true, data) := Except.ok.inj finished
    have verified : (signing.finishSignature script stage).1 = true := congrArg Prod.fst result
    have left : (signing.finishSignature script stage).2 = data := congrArg Prod.snd result
    rw [← left]
    exact (Bool.and_eq_true_iff.mp verified).2

theorem fallback_verifies {program : Uint256} {txout : CTxOut} {txin : MutableTxIn}
    (filled : context.fallback tx provider spent program i txout txin = (after, true)) :
    context.verifies tx (some spent) i txout after = true := by
  unfold fallback at filled
  split at filled
  · split_ifs at filled with version accepted
    · cases filled
      exact accepted
    all_goals cases filled
  · cases filled

theorem verifies_of_done {coin : Coin} {program : Uint256}
    (found : coins.unspent before.prevout = some coin)
    (solved : solver coin.out.scriptPubKey = .witnessV2P2mr program)
    (ran : context.signP2MRTxIn tx fuel provider spent coins i before = .ok (after, true)) :
    context.verifies tx (some spent) i coin.out after = true := by
  obtain ⟨signs, data, produced, result⟩ := signP2MRTxIn_p2mr found solved ran
  cases signs with
  | false => exact fallback_verifies result.symm
  | true =>
      cases result
      rcases produceSignature_verified produced with ⟨complete, rfl⟩ | verified
      · -- The input came with its script and witness, accepted without the spent outputs.
        have script := solver_eq_witnessV2P2mr_iff.mp solved
        have accepted : context.verifyScript tx none i coin.out.nValue before.scriptSig
            coin.out.scriptPubKey before.scriptWitness = true := complete
        rw [script] at accepted
        have accepted' := context.verifyScript_of_missing tx spent i _ _ _ _ accepted
        rw [← script] at accepted'
        exact accepted'
      · exact verified

theorem signTransaction_unsigned {tx signed : CMutableTransaction} {all : Bool}
    (ran : context.signTransaction fuel provider coins tx = .ok (signed, all)) :
    signed.unsigned = tx.unsigned := by
  obtain ⟨⟨vin, done⟩, each, result⟩ := except_bind_eq_ok.mp ran
  cases result
  have same := signEach_unsigned each fun _ _ _ _ => signTxIn_unsigned
  exact congrArg (fun vin => CTransaction.mk tx.nVersion vin tx.vout tx.nLockTime) same

end SigningContext

namespace SigningWallet

open SigningContext

variable {wallet : SigningWallet} {context : SigningContext} {fuel : Nat}
  {onlyId : Option (List Char)} {tx : CMutableTransaction}

theorem signWith_unsigned {coins : Coins} {providers : List SigningProvider}
    {signed : CMutableTransaction} (ran : signWith context fuel coins providers tx = .ok signed) :
    signed.unsigned = tx.unsigned := by
  induction providers generalizing tx with
  | nil =>
      cases ran
      rfl
  | cons provider providers ih =>
      obtain ⟨⟨middle, all⟩, pass, later⟩ := except_bind_eq_ok.mp ran
      have same := signTransaction_unsigned pass
      cases all with
      | true =>
          cases later
          exact same
      | false => exact (ih later).trans same

/-- The transaction after the signing of the wallet, and what is left of it. -/
theorem signP2MRTransaction_ok {out : P2MRSpendSigned}
    (ran : wallet.signP2MRTransaction context fuel onlyId tx = .ok out) :
    ∃ signed, signWith context fuel (wallet.coins tx) (wallet.providers (wallet.coins tx)) tx =
        .ok signed ∧
      signEach (context.signP2MRTxIn tx.unsigned fuel (wallet.p2mrProvider onlyId)
        (spentOrNull (wallet.coins tx) signed.vin) (wallet.coins tx)) 0 signed.vin =
        .ok (out.tx.vin, out.complete) ∧ out.tx = { signed with vin := out.tx.vin } := by
  obtain ⟨signed, generic, later⟩ := except_bind_eq_ok.mp ran
  obtain ⟨⟨vin, complete⟩, each, result⟩ := except_bind_eq_ok.mp later
  cases result
  rw [signWith_unsigned generic] at each
  exact ⟨signed, generic, each, rfl⟩

/-- Signing keeps everything but scripts and witnesses. -/
theorem signP2MRTransaction_unsigned {out : P2MRSpendSigned}
    (ran : wallet.signP2MRTransaction context fuel onlyId tx = .ok out) :
    out.tx.unsigned = tx.unsigned := by
  obtain ⟨signed, generic, each, left⟩ := signP2MRTransaction_ok ran
  have same := signEach_unsigned each fun _ _ _ _ => signP2MRTxIn_unsigned
  rw [← signWith_unsigned generic, left]
  exact congrArg
    (fun vin => CTransaction.mk signed.nVersion vin signed.vout signed.nLockTime) same

/-- The null outputs depend on the outpoints only. -/
theorem spentOrNull_eq {coins : Coins} {vin vin' : List MutableTxIn}
    (same : vin.map MutableTxIn.unsigned = vin'.map MutableTxIn.unsigned) :
    spentOrNull coins vin = spentOrNull coins vin' := by
  have outputs := congrArg
    (List.map fun txin : CTxIn => ((coins.unspent txin.prevout).map Coin.out).getD CTxOut.null) same
  rw [List.map_map, List.map_map] at outputs
  exact outputs

/-! ## What the flag says -/

/-- Whether an input verifies, with the outputs its transaction spends. -/
def Verifies (context : SigningContext) (coins : Coins) (tx : CMutableTransaction) (i : Nat)
    (txin : MutableTxIn) (coin : Coin) : Prop :=
  context.verifies tx.unsigned (some (spentOrNull coins tx.vin)) i coin.out txin = true

/-- The flag says that every input is signed. -/
def CompleteIsSigned (context : SigningContext) (wallet : SigningWallet) (fuel : Nat)
    (onlyId : Option (List Char)) (tx : CMutableTransaction) : Prop :=
  ∀ out, wallet.signP2MRTransaction context fuel onlyId tx = .ok out → out.complete = true →
    ∀ i txin, out.tx.vin[i]? = some txin → ∃ coin,
      (wallet.coins tx).unspent txin.prevout = some coin ∧
        Verifies context (wallet.coins tx) out.tx i txin coin

/-- The input spends a P2MR coin that is there and not spent. -/
def SpendsP2mr (coins : Coins) (txin : MutableTxIn) (coin : Coin) : Prop :=
  coins.unspent txin.prevout = some coin ∧
    ∃ program, solver coin.out.scriptPubKey = .witnessV2P2mr program

/-- The flag says that the P2MR inputs are signed.  The others are left as the wallet
has signed them. -/
structure FinalizesP2mr (context : SigningContext) (wallet : SigningWallet) (fuel : Nat)
    (onlyId : Option (List Char)) (tx : CMutableTransaction) (out : P2MRSpendSigned) : Prop where
  verifies : out.complete = true → ∀ i txin coin, out.tx.vin[i]? = some txin →
    SpendsP2mr (wallet.coins tx) txin coin →
      Verifies context (wallet.coins tx) out.tx i txin coin
  others : ∃ signed,
    signWith context fuel (wallet.coins tx) (wallet.providers (wallet.coins tx)) tx = .ok signed ∧
      out.tx.vin.length = signed.vin.length ∧
      ∀ (i : Nat) (txin : MutableTxIn), out.tx.vin[i]? = some txin →
        (∀ coin, ¬ SpendsP2mr (wallet.coins tx) txin coin) → signed.vin[i]? = some txin

/-- Where the flag is set, every input that spends a P2MR coin verifies.  All other
inputs are left as the wallet has signed them. -/
theorem signP2MRTransaction_finalizes (context : SigningContext) (wallet : SigningWallet)
    (fuel : Nat) (onlyId : Option (List Char)) (tx : CMutableTransaction) (out : P2MRSpendSigned)
    (ran : wallet.signP2MRTransaction context fuel onlyId tx = .ok out) :
    FinalizesP2mr context wallet fuel onlyId tx out := by
  obtain ⟨signed, generic, each, -⟩ := signP2MRTransaction_ok ran
  have sameInputs := signEach_unsigned each fun _ _ _ _ => signP2MRTxIn_unsigned
  constructor
  · intro complete i after coin here spends
    obtain ⟨unspent, program, solved⟩ := spends
    obtain ⟨before, done, -, step, kept⟩ := signEach_getElem? each here
    have prevout := prevout_eq (signP2MRTxIn_unsigned step)
    rw [prevout] at unspent
    rw [kept complete] at step
    have verified := verifies_of_done unspent solved step
    rw [Nat.zero_add] at verified
    rw [Verifies, signP2MRTransaction_unsigned ran, spentOrNull_eq sameInputs]
    exact verified
  · refine ⟨signed, generic, ?_, ?_⟩
    · simpa using congrArg List.length sameInputs
    · intro i after here other
      obtain ⟨before, done, found, step, -⟩ := signEach_getElem? each here
      have prevout := prevout_eq (signP2MRTxIn_unsigned step)
      have passed := @signP2MRTxIn_other context tx.unsigned fuel (wallet.p2mrProvider onlyId)
        (wallet.coins tx) (spentOrNull (wallet.coins tx) signed.vin) (0 + i) before
        fun coin program unspent solved => other coin ⟨prevout ▸ unspent, program, solved⟩
      cases step.symm.trans passed
      exact found

/-! ## Runs -/

/-- A leaf that takes no arguments and that Miniscript does not know. -/
def nopLeaf : Bytes := [0x61, op1]

/-- The root of the tree with that leaf alone. -/
def nopLeafRoot : Uint256 := ⟨List.replicate 32 9, rfl⟩

/-- A context in which all leaves have the same hash. -/
def nopLeafContext : SigningContext :=
  .ofCrypto { TransactionCrypto.idle with hasherTapleaf := fun _ => nopLeafRoot }
    Signing.keylessSigning.wshMiniscript Signing.keylessSigning.tapMiniscript
    (fun _ _ _ _ => Signing.keylessSigning.creator)
    fun _ _ _ _ _ => { Signing.singleLeafData [] with p2mrSpenddata := ⟨.null, []⟩ }

/-- A wallet without keys that tracks the leaf, and finds a coin where the index is 0. -/
def coinWallet (script : Bytes) : SigningWallet where
  scriptPubKeyMans := []
  p2mrProvider := fun _ => { Signing.keylessSigning.provider with
    getP2MRSpendData := fun _ => some ⟨.null, [((nopLeaf, taprootLeafTapscript), [[0xc1]])]⟩ }
  hasP2mrTrees := true
  findCoins := fun prevout => if prevout.n = 0 then ⟨⟨1000000, script⟩⟩ else ⟨CTxOut.null⟩

/-- A transaction that spends two outputs. -/
def twoInputs : CMutableTransaction where
  nVersion := 2
  vin := [⟨⟨⟨.null, 0⟩, 0xffffffff, []⟩, []⟩, ⟨⟨⟨.null, 1⟩, 0xffffffff, []⟩, []⟩]
  vout := [⟨900000, [op1]⟩]
  nLockTime := 0

/-- The transaction with the witness of the leaf. -/
def nopLeafSigned : P2MRSpendSigned where
  tx := { twoInputs with
    vin := [⟨⟨⟨.null, 0⟩, 0xffffffff, [nopLeaf, [0xc1]]⟩, []⟩, ⟨⟨⟨.null, 1⟩, 0xffffffff, []⟩, []⟩] }
  complete := true

theorem nopLeaf_run :
    (coinWallet (p2mrScript nopLeafRoot)).signP2MRTransaction nopLeafContext 2 none twoInputs =
      .ok nopLeafSigned := by
  decide +kernel

/-- The input that spends the leaf is complete. -/
theorem signP2MRTransaction_finalizes_nopLeaf :
    FinalizesP2mr nopLeafContext (coinWallet (p2mrScript nopLeafRoot)) 2 none twoInputs
      nopLeafSigned :=
  signP2MRTransaction_finalizes nopLeafContext (coinWallet (p2mrScript nopLeafRoot)) 2 none
    twoInputs nopLeafSigned nopLeaf_run

/-- The script of a key hash without its key. -/
def strangeKeyHash : Bytes :=
  [opDup, opHash160, 20] ++ List.replicate 20 3 ++ [opEqualverify, opChecksig]

theorem strangeKeyHash_run :
    (coinWallet strangeKeyHash).signP2MRTransaction nopLeafContext 2 none twoInputs =
        .ok ⟨twoInputs, true⟩ ∧
      ∀ txin ∈ twoInputs.vin, nopLeafContext.verifies twoInputs.unsigned
        (some (spentOrNull ((coinWallet strangeKeyHash).coins twoInputs) twoInputs.vin)) 0
        ⟨1000000, strangeKeyHash⟩ txin = false := by
  decide +kernel

/-- With a key hash in place of the P2MR output, neither of the two inputs is signed, and
the flag is set. -/
theorem unsignedInput_complete :
    ¬ CompleteIsSigned nopLeafContext (coinWallet strangeKeyHash) 2 none twoInputs := by
  obtain ⟨run, refused⟩ := strangeKeyHash_run
  intro signed
  obtain ⟨coin, found, verified⟩ := signed ⟨twoInputs, true⟩ run rfl 0 _ rfl
  obtain rfl : ⟨⟨1000000, strangeKeyHash⟩⟩ = coin := Option.some.inj found
  exact Bool.false_ne_true ((refused _ List.mem_cons_self).symm.trans verified)

end SigningWallet

end QuantyCoin
