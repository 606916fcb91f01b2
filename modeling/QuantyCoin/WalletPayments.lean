import QuantyCoin.HdWallet
import Mathlib.Data.List.Sort

/-!
# Payments

`build_transaction` of `wallet/hd_wallet.py`: the selection of unspent outputs, the
outputs of the transaction, and the choice of the keys that sign its inputs.
-/

namespace QuantyCoin

open DerivedCache StateTriples

namespace HDWallet

variable (env : WalletEnvironment)

/-! ## Unspent outputs -/

/-- An entry of `available_utxos`, with its hexadecimal fields decoded.  The script and
the address may be missing. -/
structure Utxo where
  txid : Bytes
  vout : UInt32
  valueSat : Nat
  scriptPubKey : Option Bytes
  address : Option (List Char)
  deriving DecidableEq

namespace Utxo

/-- `TxIn(prev_txid, prev_vout)`. -/
def input (utxo : Utxo) : TxIn := ⟨utxo.txid.reverse, utxo.vout, [], 0xFFFFFFFF, []⟩

/-- The outpoint that the input refers to. -/
def outpoint (utxo : Utxo) : Outpoint := utxo.input.outpoint

/-- `bytes.fromhex(utxo["scriptPubKey"])`. -/
def prevScript (utxo : Utxo) : Except PyException Bytes :=
  match utxo.scriptPubKey with
  | some script => .ok script
  | none => .error (.keyError "'scriptPubKey'")

end Utxo

/-- The total value of some outputs. -/
def totalValue (utxos : List Utxo) : Int := (utxos.map fun utxo => (utxo.valueSat : Int)).sum

/-! ## Keys for an output -/

/-- An address, if it begins with the given text. -/
def addressWith (start : String) (address : Option (List Char)) : Option (List Char) :=
  address.filter fun address => start.toList.isPrefixOf address

/-- The cached key with the program of a script. -/
def matchPqProgram (script : Bytes) : WalletM (Option MLDSAKey) :=
  reading fun wallet =>
    .ok (if script.length = 34 ∧ script.take 2 = [0x51, 0x20] then
      (wallet.pqKeys.map Prod.snd).find? fun key =>
        env.prim.sha256 key.publicKey = script.drop 2
    else none)

/-- `pq_match`. -/
def matchPq (address : Option (List Char)) (prevScript : Bytes) : WalletM (Option MLDSAKey) :=
  otherwise (whenSome (addressWith "qty1p" address) (findPqKeyForAddress env))
    (matchPqProgram env prevScript)

/-- The keys with an index, if they have the program. -/
def hybridKeysWithProgram (program : Bytes) (index : Nat) :
    WalletM (Option (HDKey × MLDSAKey)) := do
  let secpKey ← getReceivingKey env index
  let pqKey ← getPqKey env index
  reading fun _ => (WalletRoot.hybridProgram env secpKey pqKey).map fun found =>
    if found = program then some (secpKey, pqKey) else none

/-- The keys with the program of a script, at the indices of the cached receiving keys. -/
def matchHybridProgram (script : Bytes) : WalletM (Option (HDKey × MLDSAKey)) :=
  if script.length = 34 ∧ script.take 2 = [0x52, 0x20] then do
    let known ← reading fun wallet => .ok wallet.receivingKeys.length
    searchFirst (hybridKeysWithProgram env (script.drop 2)) (List.range known)
  else return none

/-- `hybrid_match`. -/
def matchHybrid (address : Option (List Char)) (prevScript : Bytes) :
    WalletM (Option (HDKey × MLDSAKey)) :=
  otherwise (whenSome (addressWith "qty1z" address) (findHybridKeysForAddress env))
    (matchHybridProgram env prevScript)

/-- A key, if its hash is in the script. -/
def keyWithScript (script : Bytes) (key : HDKey) : WalletM (Option HDKey) :=
  reading fun _ => key.getPublicKey.map fun pubkey =>
    if script = [0x00, 0x14] ++ env.prim.hash160 pubkey then some key else none

/-- The cached key with the hash in a script. -/
def matchKeyHash (script : Bytes) : WalletM (Option HDKey) := do
  let keys ← reading fun wallet =>
    .ok (wallet.receivingKeys.map Prod.snd ++ wallet.changeKeys.map Prod.snd)
  searchFirst (keyWithScript env script) keys

/-- The key of a classical output, and else the first receiving key. -/
def matchKey (address : Option (List Char)) (prevScript : Bytes) : WalletM HDKey := do
  let found ← otherwise (whenSome (address.filter (· ≠ [])) (findKeyForAddress env))
    (matchKeyHash env prevScript)
  match found with
  | some key => return key
  | none => getReceivingKey env 0

/-- The keys that an input is signed with. -/
def chooseKeys (address : Option (List Char)) (prevScript : Bytes) : WalletM SigningKeys := do
  match ← matchPq env address prevScript with
  | some key => return .mlDsa key.secretKey key.publicKey
  | none =>
      match ← matchHybrid env address prevScript with
      | some keys => return .hybrid keys.1.key keys.2.secretKey keys.2.publicKey
      | none =>
          let key ← matchKey env address prevScript
          return .ecdsa key.key

/-! ## Transactions -/

/-- The loop over the inputs, from the given index on. -/
def signInputs : List Utxo → Nat → Transaction → WalletM Transaction
  | [], _, tx => return tx
  | utxo :: utxos, inputIndex, tx => do
      let prevScript ← reading fun _ => utxo.prevScript
      let keys ← chooseKeys env utxo.address prevScript
      let signed ← reading fun _ =>
        InputSigning.sign env.signers env.prim ⟨keys, prevScript, utxo.valueSat⟩ tx inputIndex
      signInputs utxos (inputIndex + 1) signed

/-- The greedy selection: outputs up to the one that reaches the total. -/
def accumulate (requiredTotal : Int) : List Utxo → Int → List Utxo
  | [], _ => []
  | utxo :: utxos, accumulated =>
      if accumulated + utxo.valueSat ≥ requiredTotal then [utxo]
      else utxo :: accumulate requiredTotal utxos (accumulated + utxo.valueSat)

/-- `change_address`, or else the first change address of the wallet. -/
def changeAddressOr : Option (List Char) → WalletM (List Char)
  | some (first :: rest) => pure (first :: rest)
  | _ => getChangeAddress env 0

/-- The output for the change, if there is enough of it. -/
def changeOutput (changeSat : Int) (changeAddress : Option (List Char)) : WalletM (List TxOut) :=
  if changeSat > 1000 then do
    let address ← changeAddressOr env changeAddress
    let out ← reading fun _ =>
      TxOut.new changeSat.toNat (addressToScriptpubkey env.prim address)
    return [out]
  else return []

/-- `{sat/100_000_000:.8f}`, for amounts that a float holds exactly. -/
def formatQty (sat : Nat) : String :=
  toString (sat / 100000000) ++ "." ++
    String.ofList (List.leftpad 8 '0' (Nat.toDigits 10 (sat % 100000000)))

/-- The arguments of `build_transaction`. -/
structure Payment where
  destinationAddress : List Char
  amountSat : Int
  availableUtxos : List Utxo
  feeSat : Int
  changeAddress : Option (List Char)

namespace Payment

variable (payment : Payment)

/-- `required_total`. -/
def requiredTotal : Int := payment.amountSat + payment.feeSat

/-- `sorted_utxos`: the largest outputs first. -/
def sortedUtxos : List Utxo :=
  payment.availableUtxos.insertionSort fun first second => first.valueSat ≥ second.valueSat

def selectedUtxos : List Utxo := accumulate payment.requiredTotal payment.sortedUtxos 0

/-- `accumulated_sat`. -/
def accumulatedSat : Int := totalValue payment.selectedUtxos

/-- `change_sat`. -/
def changeSat : Int := payment.accumulatedSat - payment.requiredTotal

def insufficientFunds : PyException :=
  .valueError ("Insufficient funds: Have " ++ formatQty payment.accumulatedSat.toNat ++
    " QTY, need " ++ formatQty payment.requiredTotal.toNat ++ " QTY (including fee)")

end Payment

def buildTransaction (payment : Payment) : WalletM Transaction :=
  if payment.amountSat ≤ 0 then
    throw (.valueError "Amount must be greater than zero")
  else if payment.accumulatedSat < payment.requiredTotal then
    throw payment.insufficientFunds
  else do
    let out ← reading fun _ =>
      TxOut.new payment.amountSat.toNat (addressToScriptpubkey env.prim payment.destinationAddress)
    let change ← changeOutput env payment.changeSat payment.changeAddress
    signInputs env payment.selectedUtxos 0
      ⟨1, payment.selectedUtxos.map Utxo.input, out :: change, 0⟩

end HDWallet

end QuantyCoin
