import QuantyCoin.Addresses
import QuantyCoin.DerivedCache
import QuantyCoin.HdDerivation
import QuantyCoin.Mnemonics
import QuantyCoin.TransactionSigning

/-!
# The wallet

`HDWallet` of `wallet/hd_wallet.py`: the derivation of keys and addresses, the five
dictionaries that cache them, and the searches for the key of an address.  A method
that raises keeps what it has cached.
-/

namespace QuantyCoin

open ByteDecoder DerivedCache StateTriples

/-! ## Keys -/

/-- `MLDSAKey`. -/
structure MLDSAKey where
  publicKey : Bytes
  secretKey : Bytes
  deriving DecidableEq

/-- The functions that the wallet calls. -/
structure WalletEnvironment where
  prim : Primitives
  signers : Signers
  hmacSha512 : (key message : Bytes) → Bytes
  pbkdf2Hmac : (password salt : Bytes) → (rounds length : Nat) → Bytes
  /-- `MLDSAKey.from_seed`. -/
  mldsaFromSeed : Bytes → Except PyException MLDSAKey

/-- `HDKey.from_seed`. -/
def HDKey.fromSeed (hmacSha512 : Bytes → Bytes → Bytes) (seed : Bytes) : HDKey :=
  let digest := hmacSha512 "Bitcoin seed".toUTF8.toList seed
  ⟨digest.take 32, digest.drop 32, 0, 0, [0, 0, 0, 0], true⟩

/-- `get_address`. -/
def HDKey.getAddress (prim : Primitives) (node : HDKey) : Except PyException (List Char) := do
  let pubkey ← node.getPublicKey
  encodeSegwitAddress mainnetBech32Hrp 0 (prim.hash160 pubkey)

/-- The part of a wallet that its mnemonic, passphrase and account determine. -/
structure WalletRoot where
  seed : Bytes
  accountIndex : Int
  accountNode : HDKey
  deriving DecidableEq

namespace WalletRoot

variable (env : WalletEnvironment)

/-- `HDKey.from_seed(seed).derive_path(f"m/44'/999'/{account_index}'")`. -/
def new (mnemonic passphrase : String) (accountIndex : Int) : Except PyException WalletRoot :=
  if !validateMnemonic env.prim.sha256 mnemonic then
    .error (.valueError "Invalid BIP39 mnemonic")
  else do
    let seed ← mnemonicToSeed env.prim.sha256 env.pbkdf2Hmac mnemonic passphrase
    let masterNode := HDKey.fromSeed env.hmacSha512 seed
    let accountNode ← [44, 999, accountIndex].foldlM (fun node index =>
      node.deriveChild env.hmacSha512 env.prim.hash160 (index + 0x80000000)) masterNode
    .ok ⟨seed, accountIndex, accountNode⟩

/-- The key of a chain of the account: receiving keys are on chain 0, change keys on
chain 1. -/
def chainKey (chain : Nat) (root : WalletRoot) (index : Nat) : Except PyException HDKey := do
  let node ← root.accountNode.deriveChild env.hmacSha512 env.prim.hash160 chain
  node.deriveChild env.hmacSha512 env.prim.hash160 index

def receivingKey : WalletRoot → Nat → Except PyException HDKey := chainKey env 0

def changeKey : WalletRoot → Nat → Except PyException HDKey := chainKey env 1

/-- The ML-DSA key with an index. -/
def pqKey (root : WalletRoot) (index : Nat) : Except PyException MLDSAKey :=
  let path := "m/44'/999'/" ++ toString root.accountIndex ++ "'/pq/" ++ toString index
  env.mldsaFromSeed (env.prim.sha256 (root.seed ++ path.toUTF8.toList))

/-- The ML-DSA address with an index. -/
def pqAddress (root : WalletRoot) (index : Nat) : Except PyException (List Char) := do
  let key ← root.pqKey env index
  encodeSegwitAddress mainnetBech32Hrp 1 (env.prim.sha256 key.publicKey)

/-- `sha256(secp_key.get_public_key() + pq_key.public_key)`. -/
def hybridProgram (secpKey : HDKey) (pqKey : MLDSAKey) : Except PyException Bytes :=
  secpKey.getPublicKey.map fun pubkey => env.prim.sha256 (pubkey ++ pqKey.publicKey)

/-- The hybrid address with an index. -/
def hybridAddress (root : WalletRoot) (index : Nat) : Except PyException (List Char) := do
  let secpKey ← root.receivingKey env index
  let pqKey ← root.pqKey env index
  encodeSegwitAddress mainnetBech32Hrp 2 (← hybridProgram env secpKey pqKey)

end WalletRoot

/-! ## Caches -/

structure HDWallet where
  root : WalletRoot
  receivingKeys : List (Nat × HDKey)
  changeKeys : List (Nat × HDKey)
  pqKeys : List (Nat × MLDSAKey)
  pqAddresses : List (Nat × List Char)
  hybridAddresses : List (Nat × List Char)
  deriving DecidableEq

/-- The methods of a wallet. -/
abbrev WalletM := EStateM PyException HDWallet

namespace HDWallet

variable (env : WalletEnvironment)

def getReceivingKey (index : Nat) : WalletM HDKey :=
  storedOr receivingKeys (fun wallet keys => { wallet with receivingKeys := keys }) index <|
    reading fun wallet => wallet.root.receivingKey env index

def getChangeKey (index : Nat) : WalletM HDKey :=
  storedOr changeKeys (fun wallet keys => { wallet with changeKeys := keys }) index <|
    reading fun wallet => wallet.root.changeKey env index

def getPqKey (index : Nat) : WalletM MLDSAKey :=
  storedOr pqKeys (fun wallet keys => { wallet with pqKeys := keys }) index <|
    reading fun wallet => wallet.root.pqKey env index

def getReceivingAddress (index : Nat) : WalletM (List Char) := do
  let key ← getReceivingKey env index
  reading fun _ => key.getAddress env.prim

def getChangeAddress (index : Nat) : WalletM (List Char) := do
  let key ← getChangeKey env index
  reading fun _ => key.getAddress env.prim

def getPqAddress (index : Nat) : WalletM (List Char) :=
  storedOr pqAddresses (fun wallet addresses => { wallet with pqAddresses := addresses }) index do
    let key ← getPqKey env index
    reading fun _ => encodeSegwitAddress mainnetBech32Hrp 1 (env.prim.sha256 key.publicKey)

def getHybridAddress (index : Nat) : WalletM (List Char) :=
  storedOr hybridAddresses (fun wallet addresses => { wallet with hybridAddresses := addresses })
    index do
      let secpKey ← getReceivingKey env index
      let pqKey ← getPqKey env index
      reading fun _ => do
        encodeSegwitAddress mainnetBech32Hrp 2 (← WalletRoot.hybridProgram env secpKey pqKey)

/-- The loop of `__init__` over the first addresses. -/
def deriveFirst : List Nat → WalletM Unit
  | [] => return ()
  | index :: indices => do
      let _ ← getReceivingAddress env index
      let _ ← getPqAddress env index
      let _ ← getHybridAddress env index
      deriveFirst indices

/-- `HDWallet(mnemonic, passphrase, account_index)`. -/
def new (mnemonic passphrase : String) (accountIndex : Int) : Except PyException HDWallet := do
  let root ← WalletRoot.new env mnemonic passphrase accountIndex
  match deriveFirst env (List.range 5) ⟨root, [], [], [], [], []⟩ with
  | .ok _ wallet => .ok wallet
  | .error error _ => .error error

/-! ## Searches -/

/-- A key, if it has the address. -/
def keyWithAddress (address : List Char) (key : HDKey) : WalletM (Option HDKey) :=
  reading fun _ => (key.getAddress env.prim).map fun found =>
    if found = address then some key else none

def findKeyForAddress (address : List Char) : WalletM (Option HDKey) := do
  let receiving ← reading fun wallet => .ok (wallet.receivingKeys.map Prod.snd)
  let change ← reading fun wallet => .ok (wallet.changeKeys.map Prod.snd)
  otherwise (searchFirst (keyWithAddress env address) receiving) <|
    otherwise (searchFirst (keyWithAddress env address) change) <|
      searchFirst (fun index => do keyWithAddress env address (← getReceivingKey env index))
        (List.range' receiving.length 50)

/-- `self.pq_keys[index]`. -/
def storedPqKey (index : Nat) : WalletM MLDSAKey :=
  reading fun wallet =>
    match wallet.pqKeys.lookup index with
    | some key => .ok key
    | none => .error (.keyError (toString index))

def findPqKeyForAddress (address : List Char) : WalletM (Option MLDSAKey) :=
  findAhead pqAddresses (getPqAddress env) storedPqKey 50 address

/-- Both keys of a hybrid address. -/
def hybridKeys (index : Nat) : WalletM (HDKey × MLDSAKey) := do
  let secpKey ← getReceivingKey env index
  let pqKey ← storedPqKey index
  return (secpKey, pqKey)

def findHybridKeysForAddress (address : List Char) : WalletM (Option (HDKey × MLDSAKey)) :=
  findAhead hybridAddresses (getHybridAddress env) (hybridKeys env) 50 address

end HDWallet

end QuantyCoin
