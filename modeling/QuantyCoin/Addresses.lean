import QuantyCoin.Base58
import QuantyCoin.Bech32
import QuantyCoin.UtxoSet

/-!
# Addresses and scripts

`address_to_scriptpubkey` from `crypto/bip32_44.py` reads an address,
`TxOut.get_address` writes one, and `UTXOSet.get_address_utxos` finds the
outputs of an address by writing the address of every output.
-/

namespace QuantyCoin

open ByteDecoder

def mainnetPubkeyHashPrefix : UInt8 := 0x3A
def mainnetScriptHashPrefix : UInt8 := 0x3F
def mainnetBech32Hrp : List Char := "qty".toList
def bech32AltHrp : List Char := "quan".toList

/-! ## Scripts -/

/-- The script of a witness program: version, length, program. -/
def witnessScript (version : Nat) (program : Bytes) : Bytes :=
  [if version > 0 then UInt8.ofNat (0x50 + version) else 0, UInt8.ofNat program.length] ++ program

/-- `b'\x76\xa9\x14' + payload + b'\x88\xac'`. -/
def p2pkhScript (payload : Bytes) : Bytes := [0x76, 0xa9, 0x14] ++ payload ++ [0x88, 0xac]

/-- `b'\xa9\x14' + payload + b'\x87'`. -/
def p2shScript (payload : Bytes) : Bytes := [0xa9, 0x14] ++ payload ++ [0x87]

/-- `b'\x00\x14' + (b'\x00' * 20)`. -/
def dummyScript : Bytes := [0x00, 0x14] ++ List.replicate 20 0

/-! ## Reading an address -/

/-- `address.split("1")[0]` behind the check for one of the two prefixes. -/
def addressHrp (address : List Char) : Option (List Char) :=
  if "qty1".toList.isPrefixOf address || "quan1".toList.isPrefixOf address then
    some (address.takeWhile (· != '1'))
  else none

/-- The witness program of an address under its own prefix. -/
def addressWitness (address : List Char) : Option (Nat × Bytes) :=
  (addressHrp address).bind fun hrp => decodeSegwitAddress hrp address

def addressToScriptpubkey (prim : Primitives) (address : List Char) : Bytes :=
  match addressWitness address with
  | some (ver, prog) =>
      if ver = 0 then [0x00, 0x14] ++ prog else witnessScript ver prog
  | none =>
      match base58checkDecode prim address with
      | .ok (ver, payload) =>
          if ver = mainnetPubkeyHashPrefix then p2pkhScript payload
          else if ver = mainnetScriptHashPrefix then p2shScript payload
          else dummyScript
      -- `except Exception: pass`
      | .error _ => dummyScript

/-! ## Writing an address -/

def TxOut.getAddress (prim : Primitives) (out : TxOut) : Except PyException (List Char) :=
  let script := out.scriptPubkey
  if script.length = 22 ∧ script.take 2 = [0x00, 0x14] then
    encodeSegwitAddress mainnetBech32Hrp 0 (script.drop 2)
  else if script.length = 34 ∧ script.take 2 = [0x51, 0x20] then
    encodeSegwitAddress mainnetBech32Hrp 1 (script.drop 2)
  else if script.length = 34 ∧ script.take 2 = [0x52, 0x20] then
    encodeSegwitAddress mainnetBech32Hrp 2 (script.drop 2)
  else if script.length = 25 ∧ script.take 3 = [0x76, 0xa9, 0x14] ∧
      script.drop 23 = [0x88, 0xac] then
    .ok (base58checkEncode prim ((script.drop 3).take 20) mainnetPubkeyHashPrefix)
  else .ok ("script:".toList ++ (hex script).toList)

/-- What `get_address_utxos` reports of an output. -/
structure AddressUtxo where
  txid : String
  vout : Nat
  valueSat : Nat
  scriptPubKey : String
  height : Nat
  coinbase : Bool
  deriving DecidableEq

def AddressUtxo.of (outpoint : Outpoint) (entry : UTXOEntry) : AddressUtxo where
  txid := reversedHex outpoint.1
  vout := outpoint.2
  valueSat := entry.value
  scriptPubKey := hex entry.scriptPubkey
  height := entry.height
  coinbase := entry.isCoinbase

/-- The loop of `get_address_utxos` over the items of the dictionary. -/
def getAddressUtxos (prim : Primitives) (address : List Char) :
    List (Σ _ : Outpoint, UTXOEntry) → Except PyException (List AddressUtxo)
  | [] => .ok []
  | item :: items => do
      let out ← TxOut.new item.2.value item.2.scriptPubkey
      let found ← out.getAddress prim
      let results ← getAddressUtxos prim address items
      return if found = address then AddressUtxo.of item.1 item.2 :: results else results

/-! ## What an address asks for -/

/-- The scripts that an address encodes. -/
inductive AddressCarries (prim : Primitives) (address : List Char) : Bytes → Prop
  | keyHash {hrp : List Char} {program : Bytes}
      (known : hrp = mainnetBech32Hrp ∨ hrp = bech32AltHrp)
      (accepted : decodeSegwitAddress hrp address = some (0, program))
      (length : program.length = 20) :
      AddressCarries prim address ([0x00, 0x14] ++ program)
  | witness {hrp : List Char} {version : Nat} {program : Bytes}
      (known : hrp = mainnetBech32Hrp ∨ hrp = bech32AltHrp)
      (accepted : decodeSegwitAddress hrp address = some (version, program))
      (positive : 1 ≤ version) :
      AddressCarries prim address
        ([UInt8.ofNat (0x50 + version), UInt8.ofNat program.length] ++ program)
  | pubkeyHash {payload : Bytes}
      (accepted : base58checkDecode prim address = .ok (mainnetPubkeyHashPrefix, payload))
      (length : payload.length = 20) : AddressCarries prim address (p2pkhScript payload)
  | scriptHash {payload : Bytes}
      (accepted : base58checkDecode prim address = .ok (mainnetScriptHashPrefix, payload))
      (length : payload.length = 20) : AddressCarries prim address (p2shScript payload)

/-- A Base58Check text with one of the two known version bytes. -/
def KnownBase58 (prim : Primitives) (address : List Char) (payload : Bytes) : Prop :=
  base58checkDecode prim address = .ok (mainnetPubkeyHashPrefix, payload) ∨
    base58checkDecode prim address = .ok (mainnetScriptHashPrefix, payload)

/-- The addresses that are read correctly: a witness program in lower case whose
length fits its version, a Base58 hash of twenty bytes, and any other spelling
of the one witness program that the default script spends to. -/
def ReadCorrectly (prim : Primitives) (address : List Char) : Prop :=
  match addressWitness address with
  | some (version, program) => version = 0 → program.length = 20
  | none =>
      (∃ payload, KnownBase58 prim address payload ∧ payload.length = 20) ∨
      (¬∃ payload, KnownBase58 prim address payload) ∧
        (decodeSegwitAddress mainnetBech32Hrp address = some (0, List.replicate 20 0) ∨
          decodeSegwitAddress bech32AltHrp address = some (0, List.replicate 20 0))

theorem addressHrp_known {address hrp : List Char} (found : addressHrp address = some hrp) :
    hrp = mainnetBech32Hrp ∨ hrp = bech32AltHrp := by
  rw [addressHrp] at found
  split_ifs at found with known
  cases found
  rcases Bool.or_eq_true_iff.mp known with starts | starts
  · obtain ⟨rest, rfl⟩ := List.isPrefixOf_iff_prefix.mp starts
    exact Or.inl rfl
  · obtain ⟨rest, rfl⟩ := List.isPrefixOf_iff_prefix.mp starts
    exact Or.inr rfl

theorem exists_of_addressWitness {address : List Char} {result : Nat × Bytes}
    (found : addressWitness address = some result) :
    ∃ hrp, (hrp = mainnetBech32Hrp ∨ hrp = bech32AltHrp) ∧
      decodeSegwitAddress hrp address = some result := by
  obtain ⟨hrp, known, accepted⟩ := Option.bind_eq_some_iff.mp found
  exact ⟨hrp, addressHrp_known known, accepted⟩

/-- The first byte of a witness script. -/
theorem witnessByte_toNat {hrp address : List Char} {version : Nat} {program : Bytes}
    (accepted : decodeSegwitAddress hrp address = some (version, program)) :
    (UInt8.ofNat (0x50 + version)).toNat = 0x50 + version := by
  have small := version_lt_of_decodeSegwitAddress accepted
  rw [UInt8.toNat_ofNat']
  omega

/-- No witness script starts with a byte above those of the versions. -/
theorem ne_witnessByte {hrp address : List Char} {version : Nat} {program : Bytes} {first : UInt8}
    (large : 0x70 ≤ first.toNat)
    (accepted : decodeSegwitAddress hrp address = some (version, program)) :
    first ≠ UInt8.ofNat (0x50 + version) := by
  rintro rfl
  have small := version_lt_of_decodeSegwitAddress accepted
  rw [witnessByte_toNat accepted] at large
  omega

theorem AddressCarries.keyHash_inv {prim : Primitives} {address : List Char} {program : Bytes}
    (carries : AddressCarries prim address ([0x00, 0x14] ++ program)) :
    program.length = 20 ∧ ∃ hrp, (hrp = mainnetBech32Hrp ∨ hrp = bech32AltHrp) ∧
      decodeSegwitAddress hrp address = some (0, program) := by
  generalize same : [0x00, 0x14] ++ program = script at carries
  cases carries with
  | keyHash known accepted length =>
      cases List.append_cancel_left same
      exact ⟨length, _, known, accepted⟩
  | witness known accepted positive =>
      have byte := congrArg UInt8.toNat (List.cons.inj same).1
      rw [witnessByte_toNat accepted] at byte
      change 0 = _ at byte
      omega
  | pubkeyHash accepted length => exact absurd (List.cons.inj same).1 (by decide)
  | scriptHash accepted length => exact absurd (List.cons.inj same).1 (by decide)

theorem AddressCarries.p2pkh_inv {prim : Primitives} {address : List Char} {payload : Bytes}
    (carries : AddressCarries prim address (p2pkhScript payload)) :
    payload.length = 20 := by
  generalize same : p2pkhScript payload = script at carries
  cases carries with
  | keyHash known accepted length => exact absurd (List.cons.inj same).1 (by decide)
  | witness known accepted positive =>
      exact absurd (List.cons.inj same).1 (ne_witnessByte (by decide) accepted)
  | pubkeyHash accepted length =>
      have lengths := congrArg List.length same
      simp only [p2pkhScript, List.length_append] at lengths
      omega
  | scriptHash accepted length => exact absurd (List.cons.inj same).1 (by decide)

theorem AddressCarries.p2sh_inv {prim : Primitives} {address : List Char} {payload : Bytes}
    (carries : AddressCarries prim address (p2shScript payload)) :
    payload.length = 20 := by
  generalize same : p2shScript payload = script at carries
  cases carries with
  | keyHash known accepted length => exact absurd (List.cons.inj same).1 (by decide)
  | witness known accepted positive =>
      exact absurd (List.cons.inj same).1 (ne_witnessByte (by decide) accepted)
  | pubkeyHash accepted length => exact absurd (List.cons.inj same).1 (by decide)
  | scriptHash accepted length =>
      have lengths := congrArg List.length same
      simp only [p2shScript, List.length_append] at lengths
      omega

theorem addressCarries_dummyScript_iff {prim : Primitives} {address : List Char} :
    AddressCarries prim address dummyScript ↔
      decodeSegwitAddress mainnetBech32Hrp address = some (0, List.replicate 20 0) ∨
        decodeSegwitAddress bech32AltHrp address = some (0, List.replicate 20 0) := by
  constructor
  · intro carries
    obtain ⟨-, hrp, rfl | rfl, accepted⟩ := AddressCarries.keyHash_inv carries
    · exact Or.inl accepted
    · exact Or.inr accepted
  · rintro (accepted | accepted)
    · exact .keyHash (Or.inl rfl) accepted (by simp)
    · exact .keyHash (Or.inr rfl) accepted (by simp)

/-- A text that is not a witness address under its own prefix is read as
Base58. -/
theorem addressCarries_base58_iff {prim : Primitives} {address : List Char}
    (rejected : addressWitness address = none) :
    AddressCarries prim address (addressToScriptpubkey prim address) ↔
      (∃ payload, KnownBase58 prim address payload ∧ payload.length = 20) ∨
      (¬∃ payload, KnownBase58 prim address payload) ∧
        (decodeSegwitAddress mainnetBech32Hrp address = some (0, List.replicate 20 0) ∨
          decodeSegwitAddress bech32AltHrp address = some (0, List.replicate 20 0)) := by
  rw [addressToScriptpubkey, rejected]
  dsimp only
  unfold KnownBase58
  cases decoded : base58checkDecode prim address with
  | error exception => simp [addressCarries_dummyScript_iff]
  | ok result =>
      obtain ⟨version, payload⟩ := result
      dsimp only
      split_ifs with isPubkeyHash isScriptHash
      · subst isPubkeyHash
        constructor
        · intro carries
          exact Or.inl ⟨payload, Or.inl rfl, carries.p2pkh_inv⟩
        · rintro (⟨payload', known | known, length⟩ | ⟨unknown, -⟩)
          · cases known
            exact .pubkeyHash decoded length
          · exact absurd (Prod.mk.inj (Except.ok.inj known)).1 (by decide)
          · exact absurd ⟨payload, Or.inl rfl⟩ unknown
      · subst isScriptHash
        constructor
        · intro carries
          exact Or.inl ⟨payload, Or.inr rfl, carries.p2sh_inv⟩
        · rintro (⟨payload', known | known, length⟩ | ⟨unknown, -⟩)
          · exact absurd (Prod.mk.inj (Except.ok.inj known)).1 (by decide)
          · cases known
            exact .scriptHash decoded length
          · exact absurd ⟨payload, Or.inr rfl⟩ unknown
      · have unknown : ∀ other, ¬((Except.ok (version, payload) : Except PyException _) =
              .ok (mainnetPubkeyHashPrefix, other) ∨
            (Except.ok (version, payload) : Except PyException _) =
              .ok (mainnetScriptHashPrefix, other)) := by
          rintro other (known | known)
          · exact isPubkeyHash (Prod.mk.inj (Except.ok.inj known)).1
          · exact isScriptHash (Prod.mk.inj (Except.ok.inj known)).1
        rw [addressCarries_dummyScript_iff]
        constructor
        · intro accepted
          exact Or.inr ⟨fun ⟨other, known⟩ => unknown other known, accepted⟩
        · rintro (⟨other, known, -⟩ | ⟨-, accepted⟩)
          · exact absurd known (unknown other)
          · exact accepted

/-- The script returned for a text is one the text encodes exactly when the text
is read correctly: every other text, garbage included, gets a script nobody
asked for. -/
theorem addressToScriptpubkey_carries_iff (prim : Primitives) (address : List Char) :
    AddressCarries prim address (addressToScriptpubkey prim address) ↔
      ReadCorrectly prim address := by
  cases found : addressWitness address with
  | none =>
      rw [addressCarries_base58_iff found, ReadCorrectly, found]
  | some result =>
      obtain ⟨version, program⟩ := result
      obtain ⟨hrp, known, accepted⟩ := exists_of_addressWitness found
      rw [ReadCorrectly, addressToScriptpubkey, found]
      dsimp only
      split_ifs with zero
      · subst zero
        constructor
        · intro carries _
          exact carries.keyHash_inv.1
        · intro length
          exact .keyHash known accepted (length rfl)
      · constructor
        · intro _ isZero
          exact absurd isZero zero
        · intro _
          rw [witnessScript, if_pos (Nat.pos_of_ne_zero zero)]
          exact .witness known accepted (Nat.pos_of_ne_zero zero)

/-- An address with a wrong last character. -/
def mistypedAddress : List Char := "qty1qu9ztelcfra7uz8agw9qnfej6h8x9tqtxhuaqpa".toList

/-- Both decoders reject the mistyped address, and it is paid to the all-zero
key hash. -/
theorem mistypedAddress_paid :
    decodeSegwitAddress mainnetBech32Hrp mistypedAddress = none ∧
      decodeSegwitAddress bech32AltHrp mistypedAddress = none ∧
      base58checkDecode (Primitives.ofDigests []) mistypedAddress =
        .error (.valueError "Invalid Base58 character: l") ∧
      addressToScriptpubkey (Primitives.ofDigests []) mistypedAddress = dummyScript ∧
      ¬AddressCarries (Primitives.ofDigests []) mistypedAddress
        (addressToScriptpubkey (Primitives.ofDigests []) mistypedAddress) := by
  have rejected : decodeSegwitAddress mainnetBech32Hrp mistypedAddress = none := by
    decide +kernel
  have rejected' : decodeSegwitAddress bech32AltHrp mistypedAddress = none := by
    decide +kernel
  have raised : base58checkDecode (Primitives.ofDigests []) mistypedAddress =
      .error (.valueError "Invalid Base58 character: l") := by
    decide +kernel
  have paid : addressToScriptpubkey (Primitives.ofDigests []) mistypedAddress = dummyScript := by
    decide +kernel
  refine ⟨rejected, rejected', raised, paid, ?_⟩
  rw [paid, addressCarries_dummyScript_iff, rejected, rejected']
  simp

/-! ## Round trip -/

/-- The scripts with an address of their own. -/
inductive StandardScript : Bytes → Prop
  | p2wpkh {program : Bytes} (length : program.length = 20) :
      StandardScript ([0x00, 0x14] ++ program)
  | p2pqpkh {program : Bytes} (length : program.length = 32) :
      StandardScript ([0x51, 0x20] ++ program)
  | p2hybrid {program : Bytes} (length : program.length = 32) :
      StandardScript ([0x52, 0x20] ++ program)
  | p2pkh {payload : Bytes} (length : payload.length = 20) :
      StandardScript (p2pkhScript payload)

theorem isPlain_of_mem_mainnetBech32Hrp {character : Char}
    (member : character ∈ mainnetBech32Hrp) : IsPlain character := by
  have checked : mainnetBech32Hrp.all (fun character => IsPlain character) = true := by
    decide +kernel
  exact of_decide_eq_true (List.all_eq_true.mp checked character member)

/-- A witness address begins with its prefix and is read back under it. -/
theorem exists_witnessAddress {version : Nat} {program : Bytes} (small : version < 32)
    (length : program.length = 20 ∨ program.length = 32) :
    ∃ characters, encodeSegwitAddress mainnetBech32Hrp version program =
        .ok ("qty1".toList ++ characters) ∧
      addressWitness ("qty1".toList ++ characters) = some (version, program) := by
  obtain ⟨characters, encoded, decoded⟩ := @exists_encodeSegwitAddress mainnetBech32Hrp version
    program (by decide) (fun _ => isPlain_of_mem_mainnetBech32Hrp) small (by omega) (by omega)
    (by change 3 + 8 + (8 * program.length + 4) / 5 ≤ 90; omega)
  exact ⟨characters, encoded, decoded⟩

theorem exists_p2pkhAddress (prim : Primitives) {payload : Bytes} (length : payload.length = 20) :
    ∃ characters, base58checkEncode prim payload mainnetPubkeyHashPrefix = 'Q' :: characters ∧
      addressWitness ('Q' :: characters) = none := by
  have rest : (payload ++ (prim.hash256 (mainnetPubkeyHashPrefix :: payload)).take 4).length =
      24 := by
    rw [List.length_append, List.length_take, prim.hash256_length, length]
    rfl
  obtain ⟨characters, encoded⟩ := exists_b58encode_eq_cons_Q rest
  exact ⟨characters, encoded, rfl⟩

theorem witnessScript_of_parts {version count : Nat} {script : Bytes}
    (length : script.length = count + 2)
    (first : script.take 2 =
      [if version > 0 then UInt8.ofNat (0x50 + version) else 0, UInt8.ofNat count]) :
    witnessScript version (script.drop 2) = script := by
  rw [witnessScript, List.length_drop, length, Nat.add_sub_cancel, ← first,
    List.take_append_drop]

theorem p2pkhScript_of_parts {script : Bytes} (first : script.take 3 = [0x76, 0xa9, 0x14])
    (last : script.drop 23 = [0x88, 0xac]) :
    p2pkhScript ((script.drop 3).take 20) = script := by
  have middle : (script.drop 3).drop 20 = [0x88, 0xac] := by rw [List.drop_drop, last]
  rw [p2pkhScript, ← first, ← middle, List.append_assoc, List.take_append_drop,
    List.take_append_drop]

/-- An address names its script: either it is read back as that script, or it
spells the script out. -/
def NamesScript (prim : Primitives) (address : List Char) (script : Bytes) : Prop :=
  addressToScriptpubkey prim address = script ∧ address.head? ≠ some 's' ∨
    ¬StandardScript script ∧ address = "script:".toList ++ (hex script).toList

theorem exists_namesScript_witness (prim : Primitives) {version : Nat} {program script : Bytes}
    (small : version < 32) (length : program.length = 20 ∨ program.length = 32)
    (fits : version = 0 → program.length = 20) (same : witnessScript version program = script) :
    ∃ address, encodeSegwitAddress mainnetBech32Hrp version program = .ok address ∧
      NamesScript prim address script := by
  obtain ⟨characters, encoded, decoded⟩ := exists_witnessAddress small length
  refine ⟨_, encoded, Or.inl ⟨?_, by simp⟩⟩
  rw [addressToScriptpubkey, decoded, ← same]
  dsimp only
  split_ifs with zero
  · subst zero
    rw [witnessScript, fits rfl]
    rfl
  · rfl

theorem TxOut.exists_getAddress (prim : Primitives) (out : TxOut) :
    ∃ address, out.getAddress prim = .ok address ∧
      NamesScript prim address out.scriptPubkey := by
  unfold TxOut.getAddress
  dsimp only
  split_ifs with p2wpkh p2pqpkh p2hybrid p2pkh
  · have length : (out.scriptPubkey.drop 2).length = 20 := by simp [p2wpkh.1]
    exact exists_namesScript_witness prim (by decide) (Or.inl length) (fun _ => length)
      (witnessScript_of_parts p2wpkh.1 p2wpkh.2)
  · have length : (out.scriptPubkey.drop 2).length = 32 := by simp [p2pqpkh.1]
    exact exists_namesScript_witness prim (by decide) (Or.inr length) (by simp)
      (witnessScript_of_parts p2pqpkh.1 p2pqpkh.2)
  · have length : (out.scriptPubkey.drop 2).length = 32 := by simp [p2hybrid.1]
    exact exists_namesScript_witness prim (by decide) (Or.inr length) (by simp)
      (witnessScript_of_parts p2hybrid.1 p2hybrid.2)
  · obtain ⟨length, first, last⟩ := p2pkh
    have payloadLength : ((out.scriptPubkey.drop 3).take 20).length = 20 := by
      rw [List.length_take, List.length_drop, length]
      rfl
    obtain ⟨characters, encoded, rejected⟩ := exists_p2pkhAddress prim payloadLength
    refine ⟨_, rfl, Or.inl ⟨?_, by rw [encoded]; simp⟩⟩
    rw [addressToScriptpubkey, encoded, rejected, ← encoded, base58checkDecode_encode]
    exact p2pkhScript_of_parts first last
  · refine ⟨_, rfl, Or.inr ⟨?_, rfl⟩⟩
    intro standard
    generalize out.scriptPubkey = script at p2wpkh p2pqpkh p2hybrid p2pkh standard
    cases standard with
    | p2wpkh length => exact p2wpkh (by simp [length])
    | p2pqpkh length => exact p2pqpkh (by simp [length])
    | p2hybrid length => exact p2hybrid (by simp [length])
    | @p2pkh payload length =>
        have front : 23 = ([0x76, 0xa9, 0x14] ++ payload).length := by
          rw [List.length_append, length]
          rfl
        exact p2pkh ⟨by simp [p2pkhScript, length], rfl,
          by rw [p2pkhScript, front, List.drop_left]⟩

/-! ## One address, one script -/

theorem hexDigit_injective {first second : Nat} (firstSmall : first < 16)
    (secondSmall : second < 16) (equal : hexDigit first = hexDigit second) : first = second := by
  have checked : ∀ first < 16, ∀ second < 16, hexDigit first = hexDigit second →
      first = second := by
    decide
  exact checked first firstSmall second secondSmall equal

theorem hex_injective {data data' : Bytes} (equal : hex data = hex data') : data = data' := by
  rw [hex, hex, String.ofList_inj] at equal
  induction data generalizing data' with
  | nil =>
      cases data' with
      | nil => rfl
      | cons byte data' => simp at equal
  | cons byte data ih =>
      cases data' with
      | nil => simp at equal
      | cons byte' data' =>
          simp only [List.flatMap_cons, List.cons_append, List.nil_append, List.cons.injEq]
            at equal
          obtain ⟨high, low, others⟩ := equal
          have bound := byte.toNat_lt
          have bound' := byte'.toNat_lt
          have sameHigh := hexDigit_injective (by omega) (by omega) high
          have sameLow := hexDigit_injective (by omega) (by omega) low
          have sameByte : byte = byte' := UInt8.toNat_inj.mp (by omega)
          rw [sameByte, ih others]

theorem NamesScript.unique {prim : Primitives} {address : List Char} {script script' : Bytes}
    (names : NamesScript prim address script) (names' : NamesScript prim address script') :
    script = script' := by
  rcases names with ⟨read, notSpelled⟩ | ⟨-, spelled⟩
  · rcases names' with ⟨read', -⟩ | ⟨-, spelled'⟩
    · rw [← read, read']
    · exact absurd (by rw [spelled']; rfl) notSpelled
  · rcases names' with ⟨-, notSpelled'⟩ | ⟨-, spelled'⟩
    · exact absurd (by rw [spelled]; rfl) notSpelled'
    · have same := List.append_cancel_left (spelled.symm.trans spelled')
      exact hex_injective (String.toList_inj.mp same)

theorem TxOut.getAddress_injective {prim : Primitives} {out out' : TxOut} {address : List Char}
    (found : out.getAddress prim = .ok address) (found' : out'.getAddress prim = .ok address) :
    out.scriptPubkey = out'.scriptPubkey := by
  obtain ⟨written, isWritten, names⟩ := out.exists_getAddress prim
  obtain ⟨written', isWritten', names'⟩ := out'.exists_getAddress prim
  cases isWritten.symm.trans found
  cases isWritten'.symm.trans found'
  exact names.unique names'

theorem TxOut.getAddress_congr (prim : Primitives) {out out' : TxOut}
    (same : out.scriptPubkey = out'.scriptPubkey) :
    out.getAddress prim = out'.getAddress prim := by
  unfold TxOut.getAddress
  rw [same]

theorem TxOut.new_scriptPubkey {value : Nat} {scriptPubkey : Bytes} {out : TxOut}
    (made : TxOut.new value scriptPubkey = .ok out) : out.scriptPubkey = scriptPubkey := by
  unfold TxOut.new at made
  split_ifs at made
  cases made
  rfl

/-- The outputs found for the address of a script are those locked by it. -/
theorem getAddressUtxos_eq {prim : Primitives} {out : TxOut} {address : List Char}
    (written : out.getAddress prim = .ok address) {items : List (Σ _ : Outpoint, UTXOEntry)}
    {results : List AddressUtxo} (found : getAddressUtxos prim address items = .ok results) :
    results = (items.filter fun item => item.2.scriptPubkey = out.scriptPubkey).map
      fun item => AddressUtxo.of item.1 item.2 := by
  induction items generalizing results with
  | nil =>
      cases found
      rfl
  | cons item items ih =>
      rw [getAddressUtxos] at found
      cases made : TxOut.new item.2.value item.2.scriptPubkey with
      | error exception =>
          rw [made] at found
          cases found
      | ok built =>
          have locked := TxOut.new_scriptPubkey made
          obtain ⟨name, named, -⟩ := built.exists_getAddress prim
          have sameScript : name = address ↔ item.2.scriptPubkey = out.scriptPubkey := by
            rw [← locked]
            constructor
            · rintro rfl
              exact TxOut.getAddress_injective named written
            · intro same
              rw [TxOut.getAddress_congr prim same, written] at named
              exact (Except.ok.inj named).symm
          cases others : getAddressUtxos prim address items with
          | error exception =>
              simp only [made, named, others, bind, Except.bind] at found
              cases found
          | ok rest =>
              simp only [made, named, others, bind, Except.bind, pure, Except.pure,
                Except.ok.injEq] at found
              rw [← found, ih others]
              by_cases same : name = address
              · rw [if_pos same, List.filter_cons_of_pos (by simpa using sameScript.mp same),
                  List.map_cons]
              · rw [if_neg same, List.filter_cons_of_neg (by simpa [← sameScript] using same)]

/-- Scripts and addresses correspond: the address of a standard script is read
back as the script, every script has an address, no two scripts share one, and
the outputs found for an address are those locked by its script. -/
theorem scripts_and_addresses_correspond (prim : Primitives) :
    (∀ out : TxOut, StandardScript out.scriptPubkey →
      ∃ address, out.getAddress prim = .ok address ∧
        addressToScriptpubkey prim address = out.scriptPubkey) ∧
    (∀ out : TxOut, ∃ address, out.getAddress prim = .ok address) ∧
    (∀ (out out' : TxOut) (address : List Char), out.getAddress prim = .ok address →
      out'.getAddress prim = .ok address → out.scriptPubkey = out'.scriptPubkey) ∧
    (∀ (items : List (Σ _ : Outpoint, UTXOEntry)) (address : List Char)
      (results : List AddressUtxo) (out : TxOut), out.getAddress prim = .ok address →
      getAddressUtxos prim address items = .ok results →
        results = (items.filter fun item => item.2.scriptPubkey = out.scriptPubkey).map
          fun item => AddressUtxo.of item.1 item.2) := by
  refine ⟨?_, ?_, ?_, ?_⟩
  · intro out standard
    obtain ⟨address, written, ⟨read, -⟩ | ⟨nonstandard, -⟩⟩ := out.exists_getAddress prim
    · exact ⟨address, written, read⟩
    · exact absurd standard nonstandard
  · intro out
    obtain ⟨address, written, -⟩ := out.exists_getAddress prim
    exact ⟨address, written⟩
  · intro out out' address written written'
    exact TxOut.getAddress_injective written written'
  · intro items address results out written found
    exact getAddressUtxos_eq written found

def keyHashOutput : TxOut where
  value := 5000
  scriptPubkey := [0x00, 0x14] ++ List.replicate 20 0x99
  value_le := by decide

/-- Another output of the same script. -/
def keyHashChange : TxOut where
  value := 1200
  scriptPubkey := [0x00, 0x14] ++ List.replicate 20 0x99
  value_le := by decide

/-- The address of `keyHashOutput`. -/
def keyHashAddress : List Char := "qty1qnxvenxvenxvenxvenxvenxvenxvenxveqpnjgu".toList

/-- An output of the script and one of another script. -/
def keyHashItems : List (Σ _ : Outpoint, UTXOEntry) :=
  [⟨([0x01], 0), ⟨5000, [0x00, 0x14] ++ List.replicate 20 0x99, 7, false⟩⟩,
    ⟨([0x02], 1), ⟨6000, [0x51], 8, true⟩⟩]

theorem keyHashOutput_corresponds :
    (∃ address, keyHashOutput.getAddress (Primitives.ofDigests []) = .ok address ∧
        addressToScriptpubkey (Primitives.ofDigests []) address = keyHashOutput.scriptPubkey) ∧
      keyHashOutput.scriptPubkey = keyHashChange.scriptPubkey ∧
      [AddressUtxo.mk "01" 0 5000 "00149999999999999999999999999999999999999999" 7 false] =
        (keyHashItems.filter fun item => item.2.scriptPubkey = keyHashOutput.scriptPubkey).map
          fun item => AddressUtxo.of item.1 item.2 := by
  have written : keyHashOutput.getAddress (Primitives.ofDigests []) = .ok keyHashAddress := by
    decide +kernel
  have found : getAddressUtxos (Primitives.ofDigests []) keyHashAddress keyHashItems =
      .ok [AddressUtxo.mk "01" 0 5000 "00149999999999999999999999999999999999999999" 7
        false] := by
    decide +kernel
  have change : keyHashChange.getAddress (Primitives.ofDigests []) = .ok keyHashAddress := by
    decide +kernel
  obtain ⟨roundTrip, -, injective, locked⟩ :=
    scripts_and_addresses_correspond (Primitives.ofDigests [])
  exact ⟨roundTrip keyHashOutput (.p2wpkh rfl),
    injective keyHashOutput keyHashChange keyHashAddress written change,
    locked keyHashItems keyHashAddress _ keyHashOutput written found⟩

end QuantyCoin
