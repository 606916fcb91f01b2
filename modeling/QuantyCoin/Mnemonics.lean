import QuantyCoin.Bip39Words
import QuantyCoin.BitRegrouping
import QuantyCoin.CompactTarget

/-!
# Mnemonics

`entropy_to_mnemonic`, `validate_mnemonic` and `mnemonic_to_seed` of `crypto/bip39.py`.
A valid mnemonic is one that some entropy is encoded as.  The word list is longer than
the eleven bits of an index can count, and the seed is derived from the text of a
mnemonic, not from its words.
-/

namespace QuantyCoin

open BitRegrouping ByteDecoder

/-! ## Words -/

/-- `str.isspace` of a character: the separators of `strip` and `split`. -/
def isSpace (c : Char) : Bool :=
  (0x09 ≤ c.toNat && c.toNat ≤ 0x0D) || (0x1C ≤ c.toNat && c.toNat ≤ 0x20) ||
    (0x2000 ≤ c.toNat && c.toNat ≤ 0x200A) ||
    [0x85, 0xA0, 0x1680, 0x2028, 0x2029, 0x202F, 0x205F, 0x3000].contains c.toNat

/-- `text.strip()`. -/
def strip (text : List Char) : List Char :=
  ((text.dropWhile isSpace).reverse.dropWhile isSpace).reverse

/-- `text.split()`. -/
def splitWords (text : List Char) : List (List Char) := (text.splitOnP isSpace).filter (· ≠ [])

/-- `mnemonic.strip().split()`. -/
def mnemonicWords (mnemonic : String) : List String :=
  (splitWords (strip mnemonic.toList)).map String.ofList

/-- `" ".join(words)`. -/
def joinWords (words : List String) : String :=
  String.ofList (List.intercalate [' '] (words.map String.toList))

/-! ## Bits -/

/-- The binary format of an integer, padded with zeros to a width. -/
def formatBits (width value : Nat) : List Bool := bitsOf (max width (bitLength value)) value

/-- The bits of all bytes. -/
def byteBits (bytes : Bytes) : List Bool := bytes.flatMap fun byte => formatBits 8 byte.toNat

/-- The indices of the words in binary. -/
def wordBits (words : List String) : List Bool :=
  words.flatMap fun word => formatBits 11 (bip39Words.idxOf word)

section

variable (sha256 : Bytes → Bytes)

/-- `words` in `entropy_to_mnemonic`: eleven bits are always an index of the list. -/
def entropyWords (entropy : Bytes) : List String :=
  let entLen := entropy.length * 8
  let checksumLen := entLen / 32
  let totalBits := byteBits entropy ++ (byteBits (sha256 entropy)).take checksumLen
  (regroup 11 totalBits).map fun idx => bip39Words.getD idx ""

def entropyToMnemonic (entropy : Bytes) : String := joinWords (entropyWords sha256 entropy)

def validateMnemonic (mnemonic : String) : Bool :=
  let words := mnemonicWords mnemonic
  if words.length ∉ [12, 15, 18, 21, 24] then false
  else if ¬words.all (bip39Words.contains ·) then false
  else
    let totalBits := wordBits words
    let checksumLen := words.length / 3
    let entLen := words.length * 11 - checksumLen
    let entropyBytes := (regroup 8 (totalBits.take entLen)).map UInt8.ofNat
    let calcChecksum := (byteBits (sha256 entropyBytes)).take checksumLen
    calcChecksum = totalBits.drop entLen

/-- `mnemonic_to_seed`, with PBKDF2-HMAC-SHA512 of a password and a salt, a number of
rounds and a length. -/
def mnemonicToSeed (pbkdf2Hmac : Bytes → Bytes → Nat → Nat → Bytes)
    (mnemonic passphrase : String) : Except PyException Bytes :=
  if !validateMnemonic sha256 mnemonic then
    .error (.valueError "Invalid BIP39 mnemonic phrase")
  else
    let salt := ("mnemonic" ++ passphrase).toByteArray.data.toList
    let mnemonicBytes := mnemonic.toByteArray.data.toList
    .ok (pbkdf2Hmac mnemonicBytes salt 2048 64)

end

/-! ## Splitting and joining -/

theorem splitWords_append_cons (before : List Char) {separator : Char} (after : List Char)
    (space : isSpace separator = true) :
    splitWords (before ++ separator :: after) = splitWords before ++ splitWords after := by
  rw [splitWords, List.splitOnP_append_cons before after space, List.filter_append]
  rfl

theorem splitWords_nil : splitWords [] = [] := rfl

theorem splitWords_dropWhile (text : List Char) :
    splitWords (text.dropWhile isSpace) = splitWords text := by
  induction text with
  | nil => rfl
  | cons c text ih =>
      by_cases space : isSpace c = true
      · have skipped := splitWords_append_cons [] text space
        rw [List.nil_append, splitWords_nil, List.nil_append] at skipped
        rw [List.dropWhile_cons_of_pos space, ih, skipped]
      · rw [List.dropWhile_cons_of_neg space]

theorem splitWords_dropWhile_reverse (text : List Char) :
    splitWords (text.reverse.dropWhile isSpace).reverse = splitWords text := by
  induction text using List.reverseRecOn with
  | nil => rfl
  | append_singleton text c ih =>
      rw [List.reverse_append, List.reverse_singleton, List.singleton_append]
      by_cases space : isSpace c = true
      · rw [List.dropWhile_cons_of_pos space, ih, splitWords_append_cons text [] space,
          splitWords_nil, List.append_nil]
      · rw [List.dropWhile_cons_of_neg space, List.reverse_cons, List.reverse_reverse]

/-- Space around a text does not change its words. -/
theorem splitWords_strip (text : List Char) : splitWords (strip text) = splitWords text := by
  rw [strip, splitWords_dropWhile_reverse, splitWords_dropWhile]

theorem splitWords_of_not_space {word : List Char} (nonempty : word ≠ [])
    (noSpace : ∀ c ∈ word, isSpace c = false) : splitWords word = [word] := by
  rw [splitWords, List.splitOnP_eq_singleton noSpace]
  simp [nonempty]

theorem splitWords_intercalate {words : List (List Char)}
    (separate : ∀ word ∈ words, word ≠ [] ∧ ∀ c ∈ word, isSpace c = false) :
    splitWords (List.intercalate [' '] words) = words := by
  induction words with
  | nil => rfl
  | cons word words ih =>
      have first := separate word List.mem_cons_self
      have rest := ih fun other member => separate other (List.mem_cons_of_mem _ member)
      cases words with
      | nil =>
          rw [List.intercalate_singleton]
          exact splitWords_of_not_space first.1 first.2
      | cons next words =>
          rw [List.intercalate_cons_cons, List.append_assoc, List.singleton_append,
            splitWords_append_cons _ _ (by decide), rest,
            splitWords_of_not_space first.1 first.2]
          rfl

theorem isSpace_of_letter {c : Char} (letter : 97 ≤ c.toNat ∧ c.toNat ≤ 122) :
    isSpace c = false := by
  rw [isSpace]
  simp only [Bool.or_eq_false_iff, Bool.and_eq_false_iff, decide_eq_false_iff_not,
    List.contains_eq_mem, List.mem_cons, List.not_mem_nil, or_false]
  omega

/-- The words of a text made of words of the list. -/
theorem mnemonicWords_joinWords {words : List String} (known : ∀ word ∈ words, word ∈ bip39Words) :
    mnemonicWords (joinWords words) = words := by
  have separate : ∀ word ∈ words.map String.toList,
      word ≠ [] ∧ ∀ c ∈ word, isSpace c = false := by
    intro letters member
    obtain ⟨word, inside, rfl⟩ := List.mem_map.mp member
    obtain ⟨nonempty, letters⟩ := isLetter_of_mem (known word inside)
    exact ⟨nonempty, fun c here => isSpace_of_letter (letters c here)⟩
  rw [mnemonicWords, joinWords, String.toList_ofList, splitWords_strip,
    splitWords_intercalate separate, List.map_map]
  exact map_eq_self fun word _ => String.ofList_toList

/-! ## Bits of bytes and words -/

theorem length_formatBits (width value : Nat) :
    (formatBits width value).length = max width (bitLength value) :=
  length_bitsOf _ _

theorem formatBits_of_lt {width value : Nat} (small : value < 2 ^ width) :
    formatBits width value = bitsOf width value := by
  rw [formatBits, max_eq_left (bitLength_le_iff.mpr small)]

theorem byteBits_eq (bytes : Bytes) :
    byteBits bytes = (bytes.map UInt8.toNat).flatMap (bitsOf 8) := by
  rw [byteBits, List.flatMap_map]
  exact List.flatMap_congr fun byte _ => formatBits_of_lt byte.toNat_lt

theorem length_byteBits (bytes : Bytes) : (byteBits bytes).length = 8 * bytes.length := by
  rw [byteBits_eq, length_flatMap_bitsOf, List.length_map]

theorem toNat_lt_of_mem (bytes : Bytes) : ∀ value ∈ bytes.map UInt8.toNat, value < 2 ^ 8 := by
  intro value member
  obtain ⟨byte, -, rfl⟩ := List.mem_map.mp member
  exact byte.toNat_lt

/-- Bytes are read back from their bits. -/
theorem regroup_byteBits (bytes : Bytes) :
    (regroup 8 (byteBits bytes)).map UInt8.ofNat = bytes := by
  rw [byteBits_eq, regroup_flatMap (by decide) (toNat_lt_of_mem bytes), List.map_map]
  simp [Function.comp_def]

/-- Bits that fill bytes are the bits of these bytes. -/
theorem byteBits_regroup {bits : List Bool} {count : Nat} (length : bits.length = 8 * count) :
    byteBits ((regroup 8 bits).map UInt8.ofNat) = bits ∧
      ((regroup 8 bits).map UInt8.ofNat).length = count := by
  obtain ⟨spelled, counted, small⟩ := flatMap_regroup (by decide) length
  rw [byteBits_eq, map_toNat_map_ofNat small, List.length_map]
  exact ⟨spelled, counted⟩

/-- Eleven bits hold the index of a word. -/
def IsShort (word : String) : Prop := bip39Words.idxOf word < 2048

theorem wordBits_of_short {words : List String} (short : ∀ word ∈ words, IsShort word) :
    wordBits words = (words.map bip39Words.idxOf).flatMap (bitsOf 11) := by
  rw [wordBits, List.flatMap_map]
  exact List.flatMap_congr fun word member => formatBits_of_lt (short word member)

theorem length_wordBits_of_short {words : List String} (short : ∀ word ∈ words, IsShort word) :
    (wordBits words).length = 11 * words.length := by
  rw [wordBits_of_short short, length_flatMap_bitsOf, List.length_map]

/-- Every index takes at least eleven bits, and only a short word no more. -/
theorem isShort_of_length_wordBits {words : List String} :
    11 * words.length ≤ (wordBits words).length ∧
      ((wordBits words).length ≤ 11 * words.length → ∀ word ∈ words, IsShort word) := by
  induction words with
  | nil => exact ⟨Nat.le_refl 0, fun _ _ member => nomatch member⟩
  | cons word words ih =>
      have bits : (wordBits (word :: words)).length =
          max 11 (bitLength (bip39Words.idxOf word)) + (wordBits words).length := by
        rw [wordBits, List.flatMap_cons, List.length_append, length_formatBits]
        rfl
      rw [bits, List.length_cons]
      refine ⟨by omega, fun few other member => ?_⟩
      rcases List.mem_cons.mp member with rfl | member
      · have fits : bitLength (bip39Words.idxOf other) ≤ 11 := by omega
        exact bitLength_le_iff.mp fits
      · exact ih.2 (by omega) other member

theorem getD_idxOf {word : String} (known : word ∈ bip39Words) :
    bip39Words.getD (bip39Words.idxOf word) "" = word := by
  have inside := List.idxOf_lt_length_of_mem known
  rw [List.getD_eq_getElem?_getD, List.getElem?_eq_getElem inside, Option.getD_some,
    List.getElem_idxOf]

theorem idxOf_getD {idx : Nat} (small : idx < 2048) :
    bip39Words.getD idx "" ∈ bip39Words ∧ bip39Words.idxOf (bip39Words.getD idx "") = idx := by
  have inside : idx < bip39Words.length := by
    rw [length_bip39Words]
    omega
  rw [List.getD_eq_getElem?_getD, List.getElem?_eq_getElem inside, Option.getD_some]
  exact ⟨List.getElem_mem inside, bip39Words_nodup.idxOf_getElem idx inside⟩

/-! ## Encoding and validation -/

section

variable {sha256 : Bytes → Bytes}

/-- The words of some entropy spell it and its checksum. -/
theorem entropyWords_spell (width : ∀ data, (sha256 data).length = 32) {entropy : Bytes}
    {count : Nat} (length : entropy.length = 4 * count) (few : count ≤ 8) :
    (entropyWords sha256 entropy).length = 3 * count ∧
      (∀ word ∈ entropyWords sha256 entropy, word ∈ bip39Words ∧ IsShort word) ∧
      wordBits (entropyWords sha256 entropy) =
        byteBits entropy ++ (byteBits (sha256 entropy)).take count := by
  have checksumLen : entropy.length * 8 / 32 = count := by omega
  have total : (byteBits entropy ++ (byteBits (sha256 entropy)).take count).length =
      11 * (3 * count) := by
    rw [List.length_append, List.length_take, length_byteBits, length_byteBits, width, length]
    omega
  obtain ⟨spelled, counted, small⟩ := flatMap_regroup (by decide) total
  unfold entropyWords
  simp only [checksumLen]
  generalize byteBits entropy ++ (byteBits (sha256 entropy)).take count = bits
    at spelled counted small ⊢
  have known : ∀ word ∈ (regroup 11 bits).map fun idx => bip39Words.getD idx "",
      word ∈ bip39Words ∧ IsShort word := by
    intro word member
    obtain ⟨idx, inside, rfl⟩ := List.mem_map.mp member
    obtain ⟨listed, index⟩ := idxOf_getD (small idx inside)
    exact ⟨listed, lt_of_eq_of_lt index (small idx inside)⟩
  refine ⟨by rw [List.length_map, counted], known, ?_⟩
  have indices : ((regroup 11 bits).map fun idx => bip39Words.getD idx "").map bip39Words.idxOf =
      regroup 11 bits := by
    rw [List.map_map]
    exact map_eq_self fun idx inside => (idxOf_getD (small idx inside)).2
  rw [wordBits_of_short fun word member => (known word member).2, indices, spelled]

/-- Words that spell some bytes and their checksum are the words of these bytes. -/
theorem entropyWords_eq {words : List String} (known : ∀ word ∈ words, word ∈ bip39Words)
    (short : ∀ word ∈ words, IsShort word) {entropy : Bytes} {count : Nat}
    (length : entropy.length = 4 * count)
    (spelled : wordBits words = byteBits entropy ++ (byteBits (sha256 entropy)).take count) :
    entropyWords sha256 entropy = words := by
  have checksumLen : entropy.length * 8 / 32 = count := by omega
  have small : ∀ idx ∈ words.map bip39Words.idxOf, idx < 2 ^ 11 := by
    intro idx member
    obtain ⟨word, inside, rfl⟩ := List.mem_map.mp member
    exact short word inside
  unfold entropyWords
  simp only [checksumLen]
  rw [← spelled, wordBits_of_short short, regroup_flatMap (by decide) small, List.map_map]
  exact map_eq_self fun word member => getD_idxOf (known word member)

/-- What `validate_mnemonic` checks of a number of words that is three times the number of
checksum bits. -/
theorem validateMnemonic_iff_bits {mnemonic : String} {count : Nat}
    (length : (mnemonicWords mnemonic).length = 3 * count) (many : 4 ≤ count) (few : count ≤ 8) :
    validateMnemonic sha256 mnemonic = true ↔
      (∀ word ∈ mnemonicWords mnemonic, word ∈ bip39Words) ∧
      (byteBits (sha256 ((regroup 8 ((wordBits (mnemonicWords mnemonic)).take (32 * count))).map
        UInt8.ofNat))).take count = (wordBits (mnemonicWords mnemonic)).drop (32 * count) := by
  unfold validateMnemonic
  generalize mnemonicWords mnemonic = words at length ⊢
  have counted : words.length ∈ [12, 15, 18, 21, 24] := by
    simp only [List.mem_cons, List.not_mem_nil, or_false]
    omega
  have checksumLen : words.length / 3 = count := by omega
  have entLen : words.length * 11 - count = 32 * count := by omega
  simp only [counted, not_true_eq_false, if_false, checksumLen, entLen]
  have listed : words.all (bip39Words.contains ·) = true ↔ ∀ word ∈ words, word ∈ bip39Words := by
    simp only [List.all_eq_true, List.contains_iff_mem]
  split_ifs with known
  · rw [decide_eq_true_eq]
    exact (and_iff_right (listed.mp known)).symm
  · constructor
    · intro impossible
      cases impossible
    · intro checks
      exact absurd (listed.mpr checks.1) known

theorem exists_count_of_validateMnemonic {mnemonic : String}
    (valid : validateMnemonic sha256 mnemonic = true) :
    ∃ count, (mnemonicWords mnemonic).length = 3 * count ∧ 4 ≤ count ∧ count ≤ 8 := by
  unfold validateMnemonic at valid
  dsimp only at valid
  split_ifs at valid with counted
  · simp only [List.mem_cons, List.not_mem_nil, or_false] at counted
    exact ⟨(mnemonicWords mnemonic).length / 3, by omega, by omega, by omega⟩

/-- The words of a valid mnemonic are those of some entropy. -/
theorem exists_entropy_of_validateMnemonic {mnemonic : String}
    (valid : validateMnemonic sha256 mnemonic = true) :
    ∃ entropy count, entropy.length = 4 * count ∧ 4 ≤ count ∧ count ≤ 8 ∧
      entropyWords sha256 entropy = mnemonicWords mnemonic := by
  obtain ⟨count, length, many, few⟩ := exists_count_of_validateMnemonic valid
  obtain ⟨known, checksum⟩ := (validateMnemonic_iff_bits length many few).mp valid
  generalize mnemonicWords mnemonic = words at length known checksum ⊢
  -- a checksum of the right length leaves eleven bits for every word
  have bitCount : (wordBits words).length ≤ 11 * words.length := by
    have lengths := congrArg List.length checksum
    rw [List.length_take, List.length_drop] at lengths
    omega
  have short := isShort_of_length_wordBits.2 bitCount
  have total := length_wordBits_of_short short
  have front : ((wordBits words).take (32 * count)).length = 8 * (4 * count) := by
    rw [List.length_take]
    omega
  obtain ⟨spelled, entropyLength⟩ := byteBits_regroup front
  refine ⟨_, count, entropyLength, many, few, entropyWords_eq known short entropyLength ?_⟩
  rw [spelled, checksum, List.take_append_drop]

/-- A mnemonic with the words of some entropy is valid. -/
theorem validateMnemonic_of_entropy (width : ∀ data, (sha256 data).length = 32)
    {mnemonic : String} {entropy : Bytes} {count : Nat} (length : entropy.length = 4 * count)
    (many : 4 ≤ count) (few : count ≤ 8)
    (same : mnemonicWords mnemonic = entropyWords sha256 entropy) :
    validateMnemonic sha256 mnemonic = true := by
  obtain ⟨counted, known, spelled⟩ := entropyWords_spell width length few
  have bits : (byteBits entropy).length = 32 * count := by
    rw [length_byteBits]
    omega
  rw [validateMnemonic_iff_bits (same ▸ counted) many few, same, spelled, ← bits, List.take_left,
    List.drop_left, regroup_byteBits]
  exact ⟨fun word member => (known word member).1, rfl⟩

theorem entropyWords_injective (width : ∀ data, (sha256 data).length = 32)
    {entropy entropy' : Bytes} {count count' : Nat} (length : entropy.length = 4 * count)
    (few : count ≤ 8) (length' : entropy'.length = 4 * count') (few' : count' ≤ 8)
    (same : entropyWords sha256 entropy = entropyWords sha256 entropy') : entropy = entropy' := by
  obtain ⟨counted, -, spelled⟩ := entropyWords_spell width length few
  obtain ⟨counted', -, spelled'⟩ := entropyWords_spell width length' few'
  rw [same] at counted spelled
  have counts : count = count' := by omega
  subst counts
  rw [spelled'] at spelled
  have front := (List.append_inj spelled (by rw [length_byteBits, length_byteBits]; omega)).1
  rw [← regroup_byteBits entropy, ← front, regroup_byteBits]

theorem mnemonicWords_entropyToMnemonic (width : ∀ data, (sha256 data).length = 32)
    {entropy : Bytes} {count : Nat} (length : entropy.length = 4 * count) (few : count ≤ 8) :
    mnemonicWords (entropyToMnemonic sha256 entropy) = entropyWords sha256 entropy :=
  mnemonicWords_joinWords fun word member =>
    ((entropyWords_spell width length few).2.1 word member).1

theorem exists_count_of_length {entropy : Bytes} (length : entropy.length ∈ [16, 20, 24, 28, 32]) :
    ∃ count, entropy.length = 4 * count ∧ 4 ≤ count ∧ count ≤ 8 := by
  simp only [List.mem_cons, List.not_mem_nil, or_false] at length
  exact ⟨entropy.length / 4, by omega, by omega, by omega⟩

/-- A text is a valid mnemonic if and only if its words are those of the mnemonic of some
entropy, which is then unique. -/
theorem validateMnemonic_iff_encoded (width : ∀ data, (sha256 data).length = 32)
    (mnemonic : String) :
    (validateMnemonic sha256 mnemonic = true ↔
      ∃ entropy : Bytes, entropy.length ∈ [16, 20, 24, 28, 32] ∧
        mnemonicWords mnemonic = mnemonicWords (entropyToMnemonic sha256 entropy)) ∧
    ∀ entropy entropy' : Bytes, entropy.length ∈ [16, 20, 24, 28, 32] →
      entropy'.length ∈ [16, 20, 24, 28, 32] →
      mnemonicWords mnemonic = mnemonicWords (entropyToMnemonic sha256 entropy) →
      mnemonicWords mnemonic = mnemonicWords (entropyToMnemonic sha256 entropy') →
        entropy = entropy' := by
  refine ⟨⟨?_, ?_⟩, ?_⟩
  · intro valid
    obtain ⟨entropy, count, length, many, few, same⟩ := exists_entropy_of_validateMnemonic valid
    refine ⟨entropy, ?_, ?_⟩
    · simp only [List.mem_cons, List.not_mem_nil, or_false]
      omega
    · rw [mnemonicWords_entropyToMnemonic width length few, same]
  · rintro ⟨entropy, allowed, same⟩
    obtain ⟨count, length, many, few⟩ := exists_count_of_length allowed
    rw [mnemonicWords_entropyToMnemonic width length few] at same
    exact validateMnemonic_of_entropy width length many few same
  · intro entropy entropy' allowed allowed' same same'
    obtain ⟨count, length, -, few⟩ := exists_count_of_length allowed
    obtain ⟨count', length', -, few'⟩ := exists_count_of_length allowed'
    rw [mnemonicWords_entropyToMnemonic width length few] at same
    rw [mnemonicWords_entropyToMnemonic width length' few'] at same'
    exact entropyWords_injective width length few length' few' (same.symm.trans same')

/-- A hash that is always zero. -/
def zeroSha256 (_ : Bytes) : Bytes := List.replicate 32 0

theorem zeroSha256_length (data : Bytes) : (zeroSha256 data).length = 32 := List.length_replicate

/-- The mnemonic of sixteen zero bytes. -/
def zeroMnemonic : String := entropyToMnemonic zeroSha256 (List.replicate 16 0)

theorem zeroMnemonic_encoded : validateMnemonic zeroSha256 zeroMnemonic = true :=
  (validateMnemonic_iff_encoded zeroSha256_length zeroMnemonic).1.mpr
    ⟨List.replicate 16 0, by decide, rfl⟩

/-! ## Completing a mnemonic -/

theorem idxOf_last_words :
    bip39Words[2048]? = some "zone" ∧ bip39Words[2049]? = some "zoo" := by
  decide +kernel

/-- The two words without an index of eleven bits. -/
theorem isShort_iff {word : String} (known : word ∈ bip39Words) :
    IsShort word ↔ word ≠ "zone" ∧ word ≠ "zoo" := by
  have inside := List.idxOf_lt_length_of_mem known
  have found : bip39Words[bip39Words.idxOf word]? = some word := by
    rw [List.getElem?_eq_getElem inside, List.getElem_idxOf]
  have position {idx : Nat} {other : String} (listed : bip39Words[idx]? = some other) :
      word = other ↔ bip39Words.idxOf word = idx := by
    constructor
    · rintro rfl
      exact (List.getElem?_inj inside bip39Words_nodup).mp (found.trans listed.symm)
    · intro same
      rw [same, listed] at found
      exact (Option.some.inj found).symm
  rw [Ne, Ne, position idxOf_last_words.1, position idxOf_last_words.2, IsShort]
  rw [length_bip39Words] at inside
  omega

theorem isShort_of_validateMnemonic (width : ∀ data, (sha256 data).length = 32)
    {mnemonic : String} (valid : validateMnemonic sha256 mnemonic = true) {word : String}
    (member : word ∈ mnemonicWords mnemonic) : IsShort word := by
  obtain ⟨entropy, count, length, -, few, same⟩ := exists_entropy_of_validateMnemonic valid
  rw [← same] at member
  exact ((entropyWords_spell width length few).2.1 word member).2

/-- Zeros fill up the entropy, and the checksum the last word. -/
theorem exists_completion (width : ∀ data, (sha256 data).length = 32) {words : List String}
    {count : Nat} (length : words.length + 1 = 3 * count) (many : 4 ≤ count) (few : count ≤ 8)
    (known : ∀ word ∈ words, word ∈ bip39Words) (short : ∀ word ∈ words, IsShort word) :
    ∃ word ∈ bip39Words, validateMnemonic sha256 (joinWords (words ++ [word])) = true := by
  have bits : (wordBits words ++ List.replicate (11 - count) false).length = 8 * (4 * count) := by
    rw [List.length_append, length_wordBits_of_short short, List.length_replicate]
    omega
  obtain ⟨spelled, entropyLength⟩ := byteBits_regroup bits
  generalize (regroup 8 (wordBits words ++ List.replicate (11 - count) false)).map UInt8.ofNat =
    entropy at spelled entropyLength
  -- the bits of the last word
  have lastLength : (List.replicate (11 - count) false ++
      (byteBits (sha256 entropy)).take count).length = 11 := by
    rw [List.length_append, List.length_replicate, List.length_take, length_byteBits, width]
    omega
  have lastBits := bitsOf_ofBits
    (List.replicate (11 - count) false ++ (byteBits (sha256 entropy)).take count)
  have lastSmall := ofBits_lt
    (List.replicate (11 - count) false ++ (byteBits (sha256 entropy)).take count)
  rw [lastLength] at lastBits lastSmall
  obtain ⟨listed, index⟩ := idxOf_getD lastSmall
  generalize ofBits (List.replicate (11 - count) false ++ (byteBits (sha256 entropy)).take count) =
    last at lastBits lastSmall listed index
  generalize bip39Words.getD last "" = word at listed index
  have allKnown : ∀ other ∈ words ++ [word], other ∈ bip39Words :=
    List.forall_mem_append.mpr ⟨known, by simpa using listed⟩
  have lastShort : IsShort word := lt_of_eq_of_lt index lastSmall
  have allShort : ∀ other ∈ words ++ [word], IsShort other :=
    List.forall_mem_append.mpr ⟨short, by simpa using lastShort⟩
  have whole : wordBits (words ++ [word]) =
      byteBits entropy ++ (byteBits (sha256 entropy)).take count := by
    rw [wordBits, List.flatMap_append, List.flatMap_singleton, index, formatBits_of_lt lastSmall,
      lastBits, spelled, List.append_assoc]
    rfl
  refine ⟨word, listed, validateMnemonic_of_entropy width entropyLength many few ?_⟩
  rw [mnemonicWords_joinWords allKnown, entropyWords_eq allKnown allShort entropyLength whole]

/-- All but one of the words of a mnemonic can be completed if and only if the last two
words of the list are not among them. -/
theorem exists_completion_iff (width : ∀ data, (sha256 data).length = 32) {n : Nat}
    (allowed : n ∈ [12, 15, 18, 21, 24]) {words : List String} (length : words.length = n - 1)
    (known : ∀ word ∈ words, word ∈ bip39Words) :
    (∃ word ∈ bip39Words, validateMnemonic sha256 (joinWords (words ++ [word])) = true) ↔
      "zone" ∉ words ∧ "zoo" ∉ words := by
  simp only [List.mem_cons, List.not_mem_nil, or_false] at allowed
  constructor
  · rintro ⟨word, listed, valid⟩
    have allKnown : ∀ other ∈ words ++ [word], other ∈ bip39Words :=
      List.forall_mem_append.mpr ⟨known, by simpa using listed⟩
    have short : ∀ other ∈ words, IsShort other := by
      intro other member
      apply isShort_of_validateMnemonic width valid
      rw [mnemonicWords_joinWords allKnown]
      exact List.mem_append_left _ member
    constructor
    · intro member
      exact ((isShort_iff (known _ member)).mp (short _ member)).1 rfl
    · intro member
      exact ((isShort_iff (known _ member)).mp (short _ member)).2 rfl
  · rintro ⟨noZone, noZoo⟩
    obtain ⟨count, rfl⟩ : ∃ count, n = 3 * count := ⟨n / 3, by omega⟩
    refine exists_completion width (by omega : words.length + 1 = 3 * count) (by omega) (by omega)
      known ?_
    intro word member
    rw [isShort_iff (known word member)]
    constructor
    · rintro rfl
      exact noZone member
    · rintro rfl
      exact noZoo member

/-- No word completes eleven times the last word of the list. -/
theorem zoo_incomplete :
    ¬∀ (n : Nat) (words : List String), n ∈ [12, 15, 18, 21, 24] → words.length = n - 1 →
      (∀ word ∈ words, word ∈ bip39Words) →
        ∃ word ∈ bip39Words, validateMnemonic zeroSha256 (joinWords (words ++ [word])) = true := by
  intro completes
  have zoo : "zoo" ∈ bip39Words := List.mem_of_getElem? idxOf_last_words.2
  have known : ∀ word ∈ List.replicate 11 "zoo", word ∈ bip39Words := by
    intro word member
    rwa [List.eq_of_mem_replicate member]
  obtain ⟨word, listed, valid⟩ := completes 12 (List.replicate 11 "zoo") (by decide) rfl known
  have allKnown : ∀ other ∈ List.replicate 11 "zoo" ++ [word], other ∈ bip39Words :=
    List.forall_mem_append.mpr ⟨known, by simpa using listed⟩
  have short : IsShort "zoo" := by
    apply isShort_of_validateMnemonic zeroSha256_length valid
    rw [mnemonicWords_joinWords allKnown]
    exact List.mem_append_left _ (by decide)
  exact ((isShort_iff zoo).mp short).2 rfl

theorem abandon_completed :
    ∃ word ∈ bip39Words,
      validateMnemonic zeroSha256 (joinWords (List.replicate 11 "abandon" ++ [word])) = true := by
  have known : ∀ word ∈ List.replicate 11 "abandon", word ∈ bip39Words := by
    intro word member
    rw [List.eq_of_mem_replicate member]
    exact List.mem_cons_self
  exact (exists_completion_iff zeroSha256_length (by decide : 12 ∈ [12, 15, 18, 21, 24])
    List.length_replicate known).mpr ⟨by decide, by decide⟩

/-! ## Seeds -/

/-- A text is determined by its bytes. -/
theorem eq_of_utf8 {text text' : String}
    (same : text.toByteArray.data.toList = text'.toByteArray.data.toList) : text = text' :=
  String.toByteArray_inj.mp (ByteArray.ext (Array.toList_inj.mp same))

/-- The seeds of two mnemonics with the same words are equal if and only if the texts are. -/
theorem mnemonicToSeed_eq_iff {pbkdf2Hmac : Bytes → Bytes → Nat → Nat → Bytes}
    (injective : ∀ salt rounds length, Function.Injective
      fun password => pbkdf2Hmac password salt rounds length)
    {mnemonic mnemonic' : String} (valid : validateMnemonic sha256 mnemonic = true)
    (valid' : validateMnemonic sha256 mnemonic' = true)
    (_ : mnemonicWords mnemonic = mnemonicWords mnemonic') (passphrase : String) :
    mnemonicToSeed sha256 pbkdf2Hmac mnemonic passphrase =
        mnemonicToSeed sha256 pbkdf2Hmac mnemonic' passphrase ↔
      mnemonic = mnemonic' := by
  constructor
  · intro same
    rw [mnemonicToSeed, mnemonicToSeed, valid, valid'] at same
    exact eq_of_utf8 (injective _ _ _ (Except.ok.inj same))
  · rintro rfl
    rfl

/-- A derivation that keeps the password. -/
def passwordOf (password _ : Bytes) (_ _ : Nat) : Bytes := password

theorem passwordOf_injective (salt : Bytes) (rounds length : Nat) :
    Function.Injective fun password => passwordOf password salt rounds length :=
  fun _ _ same => same

/-- The mnemonic with a line break behind it. -/
def brokenMnemonic : String := zeroMnemonic ++ "\n"

theorem mnemonicWords_brokenMnemonic : mnemonicWords zeroMnemonic = mnemonicWords brokenMnemonic := by
  have behind : brokenMnemonic.toList = zeroMnemonic.toList ++ '\n' :: [] := String.toList_append
  rw [mnemonicWords, mnemonicWords, splitWords_strip, splitWords_strip, behind,
    splitWords_append_cons _ _ (by decide), splitWords_nil, List.append_nil]

theorem zeroMnemonics_valid :
    validateMnemonic zeroSha256 zeroMnemonic = true ∧
      validateMnemonic zeroSha256 brokenMnemonic = true := by
  have length : (List.replicate 16 0 : Bytes).length = 4 * 4 := rfl
  have same := mnemonicWords_entropyToMnemonic zeroSha256_length length (by decide)
  constructor
  · exact validateMnemonic_of_entropy zeroSha256_length length (by decide) (by decide) same
  · exact validateMnemonic_of_entropy zeroSha256_length length (by decide) (by decide)
      (mnemonicWords_brokenMnemonic.symm.trans same)

theorem brokenMnemonic_ne : zeroMnemonic ≠ brokenMnemonic := by
  intro same
  have lengths := congrArg (fun text => text.toList.length) same
  simp [brokenMnemonic] at lengths

/-- The line break changes the seed. -/
theorem brokenMnemonic_seed :
    ¬∀ (mnemonic mnemonic' passphrase : String), validateMnemonic zeroSha256 mnemonic = true →
      validateMnemonic zeroSha256 mnemonic' = true →
      mnemonicWords mnemonic = mnemonicWords mnemonic' →
        mnemonicToSeed zeroSha256 passwordOf mnemonic passphrase =
          mnemonicToSeed zeroSha256 passwordOf mnemonic' passphrase := by
  intro agree
  have same := agree zeroMnemonic brokenMnemonic "" zeroMnemonics_valid.1 zeroMnemonics_valid.2
    mnemonicWords_brokenMnemonic
  rw [mnemonicToSeed, mnemonicToSeed, zeroMnemonics_valid.1, zeroMnemonics_valid.2] at same
  exact brokenMnemonic_ne (eq_of_utf8 (Except.ok.inj same))

theorem brokenMnemonic_seed_iff :
    mnemonicToSeed zeroSha256 passwordOf zeroMnemonic "" =
        mnemonicToSeed zeroSha256 passwordOf brokenMnemonic "" ↔
      zeroMnemonic = brokenMnemonic :=
  mnemonicToSeed_eq_iff passwordOf_injective zeroMnemonics_valid.1 zeroMnemonics_valid.2
    mnemonicWords_brokenMnemonic ""

end

end QuantyCoin
