import QuantyCoin.Primitives

/-!
# Consensus parameters, subsidies and compact targets

The constants of `core/genesis_constants.py` and the integer functions of
`core/consensus.py` that do not look at headers.
-/

namespace QuantyCoin

/-! ## Constants -/

def coin : Nat := 100000000
def genesisTimestamp : UInt32 := 1788614400
def genesisBits : UInt32 := 0x1e0fffff
def genesisNonce : UInt32 := 2951011

def laneATargetTime : Nat := 120
def laneABaseSubsidy : Nat := 50 * 100000000
def laneBBaseSubsidy : Nat := 25 * 100000000
def thermodynamicWeightA : Nat := 1
def thermodynamicWeightB : Nat := 2048

def difficultyRetargetInterval : Nat := 45
def subsidyHalvingInterval : Nat := 2100000
def maxMoneySatoshis : Nat := 21000000 * 100000000
def maxBlockSize : Nat := 32 * 1024 * 1024
def coinbaseMaturity : Nat := 100
def mtpWindow : Nat := 11
def futureTimeLimit : Nat := 7200

def powLimitBits : Nat := 0x1e0fffff
def powLimitTarget : Nat :=
  0x00000fffff000000000000000000000000000000000000000000000000000000

def powTypeSha256d : Nat := 0
def powTypeGeneralPurpose : Nat := 1
def laneWeightSha256d : Nat := thermodynamicWeightA
def laneWeightGeneralPurpose : Nat := thermodynamicWeightB
def laneTargetSpacing : Nat := laneATargetTime

/-! ## Functions of one block -/

/-- `get_block_subsidy`. -/
def getBlockSubsidy (height powType : Nat) : Nat :=
  let halvings := height / subsidyHalvingInterval
  if halvings ≥ 64 then 0
  else
    let base := if powType = powTypeSha256d then laneABaseSubsidy else laneBBaseSubsidy
    base >>> halvings

/-- `bits_to_target`. -/
def bitsToTarget (bits : Int) : Except PyException Nat :=
  if bits < 0 ∨ bits > 0xFFFFFFFF then
    .error (.valueError ("Bits out of 32-bit range: " ++ toString bits))
  else
    let exponent := bits.toNat >>> 24
    let coefficient := bits.toNat &&& 0x00FFFFFF
    if coefficient &&& 0x00800000 ≠ 0 then
      .error (.valueError
        ("Negative compact target is invalid: bits=0x" ++ hexNat 8 bits.toNat))
    else if exponent ≤ 3 then .ok (coefficient >>> (8 * (3 - exponent)))
    else .ok (coefficient <<< (8 * (exponent - 3)))

/-- `int.bit_length` of a non-negative integer. -/
def bitLength (value : Nat) : Nat :=
  if value = 0 then 0 else value.log2 + 1

/-- `target_to_bits`. -/
def targetToBits (target : Int) : Nat :=
  if target ≤ 0 then 0
  else
    let target := if target > powLimitTarget then powLimitTarget else target.toNat
    let nbytes := (bitLength target + 7) / 8
    let compact :=
      if nbytes ≤ 3 then (target <<< (8 * (3 - nbytes))) &&& 0x00FFFFFF
      else (target >>> (8 * (nbytes - 3))) &&& 0x00FFFFFF
    if compact &&& 0x00800000 ≠ 0 then
      ((nbytes + 1) <<< 24) ||| (compact >>> 8)
    else (nbytes <<< 24) ||| compact

/-- `get_block_work`. -/
def getBlockWork (bits : Int) (powType : Nat) : Except PyException Nat :=
  match bitsToTarget bits with
  | .error error => .error error
  | .ok target =>
      if target ≤ 0 then .ok 0
      else
        let rawWork := (1 <<< 256) / (target + 1)
        let weight :=
          if powType = powTypeGeneralPurpose then laneWeightGeneralPurpose
          else laneWeightSha256d
        .ok (rawWork * weight)

end QuantyCoin
