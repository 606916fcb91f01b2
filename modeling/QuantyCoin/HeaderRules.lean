import Mathlib.Data.List.Sort
import QuantyCoin.Block

/-!
# Rules on headers and their ancestors

The retargeting and median-time functions of `core/consensus.py` and the
stages of `core/validation.py` that the running node is documented to apply.
-/

namespace QuantyCoin

open ByteDecoder

/-- The `for` loop of `calculate_next_work_required_lwma`: the sum of the
targets, the weighted sum of clamped solve times and the sum of the weights. -/
def lwmaLoop (targetSpacing : Int) :
    Nat → BlockHeader → List BlockHeader → Nat × Int × Nat →
      Except PyException (Nat × Int × Nat)
  | _, _, [], sums => .ok sums
  | index, previous, header :: rest, (sumTargets, t, weight) =>
      let solveTime := (header.timestamp.toNat : Int) - previous.timestamp.toNat
      let solveTime := max (-6 * targetSpacing) (min solveTime (6 * targetSpacing))
      match bitsToTarget header.bits.toNat with
      | .error error => .error error
      | .ok target =>
          lwmaLoop targetSpacing (index + 1) header rest
            (sumTargets + target, t + solveTime * index, weight + index)

def divisionByZero : PyException :=
  .zeroDivisionError "integer division or modulo by zero"

/-- `calculate_next_work_required_lwma`. -/
def calculateNextWorkRequiredLwma (headers : List BlockHeader)
    (targetSpacing : Int) (n : Nat) : Except PyException Nat :=
  if headers.length < n + 1 then .ok powLimitBits
  else
    match headers.drop (headers.length - (n + 1)) with
    | [] => .ok powLimitBits
    | first :: recent =>
        match lwmaLoop targetSpacing 1 first recent (0, 0, 0) with
        | .error error => .error error
        | .ok (sumTargets, t, weight) =>
            if n = 0 then .error divisionByZero
            else
              let avgTarget := sumTargets / n
              let expectedT := targetSpacing * weight
              let t := if t ≤ 0 then 1 else t
              if expectedT = 0 then .error divisionByZero
              else
                let nextTarget := Int.fdiv (avgTarget * t) expectedT
                let nextTarget :=
                  if nextTarget > powLimitTarget ∨ nextTarget ≤ 0 then
                    (powLimitTarget : Int)
                  else nextTarget
                .ok (targetToBits nextTarget)

/-- `calculate_next_work_required_dual`, with its default spacing and
window. -/
def calculateNextWorkRequiredDual (headers : List BlockHeader) (powType : Nat) :
    Except PyException Nat :=
  let laneHeaders := headers.filter fun header => header.powType = powType
  if laneHeaders.length < difficultyRetargetInterval + 1 then .ok powLimitBits
  else
    calculateNextWorkRequiredLwma laneHeaders laneTargetSpacing
      difficultyRetargetInterval

/-- `calculate_median_time_past`. -/
def calculateMedianTimePast (headers : List BlockHeader) (window : Nat) : Nat :=
  if headers = [] then 0
  else
    let recent := (headers.drop (headers.length - window)).map fun header =>
      header.timestamp.toNat
    let recent := recent.insertionSort (· ≤ ·)
    recent.getD (recent.length / 2) 0

/-! ## Validation stages -/

/-- Stage 3, `CheckPoW`. -/
def checkPoW (prim : Primitives) (header : BlockHeader) : Bool × String :=
  if header.powType ≠ powTypeSha256d ∧ header.powType ≠ powTypeGeneralPurpose then
    (false, "Invalid PoW lane type: " ++ toString header.powType)
  else
    match bitsToTarget header.bits.toNat with
    | .error error => (false, "Malformed compact target bits: " ++ error.message)
    | .ok target =>
        if target ≤ 0 then (false, "Target is non-positive")
        else if leValue (header.powHash prim) > target then
          (false, "PoW hash " ++ reversedHex (header.powHash prim) ++
            " exceeds target " ++ hexNat 64 target)
        else (true, "Valid PoW")

/-- Stage 4, `CheckCoinbase`. -/
def checkCoinbase (tx : Transaction) (height powType totalFees : Nat) :
    Bool × String :=
  if !tx.isCoinbase then (false, "Transaction is not a coinbase")
  else
    let expectedSubsidy := getBlockSubsidy height powType
    let maxAllowed := expectedSubsidy + totalFees
    let actualReward := tx.totalOut
    if actualReward > maxAllowed then
      (false, "Coinbase reward " ++ toString actualReward ++
        " exceeds allowed maximum " ++ toString maxAllowed ++ " (subsidy " ++
        toString expectedSubsidy ++ " + fees " ++ toString totalFees ++ ")")
    else (true, "Valid Coinbase")

/-- Stage 6, `CheckTimestamp`. -/
def checkTimestamp (header : BlockHeader) (prevHeaders : List BlockHeader)
    (currentNetworkTime : Int) : Bool × String :=
  let mtp := calculateMedianTimePast prevHeaders mtpWindow
  let latest := currentNetworkTime + futureTimeLimit
  if header.timestamp.toNat ≤ mtp then
    (false, "Block timestamp " ++ toString header.timestamp.toNat ++
      " <= Median-Time-Past " ++ toString mtp)
  else if (header.timestamp.toNat : Int) > latest then
    (false, "Block timestamp " ++ toString header.timestamp.toNat ++
      " exceeds future limit " ++ toString latest)
  else (true, "Valid Timestamp")

/-- A header of which only the time and the bits matter. -/
def timedHeader (timestamp bits : UInt32) : BlockHeader :=
  ⟨1, zeroHash, zeroHash, timestamp, bits, 0⟩

end QuantyCoin
