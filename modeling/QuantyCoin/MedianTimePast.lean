import QuantyCoin.HeaderRules
import QuantyCoin.OrderStatistics

/-!
# Median time past

A header that passes `CheckTimestamp` is later than the median of its last
eleven predecessors.  Taking it into the window, and dropping the oldest
timestamp once the window is full, does not lower the median, in whichever
order the timestamps are.
-/

namespace QuantyCoin

open OrderStatistics

/-- `calculate_median_time_past` is a rolling median of the timestamps. -/
theorem calculateMedianTimePast_eq (headers : List BlockHeader) (window : Nat) :
    calculateMedianTimePast headers window =
      rollingMedian 0 window (headers.map fun header => header.timestamp.toNat) := by
  rw [calculateMedianTimePast]
  split_ifs with empty
  · subst empty
    simp [rollingMedian, upperMedian, lastWindow]
  · simp only [rollingMedian, upperMedian, lastWindow, List.length_map, List.map_drop,
      List.length_insertionSort]

theorem checkTimestamp_eq_true {header : BlockHeader} {prevHeaders : List BlockHeader}
    {currentNetworkTime : Int} :
    (checkTimestamp header prevHeaders currentNetworkTime).1 = true ↔
      calculateMedianTimePast prevHeaders mtpWindow < header.timestamp.toNat ∧
        (header.timestamp.toNat : Int) ≤ currentNetworkTime + futureTimeLimit := by
  rw [checkTimestamp]
  split_ifs with early late
  · simp [Nat.not_lt.mpr early]
  · simp [Int.not_le.mpr late]
  · simp [Nat.not_le.mp early, Int.not_lt.mp late]

/-- Every header behind the first passes `CheckTimestamp` against all its
predecessors, at the network time of its own check. -/
def PassesTimestamps (headers : List BlockHeader) : Prop :=
  ∀ count, 0 < count → ∀ inside : count < headers.length, ∃ currentNetworkTime,
    (checkTimestamp headers[count] (headers.take count) currentNetworkTime).1 = true

theorem PassesTimestamps.risesAbove {headers : List BlockHeader}
    (passes : PassesTimestamps headers) :
    RisesAbove 0 mtpWindow (headers.map fun header => header.timestamp.toNat) := by
  intro count positive inside
  obtain ⟨currentNetworkTime, passed⟩ := passes count positive (by simpa using inside)
  have later := (checkTimestamp_eq_true.mp passed).1
  rw [calculateMedianTimePast_eq, List.map_take] at later
  simpa using later

/-- Along a chain whose headers pass `CheckTimestamp` the median time past never
goes back, also while its window is still growing. -/
theorem medianTimePast_mono {headers : List BlockHeader} (passes : PassesTimestamps headers)
    {shorter longer : Nat} (nonempty : 0 < shorter) (ordered : shorter ≤ longer)
    (within : longer ≤ headers.length) :
    calculateMedianTimePast (headers.take shorter) mtpWindow ≤
      calculateMedianTimePast (headers.take longer) mtpWindow := by
  rw [calculateMedianTimePast_eq, calculateMedianTimePast_eq, List.map_take, List.map_take]
  exact rollingMedian_mono (by decide) passes.risesAbove nonempty ordered (by simpa using within)

/-- Four headers, the last of them older than the one before it. -/
def unorderedTimes : List BlockHeader :=
  [timedHeader 10 0, timedHeader 30 0, timedHeader 40 0, timedHeader 35 0]

/-- The late header does not lower the median. -/
theorem unorderedTimes_median :
    PassesTimestamps unorderedTimes ∧
      calculateMedianTimePast (unorderedTimes.take 3) mtpWindow ≤
        calculateMedianTimePast (unorderedTimes.take 4) mtpWindow := by
  have passes : PassesTimestamps unorderedTimes := by
    intro count positive inside
    have few : count < 4 := inside
    refine ⟨0, ?_⟩
    match count with
    | 1 | 2 | 3 => rfl
  exact ⟨passes, medianTimePast_mono passes (by decide) (by decide) (by decide)⟩

end QuantyCoin
