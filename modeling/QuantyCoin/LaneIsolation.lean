import Mathlib.Data.List.Forall2
import QuantyCoin.LwmaMonotonicity
import QuantyCoin.OrderStatistics

/-!
# The difficulty histories of the lanes

`calculate_next_work_required_dual` filters the headers of one lane and hands
them to the difficulty rule, which reads the bits of the last `n` of them and
the differences between the timestamps of the last `n + 1`.  So two header lists
with the same view of a lane have the same next difficulty on it, and all edits
that leave the view alone leave the difficulty alone.
-/

namespace QuantyCoin

open OrderStatistics

/-- The headers of a lane. -/
def laneHistory (powType : Int) (headers : List BlockHeader) : List BlockHeader :=
  headers.filter fun header => (header.powType : Int) = powType

/-- `calculate_next_work_required_dual` for any lane number, spacing and
window. -/
def calculateNextWorkRequiredDualOf (headers : List BlockHeader)
    (powType targetSpacing : Int) (n : Nat) : Except PyException Nat :=
  let laneHeaders := laneHistory powType headers
  if laneHeaders.length < n + 1 then .ok powLimitBits
  else calculateNextWorkRequiredLwma laneHeaders targetSpacing n

theorem calculateNextWorkRequiredDual_eq (headers : List BlockHeader) (powType : Nat) :
    calculateNextWorkRequiredDual headers powType =
      calculateNextWorkRequiredDualOf headers powType laneTargetSpacing
        difficultyRetargetInterval := by
  rw [calculateNextWorkRequiredDual, calculateNextWorkRequiredDualOf, laneHistory]
  simp only [Int.natCast_inj]

/-! ## What the rule reads -/

/-- The part of a lane's history that the rule reads: nothing until the window
is full, then the bits of its last headers and the times between them. -/
def historyView (n : Nat) (history : List BlockHeader) : Option (List UInt32 × List Int) :=
  if history.length < n + 1 then none
  else some ((lastWindow n history).map BlockHeader.bits, solvetimes (lastWindow (n + 1) history))

theorem historyView_eq_none {n : Nat} {history : List BlockHeader} :
    historyView n history = none ↔ history.length < n + 1 := by
  rw [historyView]
  split_ifs with short
  · simp [short]
  · simp [short]

/-- The loop reads bits and time differences only. -/
theorem lwmaLoop_congr {targetSpacing : Int} {index : Nat} {previous previous' : BlockHeader}
    {rest rest' : List BlockHeader} {sums : Nat × Int × Nat}
    (bits : rest.map BlockHeader.bits = rest'.map BlockHeader.bits)
    (times : solvetimes (previous :: rest) = solvetimes (previous' :: rest')) :
    lwmaLoop targetSpacing index previous rest sums =
      lwmaLoop targetSpacing index previous' rest' sums := by
  induction rest generalizing index previous previous' rest' sums with
  | nil =>
      rw [List.map_eq_nil_iff.mp bits.symm]
      rfl
  | cons header rest ih =>
      cases rest' with
      | nil => simp at bits
      | cons header' rest' =>
          obtain ⟨sumTargets, t, weight⟩ := sums
          obtain ⟨headBits, restBits⟩ := List.cons.inj bits
          obtain ⟨headTime, restTimes⟩ := List.cons.inj times
          simp only [lwmaLoop, headBits, headTime]
          cases bitsToTarget header'.bits.toNat with
          | error error => rfl
          | ok target => exact ih restBits restTimes

theorem calculateNextWorkRequiredLwma_congr {history history' : List BlockHeader}
    {targetSpacing : Int} {n : Nat} (same : historyView n history = historyView n history') :
    calculateNextWorkRequiredLwma history targetSpacing n =
      calculateNextWorkRequiredLwma history' targetSpacing n := by
  have full : history.length < n + 1 ↔ history'.length < n + 1 := by
    rw [← historyView_eq_none, same, historyView_eq_none]
  rw [calculateNextWorkRequiredLwma, calculateNextWorkRequiredLwma]
  by_cases short : history.length < n + 1
  · rw [if_pos short, if_pos (full.mp short)]
  · have short' : ¬ history'.length < n + 1 := fun is => short (full.mpr is)
    obtain ⟨first, recent, window, last, -, -⟩ := exists_window (Nat.not_lt.mp short)
    obtain ⟨first', recent', window', last', -, -⟩ := exists_window (Nat.not_lt.mp short')
    rw [historyView, historyView, if_neg short, if_neg short', lastWindow, lastWindow, lastWindow,
      lastWindow, window, last, window', last', Option.some.injEq, Prod.mk.injEq] at same
    rw [if_neg short, if_neg short', window, window']
    simp only [lwmaLoop_congr same.1 same.2]

/-- The part of all headers that the next difficulty of a lane depends on. -/
def laneView (powType : Int) (n : Nat) (headers : List BlockHeader) :
    Option (List UInt32 × List Int) :=
  historyView n (laneHistory powType headers)

theorem calculateNextWorkRequiredDualOf_congr {headers headers' : List BlockHeader}
    {powType targetSpacing : Int} {n : Nat}
    (same : laneView powType n headers = laneView powType n headers') :
    calculateNextWorkRequiredDualOf headers powType targetSpacing n =
      calculateNextWorkRequiredDualOf headers' powType targetSpacing n := by
  rw [laneView, laneView] at same
  have full : (laneHistory powType headers).length < n + 1 ↔
      (laneHistory powType headers').length < n + 1 := by
    rw [← historyView_eq_none, same, historyView_eq_none]
  rw [calculateNextWorkRequiredDualOf, calculateNextWorkRequiredDualOf]
  simp only [full, calculateNextWorkRequiredLwma_congr same]

/-! ## Edits outside the view -/

/-- A header with its timestamp moved, if it is of the lane. -/
def ShiftedBy (powType constant : Int) (header header' : BlockHeader) : Prop :=
  if (header.powType : Int) = powType then
    ∃ timestamp : UInt32, header' = { header with timestamp := timestamp } ∧
      (timestamp.toNat : Int) = header.timestamp.toNat + constant
  else header' = header

/-- An edit of a header list that concerns a lane at most in what lies before its
last `n + 1` headers, or in a shift of all its timestamps. -/
inductive LaneEdit (powType : Int) (n : Nat) : List BlockHeader → List BlockHeader → Prop
  | insert (before after : List BlockHeader) {other : BlockHeader}
      (outside : (other.powType : Int) ≠ powType) :
      LaneEdit powType n (before ++ after) (before ++ other :: after)
  | delete (before after : List BlockHeader) {other : BlockHeader}
      (outside : (other.powType : Int) ≠ powType) :
      LaneEdit powType n (before ++ other :: after) (before ++ after)
  | alter (before after : List BlockHeader) {other other' : BlockHeader}
      (outside : (other.powType : Int) ≠ powType)
      (outside' : (other'.powType : Int) ≠ powType) :
      LaneEdit powType n (before ++ other :: after) (before ++ other' :: after)
  | swap (before after : List BlockHeader) {first second : BlockHeader}
      (outside : (first.powType : Int) ≠ powType ∨ (second.powType : Int) ≠ powType) :
      LaneEdit powType n (before ++ first :: second :: after)
        (before ++ second :: first :: after)
  | earlier (before before' recent : List BlockHeader)
      (enough : n + 1 ≤ (laneHistory powType recent).length) :
      LaneEdit powType n (before ++ recent) (before' ++ recent)
  | shift (constant : Int) {headers headers' : List BlockHeader}
      (shifted : List.Forall₂ (ShiftedBy powType constant) headers headers') :
      LaneEdit powType n headers headers'

section Edits

variable {powType constant : Int} {n : Nat} {headers headers' before after recent : List BlockHeader}
  {header other : BlockHeader}

theorem laneHistory_append : laneHistory powType (before ++ after) =
    laneHistory powType before ++ laneHistory powType after :=
  List.filter_append _ _

theorem laneHistory_cons_of_ne (outside : (other.powType : Int) ≠ powType) :
    laneHistory powType (other :: after) = laneHistory powType after :=
  List.filter_cons_of_neg (by simpa using outside)

/-- A full window does not see what lies before it. -/
theorem historyView_append {history : List BlockHeader} (enough : n + 1 ≤ recent.length) :
    historyView n (history ++ recent) = historyView n recent := by
  have full : ¬ (history ++ recent).length < n + 1 := by
    rw [List.length_append]
    omega
  rw [historyView, historyView, if_neg full, if_neg (by omega),
    lastWindow_append_of_le (by omega), lastWindow_append_of_le enough]

/-- Headers of equal bits whose timestamps differ by a constant. -/
def MovedBy (constant : Int) (header header' : BlockHeader) : Prop :=
  header.bits = header'.bits ∧
    (header'.timestamp.toNat : Int) = header.timestamp.toNat + constant

theorem laneHistory_shifted
    (shifted : List.Forall₂ (ShiftedBy powType constant) headers headers') :
    List.Forall₂ (MovedBy constant) (laneHistory powType headers)
      (laneHistory powType headers') := by
  induction shifted with
  | nil => exact .nil
  | @cons header header' _ _ moved _ ih =>
      by_cases inside : (header.powType : Int) = powType
      · rw [ShiftedBy, if_pos inside] at moved
        obtain ⟨timestamp, rfl, later⟩ := moved
        have inside' : (({ header with timestamp := timestamp } : BlockHeader).powType : Int) =
            powType := inside
        rw [laneHistory, laneHistory, List.filter_cons_of_pos (by simpa using inside),
          List.filter_cons_of_pos (by simpa using inside')]
        exact .cons ⟨rfl, later⟩ ih
      · rw [ShiftedBy, if_neg inside] at moved
        subst moved
        rwa [laneHistory_cons_of_ne inside, laneHistory_cons_of_ne inside]

theorem solvetimes_moved (moved : List.Forall₂ (MovedBy constant) headers headers') :
    solvetimes headers = solvetimes headers' := by
  induction moved with
  | nil => rfl
  | cons head rest ih =>
      cases rest with
      | nil => rfl
      | cons next _ =>
          rw [solvetimes, solvetimes, ih, head.2, next.2]
          congr 1
          omega

theorem historyView_moved (moved : List.Forall₂ (MovedBy constant) headers headers') :
    historyView n headers = historyView n headers' := by
  have bits (window : Nat) : (lastWindow window headers).map BlockHeader.bits =
      (lastWindow window headers').map BlockHeader.bits := by
    rw [lastWindow, lastWindow, ← moved.length_eq, ← List.forall₂_eq_eq_eq,
      List.forall₂_map_left_iff, List.forall₂_map_right_iff]
    exact (List.forall₂_drop _ moved).imp fun _ _ pair => pair.1
  have times (window : Nat) : solvetimes (lastWindow window headers) =
      solvetimes (lastWindow window headers') := by
    rw [lastWindow, lastWindow, ← moved.length_eq]
    exact solvetimes_moved (List.forall₂_drop _ moved)
  rw [historyView, historyView, moved.length_eq, bits, times]

/-- No edit changes the view of the lane. -/
theorem LaneEdit.laneView_eq (edit : LaneEdit powType n headers headers') :
    laneView powType n headers = laneView powType n headers' := by
  rw [laneView, laneView]
  cases edit with
  | insert before after outside =>
      rw [laneHistory_append, laneHistory_append, laneHistory_cons_of_ne outside]
  | delete before after outside =>
      rw [laneHistory_append, laneHistory_append, laneHistory_cons_of_ne outside]
  | alter before after outside outside' =>
      rw [laneHistory_append, laneHistory_append, laneHistory_cons_of_ne outside,
        laneHistory_cons_of_ne outside']
  | @swap before after first second outside =>
      have swapped : laneHistory powType (first :: second :: after) =
          laneHistory powType (second :: first :: after) := by
        rw [laneHistory, laneHistory]
        rcases outside with foreign | foreign
        · simp [List.filter_cons, foreign]
        · simp [List.filter_cons, foreign]
      rw [laneHistory_append, laneHistory_append, swapped]
  | earlier before before' recent enough =>
      rw [laneHistory_append, laneHistory_append, historyView_append enough,
        historyView_append enough]
  | shift constant shifted => exact historyView_moved (laneHistory_shifted shifted)

end Edits

/-- The lanes do not influence each other.  The next difficulty of a lane depends
only on the lane's view of the headers, so no sequence of edits of other lanes,
of edits before the last headers of the lane and of shifts of its timestamps
changes it. -/
theorem lanes_isolated (powType targetSpacing : Int) (n : Nat) :
    (∀ headers headers', laneView powType n headers = laneView powType n headers' →
      calculateNextWorkRequiredDualOf headers powType targetSpacing n =
        calculateNextWorkRequiredDualOf headers' powType targetSpacing n) ∧
    ∀ headers headers', Relation.ReflTransGen (LaneEdit powType n) headers headers' →
      calculateNextWorkRequiredDualOf headers powType targetSpacing n =
        calculateNextWorkRequiredDualOf headers' powType targetSpacing n := by
  refine ⟨fun _ _ => calculateNextWorkRequiredDualOf_congr, ?_⟩
  intro headers headers' edits
  induction edits with
  | refl => rfl
  | tail _ edit ih => exact ih.trans (calculateNextWorkRequiredDualOf_congr edit.laneView_eq)

/-- A block of the other lane does not count on this one. -/
theorem lateWindow_isolated :
    calculateNextWorkRequiredDualOf lateWindow 0 60 2 =
      calculateNextWorkRequiredDualOf
        ({ timedHeader 5000 0x1c00ffff with version := 0x10001 } :: lateWindow) 0 60 2 :=
  (lanes_isolated 0 60 2).2 _ _ (.single (.insert [] lateWindow (by decide)))

end QuantyCoin
