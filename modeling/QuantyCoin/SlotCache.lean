import Mathlib.Logic.Function.Basic
import Mathlib.Tactic.Common

/-!
# Caches with one entry for each slot

Every request belongs to a slot and has a key.  A slot remembers the value that was
computed last, with its key, and gives it to requests with the same key.  Nothing but
the time tells such a cache from the computation if the value depends on the request
only through its slot and its key.  A computation can fail, and then nothing is stored.
-/

namespace SlotCache

variable {Request Slot Key Value : Type*} [DecidableEq Key]

/-- The entry of each slot. -/
abbrev Cache (Slot Key Value : Type*) := Slot → Option (Key × Value)

/-- No entries. -/
def empty : Cache Slot Key Value := fun _ => none

/-- The value in a slot, if it was stored with the key. -/
def load (cache : Cache Slot Key Value) (slot : Slot) (key : Key) : Option Value :=
  match cache slot with
  | none => none
  | some (stored, value) => if stored = key then some value else none

/-- Replace the entry of a slot. -/
def store [DecidableEq Slot] (cache : Cache Slot Key Value) (slot : Slot) (key : Key) (value : Value) :
    Cache Slot Key Value :=
  Function.update cache slot (some (key, value))

/-- What is loaded for a request is its value. -/
def Sound (slot : Request → Slot) (key : Request → Key) (compute : Request → Option Value)
    (cache : Cache Slot Key Value) : Prop :=
  ∀ request value, load cache (slot request) (key request) = some value →
    compute request = some value

/-- Requests with the same slot and the same key have the same value. -/
def Determined (slot : Request → Slot) (key : Request → Key)
    (compute : Request → Option Value) : Prop :=
  ∀ first second, slot first = slot second → key first = key second →
    compute first = compute second

section

variable {slot : Request → Slot} {key : Request → Key} {compute : Request → Option Value}
  {cache : Cache Slot Key Value}

theorem sound_empty : Sound slot key compute (empty : Cache Slot Key Value) := by
  intro request value loaded
  cases loaded

/-- Storing the value of a request keeps a cache sound. -/
theorem Sound.store [DecidableEq Slot] (determined : Determined slot key compute)
    (sound : Sound slot key compute cache) {request : Request} {value : Value}
    (computed : compute request = some value) :
    Sound slot key compute (store cache (slot request) (key request) value) := by
  intro other found loaded
  by_cases same : slot other = slot request
  · rw [load, same, SlotCache.store, Function.update_self] at loaded
    simp only at loaded
    split_ifs at loaded with sameKey
    cases loaded
    rw [determined other request same sameKey.symm, computed]
  · rw [load, SlotCache.store, Function.update_of_ne same] at loaded
    exact sound other found loaded

end

end SlotCache
