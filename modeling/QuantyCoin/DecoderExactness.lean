import QuantyCoin.ByteDecoder

/-!
# Exact and canonical reading

A slice past the end of the data is short, and a decoder that moves on after it
does not notice.  `Tightens least lax strict` compares such a decoder with one
that refuses short slices: whenever the first stops inside the data, the second
reads the same value from any data with the same bytes up to that point.  The
relation composes like the decoders do, so the agreement of two nested formats
is assembled from their fields, together with a lower bound on the bytes used.

`EncodedBy lax canonical front encode` compares a decoder with one that refuses
redundant forms.  Behind a front that has been accounted for, the bytes a value
is written as are never longer than those it was read from; they have the same
length exactly when the canonical decoder accepts, and then they are the same.
-/

namespace ByteDecoder

/-! ## Windows of the data -/

/-- What lies in front of a position is the same in data that agree up to
there. -/
theorem window_congr {data data' : Bytes} {offset count stop : Nat}
    (same : data'.take stop = data.take stop) (inside : offset + count ≤ stop) :
    (data'.drop offset).take count = (data.drop offset).take count := by
  have window : ∀ bytes : Bytes,
      (bytes.drop offset).take count = ((bytes.take stop).drop offset).take count := by
    intro bytes
    rw [List.drop_take, List.take_take, Nat.min_eq_left (by omega)]
  rw [window data', window data, same]

theorem take_congr {data data' : Bytes} {stop stop' : Nat}
    (same : data'.take stop = data.take stop) (earlier : stop' ≤ stop) :
    data'.take stop' = data.take stop' := by
  have window := @window_congr data data' 0 stop' stop same (by omega)
  simpa using window

/-- The bytes between two positions. -/
def window (data : Bytes) (start stop : Nat) : Bytes :=
  (data.drop start).take (stop - start)

theorem window_length {data : Bytes} {start stop : Nat} (inside : stop ≤ data.length) :
    (window data start stop).length = stop - start := by
  rw [window, List.length_take, List.length_drop]
  omega

/-- Adjacent windows form one. -/
theorem window_append {data : Bytes} {start middle stop : Nat}
    (first : start ≤ middle) (second : middle ≤ stop) :
    window data start stop = window data start middle ++ window data middle stop := by
  have split : stop - start = (middle - start) + (stop - middle) := by omega
  have start_add : start + (middle - start) = middle := by omega
  rw [window, window, window, split, List.take_add, List.drop_drop, start_add]

theorem leBytes_leValue (bytes : Bytes) : leBytes bytes.length (leValue bytes) = bytes := by
  induction bytes with
  | nil => rfl
  | cons byte bytes ih =>
      have small := byte.toNat_lt
      have quotient : (byte.toNat + 256 * leValue bytes) / 256 = leValue bytes := by omega
      have low : UInt8.ofNat (byte.toNat + 256 * leValue bytes) = byte := by
        apply UInt8.toNat_inj.mp
        rw [UInt8.toNat_ofNat']
        omega
      rw [leValue, List.length_cons, leBytes, quotient, ih, low]

namespace Decoder

variable {ε α β γ : Type}

theorem fixed_lt {width : Nat} {short : ε} {data : Bytes} {offset value next : Nat}
    (read : fixed width short data offset = .ok (value, next)) : value < 256 ^ width := by
  obtain ⟨width_eq, rfl, -⟩ := fixed_eq_ok.mp read
  have bound := leValue_lt ((data.drop offset).take width)
  rwa [width_eq] at bound

/-! ## Reading without shortened slices -/

/-- A slice that must lie inside the data. -/
def exactSlice (short : ε) (count : Nat) : Decoder ε Bytes := fun data offset =>
  if offset + count ≤ data.length then .ok ((data.drop offset).take count, offset + count)
  else .error short

/-- The strict decoder reads what the other one does, as long as that stays
inside the data, and from every string with the same beginning; the other one
moves by at least the given number of bytes. -/
structure Tightens (least : Nat) (lax strict : Decoder ε α) : Prop where
  loosens : ∀ {data offset result},
    strict data offset = .ok result → lax data offset = .ok result
  consumes : ∀ {data offset value next},
    lax data offset = .ok (value, next) → offset + least ≤ next
  exact : ∀ {data offset value next}, lax data offset = .ok (value, next) →
    next ≤ data.length → ∀ data', data'.take next = data.take next →
      strict data' offset = .ok (value, next)

namespace Tightens

theorem pure (value : α) : Tightens 0 (Pure.pure value : Decoder ε α) (Pure.pure value) := by
  refine ⟨id, ?_, ?_⟩
  · intro data offset value' next read
    cases read
    exact le_rfl
  · intro data offset value' next read _ data' _
    cases read
    rfl

theorem weaken {least least' : Nat} {lax strict : Decoder ε α}
    (tightens : Tightens least lax strict) (fewer : least' ≤ least) :
    Tightens least' lax strict :=
  ⟨tightens.loosens, fun read => (Nat.add_le_add_left fewer _).trans (tightens.consumes read),
    tightens.exact⟩

theorem bind {least least' : Nat} {lax strict : Decoder ε α}
    {next strictNext : α → Decoder ε β} (head : Tightens least lax strict)
    (tail : ∀ value, Tightens least' (next value) (strictNext value)) :
    Tightens (least + least') (lax >>= next) (strict >>= strictNext) := by
  refine ⟨?_, ?_, ?_⟩
  · intro data offset result read
    obtain ⟨value, middle, first, second⟩ := bind_eq_ok.mp read
    exact bind_eq_ok.mpr ⟨value, middle, head.loosens first, (tail value).loosens second⟩
  · intro data offset result stop read
    obtain ⟨value, middle, first, second⟩ := bind_eq_ok.mp read
    have headMoves := head.consumes first
    have tailMoves := (tail value).consumes second
    omega
  · intro data offset result stop read inside data' same
    obtain ⟨value, middle, first, second⟩ := bind_eq_ok.mp read
    have earlier : middle ≤ stop := (Nat.le_add_right _ _).trans ((tail value).consumes second)
    exact bind_eq_ok.mpr ⟨value, middle,
      head.exact first (earlier.trans inside) data' (take_congr same earlier),
      (tail value).exact second inside data' same⟩

/-- A last step that reads nothing. -/
theorem bind_pure {least : Nat} {lax strict : Decoder ε α}
    {next strictNext : α → Decoder ε β} (head : Tightens least lax strict)
    (tail : ∀ value, Tightens 0 (next value) (strictNext value)) :
    Tightens least (lax >>= next) (strict >>= strictNext) :=
  head.bind tail

/-- Looking ahead at no more than what is read next. -/
theorem peek_bind {least count : Nat} {next strictNext : Bytes → Decoder ε β}
    (ahead : count ≤ least)
    (tail : ∀ bytes, Tightens least (next bytes) (strictNext bytes)) :
    Tightens least (peek count >>= next) (peek count >>= strictNext) := by
  refine ⟨(tail _).loosens, (tail _).consumes, ?_⟩
  intro data offset result stop read inside data' same
  have moved : offset + least ≤ stop := (tail _).consumes read
  have seen := @window_congr data data' offset count stop same (by omega)
  have strictRead := (tail _).exact read inside data' same
  rw [← seen] at strictRead
  exact strictRead

theorem slice (short : ε) (count : Nat) :
    Tightens count (slice count) (exactSlice short count) := by
  refine ⟨?_, ?_, ?_⟩
  · intro data offset result read
    rw [exactSlice] at read
    split_ifs at read
    exact read
  · intro data offset value next read
    cases read
    exact le_rfl
  · intro data offset value next read inside data' same
    cases read
    have lengths := congrArg List.length same
    simp only [List.length_take] at lengths
    rw [exactSlice, if_pos (by omega), @window_congr data data' offset count _ same le_rfl]

theorem fixed (width : Nat) (short : ε) :
    Tightens width (fixed width short) (fixed width short) := by
  refine ⟨id, ?_, ?_⟩
  · intro data offset value next read
    rw [(fixed_eq_ok.mp read).2.2]
  · intro data offset value next read inside data' same
    obtain ⟨width_eq, value_eq, rfl⟩ := fixed_eq_ok.mp read
    have seen := @window_congr data data' offset width _ same le_rfl
    exact fixed_eq_ok.mpr ⟨by rw [seen, width_eq], by rw [seen, value_eq], rfl⟩

theorem lift (result : Except ε α) : Tightens 0 (lift result) (lift result) := by
  refine ⟨id, ?_, ?_⟩
  · intro data offset value next read
    rw [(lift_eq_ok.mp read).2]
    exact le_rfl
  · intro data offset value next read _ data' _
    exact lift_eq_ok.mpr (lift_eq_ok.mp read)

theorem times {least : Nat} {lax strict : Decoder ε α}
    (item : Tightens least lax strict) (count : Nat) :
    Tightens 0 (times lax count) (times strict count) := by
  induction count with
  | zero => exact pure []
  | succ count ih =>
      exact (item.weaken (Nat.zero_le _)).bind fun value => ih.bind fun values =>
        pure (value :: values)

theorem each {least : Nat} {lax strict : α → Decoder ε β}
    (item : ∀ input, Tightens least (lax input) (strict input)) (inputs : List α) :
    Tightens 0 (each lax inputs) (each strict inputs) := by
  induction inputs with
  | nil => exact pure []
  | cons input inputs ih =>
      exact ((item input).weaken (Nat.zero_le _)).bind fun value => ih.bind fun values =>
        pure (value :: values)

/-- A decoder run on the rest of the data, given what it does there. -/
theorem onRest {least : Nat} {decode strictDecode : Bytes → Except ε (α × Nat)}
    (loosens : ∀ data result, strictDecode data = .ok result → decode data = .ok result)
    (consumes : ∀ data value used, decode data = .ok (value, used) → least ≤ used)
    (exact : ∀ data value used, decode data = .ok (value, used) → used ≤ data.length →
      ∀ data', data'.take used = data.take used → strictDecode data' = .ok (value, used)) :
    Tightens least (onRest decode) (onRest strictDecode) := by
  refine ⟨?_, ?_, ?_⟩
  · intro data offset ⟨value, next⟩ read
    obtain ⟨used, decoded, rfl⟩ := onRest_eq_ok.mp read
    exact onRest_eq_ok.mpr ⟨used, loosens _ _ decoded, rfl⟩
  · intro data offset value next read
    obtain ⟨used, decoded, rfl⟩ := onRest_eq_ok.mp read
    exact Nat.add_le_add_left (consumes _ _ _ decoded) _
  · intro data offset value next read inside data' same
    obtain ⟨used, decoded, rfl⟩ := onRest_eq_ok.mp read
    refine onRest_eq_ok.mpr ⟨used, exact _ _ _ decoded ?_ _ (window_congr same le_rfl), rfl⟩
    rw [List.length_drop]
    omega

end Tightens

/-- The decoder stops inside the data. -/
def StopsInside (decoder : Decoder ε α) : Prop :=
  ∀ data offset value next, decoder data offset = .ok (value, next) → next ≤ data.length

/-- A sequence stops where its last part does. -/
theorem StopsInside.bind {decoder : Decoder ε α} {next : α → Decoder ε β}
    (tail : ∀ value, StopsInside (next value)) : StopsInside (decoder >>= next) := by
  intro data offset result stop read
  obtain ⟨value, middle, -, second⟩ := bind_eq_ok.mp read
  exact tail value _ _ _ _ second

theorem StopsInside.bind_pure {decoder : Decoder ε α} (head : StopsInside decoder)
    (made : α → β) : StopsInside (decoder >>= fun value => pure (made value)) := by
  intro data offset result stop read
  obtain ⟨value, middle, first, second⟩ := bind_eq_ok.mp read
  cases second
  exact head _ _ _ _ first

theorem StopsInside.fixed {width : Nat} (positive : 0 < width) (short : ε) :
    StopsInside (fixed width short) := by
  intro data offset value next read
  obtain ⟨exact, -, rfl⟩ := fixed_eq_ok.mp read
  rw [List.length_take, List.length_drop] at exact
  omega

theorem StopsInside.onRest {decode : Bytes → Except ε (α × Nat)}
    (used : ∀ data value used, decode data = .ok (value, used) →
      0 < used ∧ used ≤ data.length) : StopsInside (onRest decode) := by
  intro data offset value next read
  obtain ⟨count, decoded, rfl⟩ := onRest_eq_ok.mp read
  obtain ⟨positive, inside⟩ := used _ _ _ decoded
  rw [List.length_drop] at inside
  omega

/-- A repetition that starts inside the data stays there. -/
theorem StopsInside.times {decoder : Decoder ε α} (item : StopsInside decoder)
    {count offset next : Nat} {data : Bytes} {values : List α} (inside : offset ≤ data.length)
    (read : times decoder count data offset = .ok (values, next)) : next ≤ data.length := by
  induction count generalizing offset values with
  | zero =>
      cases read
      exact inside
  | succ count ih =>
      simp only [Decoder.times, bind_eq_ok, pure_apply, Except.ok.injEq,
        Prod.mk.injEq] at read
      obtain ⟨value, middle, headRead, others, last, tailRead, -, rfl⟩ := read
      exact ih (item _ _ _ _ headRead) tailRead

/-- A decoder that never stops outside the data reads nothing from a proper
part of what it needs. -/
theorem Tightens.error_of_shorter {least : Nat} {lax strict : Decoder ε α}
    (tightens : Tightens least lax strict) (stops : StopsInside lax) {data : Bytes}
    {offset stop next : Nat} {value : α} (read : lax data offset = .ok (value, next))
    (shorter : stop < next) : ∃ error, lax (data.take stop) offset = .error error := by
  cases again : lax (data.take stop) offset with
  | error error => exact ⟨error, rfl⟩
  | ok result =>
      obtain ⟨value', next'⟩ := result
      have inside := stops _ _ _ _ again
      have early : next' ≤ stop := by
        rw [List.length_take] at inside
        omega
      have same : data.take next' = (data.take stop).take next' := by
        rw [List.take_take, Nat.min_eq_left early]
      have whole := tightens.loosens (tightens.exact again inside data same)
      rw [read] at whole
      cases whole
      omega

/-! ## Iterations -/

/-- How many times the body of a counted loop is entered. -/
def iterations (decoder : Decoder ε α) : Nat → Bytes → Nat → Nat
  | 0, _, _ => 0
  | count + 1, data, offset =>
      match decoder data offset with
      | .error _ => 1
      | .ok (_, next) => iterations decoder count data next + 1

/-- How many times the body of a loop over a list is entered. -/
def iterationsOver (decoder : α → Decoder ε β) : List α → Bytes → Nat → Nat
  | [], _, _ => 0
  | input :: inputs, data, offset =>
      match decoder input data offset with
      | .error _ => 1
      | .ok (_, next) => iterationsOver decoder inputs data next + 1

/-- A step that returns started inside the data and moved on. -/
def Advances (decoder : Decoder ε α) : Prop :=
  ∀ data offset value next, decoder data offset = .ok (value, next) →
    offset < data.length ∧ offset < next

theorem Advances.fixed {width : Nat} (positive : 0 < width) (short : ε) :
    Advances (fixed width short) := by
  intro data offset value next read
  obtain ⟨exact, -, rfl⟩ := fixed_eq_ok.mp read
  rw [List.length_take, List.length_drop] at exact
  omega

theorem Advances.onRest {decode : Bytes → Except ε (α × Nat)}
    (used : ∀ data value used, decode data = .ok (value, used) →
      0 < used ∧ used ≤ data.length) : Advances (onRest decode) := by
  intro data offset value next read
  obtain ⟨count, decoded, rfl⟩ := onRest_eq_ok.mp read
  obtain ⟨positive, inside⟩ := used _ _ _ decoded
  rw [List.length_drop] at inside
  omega

/-- A sequence advances if its first part does and the second does not go
back. -/
theorem Advances.bind {decoder : Decoder ε α} {next : α → Decoder ε β}
    (head : Advances decoder)
    (tail : ∀ value data offset result stop,
      next value data offset = .ok (result, stop) → offset ≤ stop) :
    Advances (decoder >>= next) := by
  intro data offset result stop read
  obtain ⟨value, middle, first, second⟩ := bind_eq_ok.mp read
  obtain ⟨inside, moved⟩ := head _ _ _ _ first
  exact ⟨inside, moved.trans_le (tail _ _ _ _ _ second)⟩

theorem iterations_le {decoder : Decoder ε α} (advances : Advances decoder)
    (count : Nat) (data : Bytes) (offset : Nat) :
    iterations decoder count data offset ≤ data.length - offset + 1 := by
  induction count generalizing offset with
  | zero => exact Nat.zero_le _
  | succ count ih =>
      rw [iterations]
      cases read : decoder data offset with
      | error error => simp
      | ok result =>
          obtain ⟨value, next⟩ := result
          obtain ⟨inside, moved⟩ := advances _ _ _ _ read
          have rest := ih next
          simp only
          omega

theorem iterationsOver_le {decoder : α → Decoder ε β}
    (advances : ∀ input, Advances (decoder input))
    (inputs : List α) (data : Bytes) (offset : Nat) :
    iterationsOver decoder inputs data offset ≤ data.length - offset + 1 := by
  induction inputs generalizing offset with
  | nil => exact Nat.zero_le _
  | cons input inputs ih =>
      rw [iterationsOver]
      cases read : decoder input data offset with
      | error error => simp
      | ok result =>
          obtain ⟨value, next⟩ := result
          obtain ⟨inside, moved⟩ := advances input _ _ _ _ read
          have rest := ih next
          simp only
          omega

/-! ## Canonical forms -/

/-- Bytes that must stand at the offset. -/
def literal (mismatch : ε) (bytes : Bytes) : Decoder ε Bytes := fun data offset =>
  if (data.drop offset).take bytes.length = bytes then .ok (bytes, offset + bytes.length)
  else .error mismatch

/-- The decoder returns this value somewhere. -/
def Produces (decoder : Decoder ε α) (value : α) : Prop :=
  ∃ data offset next, decoder data offset = .ok (value, next)

/-- Behind a front, a value is encoded in no more bytes than it was read from;
in as many exactly if the canonical decoder accepts, and then in the same. -/
structure EncodedBy (lax canonical : Decoder ε α) (front : Bytes) (encode : α → Bytes) :
    Prop where
  loosens : ∀ {data offset result},
    canonical data offset = .ok result → lax data offset = .ok result
  advances : ∀ {data offset value next},
    lax data offset = .ok (value, next) → offset ≤ next
  compare : ∀ {data offset value next}, lax data offset = .ok (value, next) →
    next ≤ data.length → ∃ bytes, front ++ bytes = encode value ∧
      offset + bytes.length ≤ next ∧
      (offset + bytes.length = next → canonical data offset = .ok (value, next)) ∧
      (canonical data offset = .ok (value, next) → window data offset next = bytes)

namespace EncodedBy

variable {lax canonical : Decoder ε α} {front : Bytes}

/-- A decoder without redundant forms. -/
theorem of_window {encode : α → Bytes}
    (read : ∀ data offset value next, lax data offset = .ok (value, next) → offset ≤ next ∧
      (next ≤ data.length → front ++ window data offset next = encode value)) :
    EncodedBy lax lax front encode := by
  refine ⟨id, fun found => (read _ _ _ _ found).1, ?_⟩
  intro data offset value next found inside
  obtain ⟨forward, written⟩ := read _ _ _ _ found
  refine ⟨_, written inside, ?_, fun _ => found, fun _ => rfl⟩
  rw [window_length inside]
  omega

theorem pure {encode : α → Bytes} {value : α} (whole : front = encode value) :
    EncodedBy (Pure.pure value : Decoder ε α) (Pure.pure value) front encode := by
  apply of_window
  intro data offset value' next read
  cases read
  simp [window, whole]

theorem lift {encode : α → Bytes} {result : Except ε α}
    (whole : ∀ value, result = .ok value → front = encode value) :
    EncodedBy (Decoder.lift result) (Decoder.lift result) front encode := by
  apply of_window
  intro data offset value next read
  obtain ⟨made, rfl⟩ := lift_eq_ok.mp read
  simp [window, whole value made]

theorem fixed (width : Nat) (short : ε) :
    EncodedBy (Decoder.fixed width short) (Decoder.fixed width short) [] (leBytes width) := by
  apply of_window
  intro data offset value next read
  obtain ⟨width_eq, rfl, rfl⟩ := fixed_eq_ok.mp read
  refine ⟨Nat.le_add_right _ _, fun _ => ?_⟩
  have back := leBytes_leValue ((data.drop offset).take width)
  rw [width_eq] at back
  rw [List.nil_append, window, Nat.add_sub_cancel_left, back]

theorem literal (mismatch : ε) (bytes : Bytes) :
    EncodedBy (literal mismatch bytes) (Decoder.literal mismatch bytes) []
      (fun _ => bytes) := by
  apply of_window
  intro data offset value next read
  rw [Decoder.literal] at read
  split_ifs at read with found
  cases read
  exact ⟨Nat.le_add_right _ _, fun _ => by
    rw [List.nil_append, window, Nat.add_sub_cancel_left, found]⟩

/-- A slice of known length. -/
theorem slice {count : Nat} {encode : Bytes → Bytes}
    (whole : ∀ bytes : Bytes, bytes.length = count → front ++ bytes = encode bytes) :
    EncodedBy (slice count : Decoder ε Bytes) (Decoder.slice count) front encode := by
  apply of_window
  intro data offset value next read
  cases read
  refine ⟨Nat.le_add_right _ _, fun inside => ?_⟩
  have length := @window_length data offset _ inside
  rw [window, Nat.add_sub_cancel_left] at length ⊢
  exact whole _ length

theorem bind {next canonicalNext : α → Decoder ε β} {first : α → Bytes}
    {encode : β → Bytes} (head : EncodedBy lax canonical [] first)
    (tail : ∀ value, Produces lax value →
      EncodedBy (next value) (canonicalNext value) (front ++ first value) encode) :
    EncodedBy (lax >>= next) (canonical >>= canonicalNext) front encode := by
  refine ⟨?_, ?_, ?_⟩
  · intro data offset result read
    obtain ⟨value, middle, one, two⟩ := bind_eq_ok.mp read
    have headRead := head.loosens one
    exact bind_eq_ok.mpr ⟨value, middle, headRead,
      (tail value ⟨_, _, _, headRead⟩).loosens two⟩
  · intro data offset result stop read
    obtain ⟨value, middle, one, two⟩ := bind_eq_ok.mp read
    exact (head.advances one).trans ((tail value ⟨_, _, _, one⟩).advances two)
  · intro data offset result stop read inside
    obtain ⟨value, middle, one, two⟩ := bind_eq_ok.mp read
    have forward := head.advances one
    have onward := (tail value ⟨_, _, _, one⟩).advances two
    obtain ⟨bytes, rfl, shorter, accepts, equal⟩ := head.compare one (onward.trans inside)
    obtain ⟨bytes', written, shorter', accepts', equal'⟩ :=
      (tail value ⟨_, _, _, one⟩).compare two inside
    refine ⟨first value ++ bytes', by rw [← written, List.append_assoc], ?_, ?_, ?_⟩
    · rw [List.length_append]
      omega
    · intro tight
      rw [List.length_append] at tight
      exact bind_eq_ok.mpr ⟨value, middle, accepts (by omega), accepts' (by omega)⟩
    · intro accepted
      obtain ⟨value', middle', one', two'⟩ := bind_eq_ok.mp accepted
      have same := head.loosens one'
      rw [one] at same
      cases same
      rw [window_append forward onward, equal one', equal' two']

theorem times {encode : α → Bytes} (item : EncodedBy lax canonical [] encode)
    (count : Nat) :
    EncodedBy (times lax count) (Decoder.times canonical count) [] (List.flatMap encode) := by
  induction count with
  | zero => exact pure rfl
  | succ count ih =>
      refine item.bind fun value _ => ih.bind fun values _ => pure ?_
      simp

theorem each {lax canonical : α → Decoder ε β} {encode : β → Bytes}
    (item : ∀ input, EncodedBy (lax input) (canonical input) [] encode) (inputs : List α) :
    EncodedBy (each lax inputs) (Decoder.each canonical inputs) []
      (List.flatMap encode) := by
  induction inputs with
  | nil => exact pure rfl
  | cons input inputs ih =>
      refine (item input).bind fun value _ => ih.bind fun values _ => pure ?_
      simp

/-- A count and as many items. -/
theorem bind_times {laxCount canonicalCount : Decoder ε Nat} {encodeCount : Nat → Bytes}
    {item : α → Bytes} {next canonicalNext : List α → Decoder ε β} {encode : β → Bytes}
    (count : EncodedBy laxCount canonicalCount [] encodeCount)
    (items : EncodedBy lax canonical [] item)
    (tail : ∀ values, EncodedBy (next values) (canonicalNext values)
      (front ++ (encodeCount values.length ++ values.flatMap item)) encode) :
    EncodedBy (laxCount >>= fun number => Decoder.times lax number >>= next)
      (canonicalCount >>= fun number => Decoder.times canonical number >>= canonicalNext)
      front encode := by
  refine count.bind fun number _ => (items.times number).bind ?_
  rintro values ⟨data, offset, stop, read⟩
  have length : values.length = number :=
    (@times_eq_ok _ _ _ (fun _ => True) _ (fun _ _ _ _ => trivial) _ _ _ _ read).1
  rw [List.append_assoc, ← length]
  exact tail values

/-- Put a front in front of the encoding. -/
theorem behind {encode : α → Bytes} (encoded : EncodedBy lax canonical [] encode)
    (front : Bytes) : EncodedBy lax canonical front fun value => front ++ encode value := by
  refine ⟨encoded.loosens, encoded.advances, ?_⟩
  intro data offset value next read inside
  obtain ⟨bytes, rfl, rest⟩ := encoded.compare read inside
  exact ⟨encode value, rfl, rest⟩

/-- Decoders that at every place behave like some pair with the property. -/
theorem pointwise {encode : α → Bytes}
    (local_eq : ∀ data offset, ∃ lax' canonical', lax data offset = lax' data offset ∧
      canonical data offset = canonical' data offset ∧
      EncodedBy lax' canonical' front encode) :
    EncodedBy lax canonical front encode := by
  refine ⟨?_, ?_, ?_⟩
  · intro data offset result read
    obtain ⟨lax', canonical', laxEq, canonicalEq, encoded⟩ := local_eq data offset
    rw [canonicalEq] at read
    rw [laxEq]
    exact encoded.loosens read
  · intro data offset value next read
    obtain ⟨lax', canonical', laxEq, canonicalEq, encoded⟩ := local_eq data offset
    rw [laxEq] at read
    exact encoded.advances read
  · intro data offset value next read inside
    obtain ⟨lax', canonical', laxEq, canonicalEq, encoded⟩ := local_eq data offset
    rw [laxEq] at read
    rw [canonicalEq]
    exact encoded.compare read inside

/-- A check at the end that refuses exactly the values with a shorter
encoding. -/
theorem bind_check {marked encode : α → Bytes} {check : α → Except ε α}
    (head : EncodedBy lax canonical [] marked)
    (checked : ∀ value, Produces lax value →
      (check value = .ok value ∧ front ++ marked value = encode value) ∨
      ((∃ error, check value = .error error) ∧ ∃ bytes, front ++ bytes = encode value ∧
        bytes.length < (marked value).length)) :
    EncodedBy lax (canonical >>= fun value => Decoder.lift (check value)) front encode := by
  refine ⟨?_, head.advances, ?_⟩
  · intro data offset result read
    obtain ⟨value, middle, one, two⟩ := bind_eq_ok.mp read
    have headRead := head.loosens one
    rcases checked value ⟨_, _, _, headRead⟩ with ⟨accepted, -⟩ | ⟨⟨error, refused⟩, -⟩
    · rw [accepted] at two
      cases two
      exact headRead
    · rw [refused] at two
      cases two
  · intro data offset value next read inside
    obtain ⟨bytes, rfl, shorter, accepts, equal⟩ := head.compare read inside
    rcases checked value ⟨_, _, _, read⟩ with
      ⟨accepted, whole⟩ | ⟨⟨error, refused⟩, bytes, whole, strictly⟩
    · refine ⟨marked value, whole, shorter, ?_, ?_⟩
      · intro tight
        exact bind_eq_ok.mpr ⟨value, next, accepts tight, lift_eq_ok.mpr ⟨accepted, rfl⟩⟩
      · intro found
        obtain ⟨value', middle, one, two⟩ := bind_eq_ok.mp found
        have same := head.loosens one
        rw [read] at same
        cases same
        exact equal one
    · refine ⟨bytes, whole, by omega, fun tight => by omega, ?_⟩
      intro found
      obtain ⟨value', middle, one, two⟩ := bind_eq_ok.mp found
      have same := head.loosens one
      rw [read] at same
      cases same
      rw [refused] at two
      cases two

/-- A decoder run on the rest of the data. -/
theorem onRest {encode : α → Bytes} (inner : EncodedBy lax canonical [] encode) :
    EncodedBy (onRest fun rest => lax rest 0) (Decoder.onRest fun rest => canonical rest 0)
      [] encode := by
  refine ⟨?_, ?_, ?_⟩
  · intro data offset ⟨value, next⟩ read
    obtain ⟨used, decoded, rfl⟩ := onRest_eq_ok.mp read
    exact onRest_eq_ok.mpr ⟨used, inner.loosens decoded, rfl⟩
  · intro data offset value next read
    obtain ⟨used, decoded, rfl⟩ := onRest_eq_ok.mp read
    exact Nat.le_add_right _ _
  · intro data offset value next read inside
    obtain ⟨used, decoded, rfl⟩ := onRest_eq_ok.mp read
    obtain ⟨bytes, written, shorter, accepts, equal⟩ := inner.compare decoded (by
      rw [List.length_drop]
      omega)
    refine ⟨bytes, written, by omega, ?_, ?_⟩
    · intro tight
      exact onRest_eq_ok.mpr ⟨used, accepts (by omega), rfl⟩
    · intro found
      obtain ⟨used', decoded', used_eq⟩ := onRest_eq_ok.mp found
      have same : used' = used := by omega
      subst same
      rw [← equal decoded', window, window, List.drop_zero, Nat.sub_zero,
        Nat.add_sub_cancel_left]

end EncodedBy

/-- What each step of a traversal keeps of its input is kept along the list. -/
theorem map_eq_of_each {decoder : α → Decoder ε β} {kept : β → γ} {given : α → γ}
    {data : Bytes} (item : ∀ input offset value next,
      decoder input data offset = .ok (value, next) → kept value = given input)
    {inputs : List α} {offset next : Nat} {values : List β}
    (read : each decoder inputs data offset = .ok (values, next)) :
    values.map kept = inputs.map given := by
  induction inputs generalizing offset next values with
  | nil =>
      simp only [each, pure_apply, Except.ok.injEq, Prod.mk.injEq] at read
      simp [← read.1]
  | cons input inputs ih =>
      simp only [each, bind_eq_ok, pure_apply, Except.ok.injEq, Prod.mk.injEq] at read
      obtain ⟨value, middle, headRead, others, last, tailRead, rfl, -⟩ := read
      rw [List.map_cons, List.map_cons, item _ _ _ _ headRead, ih tailRead]

end Decoder

end ByteDecoder
