import Mathlib.Data.List.Forall2

/-!
# Streams that arrive in chunks

A stream is read off a list of chunks.  Reading an exact number of items takes
chunks until there are enough of them and leaves the rest of the last one.  A
buffering reader appends every chunk to a buffer and takes complete frames off
its front.  Both give results that depend on the joined stream alone.
-/

namespace ChunkedStream

variable {α φ : Type*}

/-! ## Exact reads -/

/-- Read exactly `missing` items.  One receive returns the next chunk, or as
much of it as is missing; an empty answer is the end of the stream. -/
def readExact : Nat → List (List α) → Option (List α × List (List α))
  | 0, chunks => some ([], chunks)
  | _ + 1, [] => none
  | missing + 1, chunk :: chunks =>
      if chunk.isEmpty then none
      else if chunk.length ≤ missing + 1 then
        (readExact (missing + 1 - chunk.length) chunks).map fun read =>
          (chunk ++ read.1, read.2)
      else some (chunk.take (missing + 1), chunk.drop (missing + 1) :: chunks)

@[simp]
theorem readExact_zero (chunks : List (List α)) : readExact 0 chunks = some ([], chunks) := by
  cases chunks <;> rfl

/-- What is read and what is left make up the stream. -/
theorem readExact_eq_some {missing : Nat} {chunks left : List (List α)} {read : List α}
    (result : readExact missing chunks = some (read, left)) :
    read.length = missing ∧ read ++ left.flatten = chunks.flatten := by
  induction chunks generalizing missing read with
  | nil =>
      cases missing with
      | zero =>
          cases result
          simp
      | succ missing => cases result
  | cons chunk chunks ih =>
      cases missing with
      | zero =>
          cases result
          simp
      | succ missing =>
          simp only [readExact] at result
          split_ifs at result with empty short
          · obtain ⟨rest, restRead, restEq⟩ := Option.map_eq_some_iff.mp result
            obtain ⟨tail, restLeft⟩ := rest
            cases restEq
            obtain ⟨length, joined⟩ := ih restRead
            refine ⟨by rw [List.length_append, length]; omega, ?_⟩
            rw [List.append_assoc, joined, List.flatten_cons]
          · cases result
            refine ⟨by rw [List.length_take]; omega, ?_⟩
            rw [List.flatten_cons, List.flatten_cons, ← List.append_assoc,
              List.take_append_drop]

/-- The chunks left over are as nonempty as the chunks were. -/
theorem readExact_nonempty {missing : Nat} {chunks left : List (List α)} {read : List α}
    (result : readExact missing chunks = some (read, left))
    (nonempty : ∀ chunk ∈ chunks, chunk ≠ []) : ∀ chunk ∈ left, chunk ≠ [] := by
  induction chunks generalizing missing read with
  | nil =>
      cases missing with
      | zero =>
          cases result
          exact nonempty
      | succ missing => cases result
  | cons chunk chunks ih =>
      cases missing with
      | zero =>
          cases result
          exact nonempty
      | succ missing =>
          have nonemptyTail : ∀ other ∈ chunks, other ≠ [] :=
            fun other member => nonempty other (List.mem_cons_of_mem _ member)
          simp only [readExact] at result
          split_ifs at result with empty short
          · obtain ⟨rest, restRead, restEq⟩ := Option.map_eq_some_iff.mp result
            obtain ⟨tail, restLeft⟩ := rest
            cases restEq
            exact ih restRead nonemptyTail
          · cases result
            intro other member
            rcases List.mem_cons.mp member with rfl | member
            · intro emptyRest
              rw [List.drop_eq_nil_iff] at emptyRest
              exact short emptyRest
            · exact nonemptyTail other member

/-- A read succeeds exactly if the stream is long enough. -/
theorem readExact_isSome {missing : Nat} {chunks : List (List α)}
    (nonempty : ∀ chunk ∈ chunks, chunk ≠ []) :
    (readExact missing chunks).isSome ↔ missing ≤ chunks.flatten.length := by
  induction chunks generalizing missing with
  | nil => cases missing <;> simp [readExact]
  | cons chunk chunks ih =>
      cases missing with
      | zero => simp [readExact]
      | succ missing =>
          have present : chunk.isEmpty = false := by
            simpa using nonempty chunk List.mem_cons_self
          have rest := @ih (missing + 1 - chunk.length)
            fun other member => nonempty other (List.mem_cons_of_mem _ member)
          rw [readExact, present, if_neg (by simp), List.flatten_cons, List.length_append]
          split_ifs with short
          · rw [Option.isSome_map, rest]
            omega
          · simp only [Option.isSome_some, true_iff]
            omega

/-- A read off a long enough stream takes its first items. -/
theorem readExact_of_le {missing : Nat} {chunks : List (List α)}
    (nonempty : ∀ chunk ∈ chunks, chunk ≠ []) {first rest : List α}
    (stream : chunks.flatten = first ++ rest) (length : first.length = missing) :
    ∃ left, readExact missing chunks = some (first, left) ∧ left.flatten = rest ∧
      ∀ chunk ∈ left, chunk ≠ [] := by
  have enough : missing ≤ chunks.flatten.length := by
    rw [stream, List.length_append]
    omega
  obtain ⟨⟨read, left⟩, result⟩ :=
    Option.isSome_iff_exists.mp ((readExact_isSome nonempty).mpr enough)
  obtain ⟨readLength, joined⟩ := readExact_eq_some result
  rw [stream] at joined
  obtain ⟨rfl, rfl⟩ := List.append_inj joined (by omega)
  exact ⟨left, result, rfl, readExact_nonempty result nonempty⟩

/-! ## Buffering readers -/

/-- A decoder of the first frame in a buffer, with the number of items it takes.
More items behind a frame do not change it. -/
structure FrameDecoder (α φ : Type*) where
  decode : List α → Option (φ × Nat)
  consumed_pos : ∀ {buffer frame consumed}, decode buffer = some (frame, consumed) →
    0 < consumed ∧ consumed ≤ buffer.length
  stable : ∀ {buffer frame consumed}, decode buffer = some (frame, consumed) →
    ∀ more, decode (buffer ++ more) = some (frame, consumed)

section Buffer

variable {σ ε : Type*} (decoder : FrameDecoder α φ) (process : σ → φ → Except ε Unit × σ)

/-- Process frames one after another up to the first that raises: the frames
processed, whether one raised, and the state. -/
def processAll : σ → List φ → List φ × Except ε Unit × σ
  | state, [] => ([], .ok (), state)
  | state, frame :: frames =>
      match process state frame with
      | (.error error, next) => ([frame], .error error, next)
      | (.ok (), next) =>
          match processAll next frames with
          | (processed, result, last) => (frame :: processed, result, last)

/-- Process the frames in a buffer up to the first that raises.  What is left
of the buffer is returned if none does. -/
def drain (state : σ) (buffer : List α) : List φ × Except ε (List α) × σ :=
  match _decoded : decoder.decode buffer with
  | none => ([], .ok buffer, state)
  | some (frame, consumed) =>
      match process state frame with
      | (.error error, next) => ([frame], .error error, next)
      | (.ok (), next) =>
          match drain next (buffer.drop consumed) with
          | (processed, result, last) => (frame :: processed, result, last)
termination_by buffer.length
decreasing_by
  have bounds := decoder.consumed_pos _decoded
  rw [List.length_drop]
  omega

/-- Append every chunk to the buffer and process the frames in it, up to the
end of the stream or the first frame that raises. -/
def feed : σ → List α → List (List α) → List φ × Except ε (List α) × σ
  | state, buffer, [] => ([], .ok buffer, state)
  | state, buffer, chunk :: chunks =>
      if chunk.isEmpty then ([], .ok buffer, state)
      else
        match drain decoder process state (buffer ++ chunk) with
        | (processed, .error error, last) => (processed, .error error, last)
        | (processed, .ok rest, next) =>
            match feed next rest chunks with
            | (more, result, last) => (processed ++ more, result, last)

variable {decoder process}

theorem drain_of_none {state : σ} {buffer : List α} (partialFrame : decoder.decode buffer = none) :
    drain decoder process state buffer = ([], .ok buffer, state) := by
  rw [drain]
  split
  · rfl
  · simp_all

theorem drain_of_error {state next : σ} {buffer : List α} {frame : φ} {consumed : Nat} {error : ε}
    (decoded : decoder.decode buffer = some (frame, consumed))
    (raised : process state frame = (.error error, next)) :
    drain decoder process state buffer = ([frame], .error error, next) := by
  rw [drain]
  split
  · simp_all
  · simp_all

theorem drain_of_ok {state next : σ} {buffer : List α} {frame : φ} {consumed : Nat}
    (decoded : decoder.decode buffer = some (frame, consumed))
    (returned : process state frame = (.ok (), next)) :
    drain decoder process state buffer =
      match drain decoder process next (buffer.drop consumed) with
      | (processed, result, last) => (frame :: processed, result, last) := by
  rw [drain]
  split
  · simp_all
  · simp_all

/-- Processing what has arrived first changes nothing. -/
theorem drain_append (state : σ) (buffer more : List α) :
    drain decoder process state (buffer ++ more) =
      match drain decoder process state buffer with
      | (processed, .error error, last) => (processed, .error error, last)
      | (processed, .ok rest, next) =>
          match drain decoder process next (rest ++ more) with
          | (processed', result, last) => (processed ++ processed', result, last) := by
  induction lengthEq : buffer.length using Nat.strongRecOn generalizing state buffer with
  | ind length ih =>
      cases decoded : decoder.decode buffer with
      | none =>
          rw [drain_of_none decoded]
          simp
      | some first =>
          obtain ⟨frame, consumed⟩ := first
          obtain ⟨positive, within⟩ := decoder.consumed_pos decoded
          have stable := decoder.stable decoded more
          rcases called : process state frame with ⟨result, next⟩
          cases result with
          | error error => rw [drain_of_error stable called, drain_of_error decoded called]
          | ok =>
              have shorter : (buffer.drop consumed).length < length := by
                rw [List.length_drop]
                omega
              have rest := ih _ shorter next (buffer.drop consumed) rfl
              rw [drain_of_ok stable called, drain_of_ok decoded called,
                List.drop_append_of_le_length within, rest]
              rcases drain decoder process next (buffer.drop consumed) with
                ⟨processed, outcome, last⟩
              cases outcome <;> simp

/-- No complete frame is left behind. -/
theorem drain_rest {state last : σ} {buffer rest : List α} {processed : List φ}
    (drained : drain decoder process state buffer = (processed, .ok rest, last)) :
    decoder.decode rest = none := by
  induction lengthEq : buffer.length using Nat.strongRecOn
    generalizing state buffer processed with
  | ind length ih =>
      cases decoded : decoder.decode buffer with
      | none =>
          rw [drain_of_none decoded] at drained
          cases drained
          exact decoded
      | some first =>
          obtain ⟨frame, consumed⟩ := first
          obtain ⟨positive, within⟩ := decoder.consumed_pos decoded
          rcases called : process state frame with ⟨result, next⟩
          cases result with
          | error error =>
              rw [drain_of_error decoded called] at drained
              cases drained
          | ok =>
              have shorter : (buffer.drop consumed).length < length := by
                rw [List.length_drop]
                omega
              rw [drain_of_ok decoded called] at drained
              rcases later : drain decoder process next (buffer.drop consumed) with
                ⟨processed', outcome, last'⟩
              rw [later] at drained
              cases drained
              exact ih _ shorter later rfl

/-- A buffering reader processes what is in the joined stream. -/
theorem feed_eq_drain {chunks : List (List α)} (nonempty : ∀ chunk ∈ chunks, chunk ≠ [])
    (state : σ) {buffer : List α} (partialFrame : decoder.decode buffer = none) :
    feed decoder process state buffer chunks =
      drain decoder process state (buffer ++ chunks.flatten) := by
  induction chunks generalizing state buffer with
  | nil => rw [feed, List.flatten_nil, List.append_nil, drain_of_none partialFrame]
  | cons chunk chunks ih =>
      have present : chunk.isEmpty = false := by
        simpa using nonempty chunk List.mem_cons_self
      have nonemptyTail : ∀ other ∈ chunks, other ≠ [] :=
        fun other member => nonempty other (List.mem_cons_of_mem _ member)
      rw [feed, present, if_neg (by simp), List.flatten_cons, ← List.append_assoc,
        drain_append state (buffer ++ chunk)]
      rcases drained : drain decoder process state (buffer ++ chunk) with
        ⟨processed, outcome, next⟩
      cases outcome with
      | error error => rfl
      | ok rest => simp only [ih nonemptyTail next (drain_rest drained)]

/-- A buffer that starts with encoded frames is drained of exactly these. -/
theorem drain_encoded {frames : List φ} {messages : List (List α)}
    (reads : List.Forall₂ (fun frame message => ∀ more,
      decoder.decode (message ++ more) = some (frame, message.length)) frames messages)
    {tail : List α} (partialFrame : decoder.decode tail = none) (state : σ) :
    (drain decoder process state (messages.flatten ++ tail)).1 =
      (processAll process state frames).1 ∧
    (drain decoder process state (messages.flatten ++ tail)).2.2 =
      (processAll process state frames).2.2 := by
  induction reads generalizing state with
  | nil =>
      rw [List.flatten_nil, List.nil_append, drain_of_none partialFrame]
      exact ⟨rfl, rfl⟩
  | @cons frame message frames messages first _ ih =>
      have decoded := first (messages.flatten ++ tail)
      rw [List.flatten_cons, List.append_assoc]
      rcases called : process state frame with ⟨result, next⟩
      cases result with
      | error error => simp [drain_of_error decoded called, processAll, called]
      | ok =>
          have rest := ih next
          rw [drain_of_ok decoded called, List.drop_left]
          simp [processAll, called, rest]

/-- If no frame raises, all are processed. -/
theorem processAll_of_ok (succeeds : ∀ state frame, (process state frame).1 = .ok ())
    (state : σ) (frames : List φ) : (processAll process state frames).1 = frames := by
  induction frames generalizing state with
  | nil => rfl
  | cons frame frames ih =>
      have returned := succeeds state frame
      rcases called : process state frame with ⟨result, next⟩
      rw [called] at returned
      cases returned
      simp [processAll, called, ih next]

end Buffer

end ChunkedStream
