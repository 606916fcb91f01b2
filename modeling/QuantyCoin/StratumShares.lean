import QuantyCoin.StratumServer

/-!
# Shares of the Stratum V2 server

What happens to a submitted share, followed from the lookup of its channel to
the answer.  The server looks a channel up by its id alone and remembers no
solutions, so that it relies on the miners for both: that they submit on their
own channels, and that they submit a solution once.
-/

namespace QuantyCoin

open ByteDecoder IdRegistry

/-! ## Submissions -/

/-- The submission that a handler is about to process. -/
def Handler.pendingSubmit (handler : Handler) : Option SubmitShares :=
  match handler.phase with
  | .decoding => do
      let (frame, _) ← decodeSv2Frame handler.buf
      if frame.msgType = msgSubmitSharesStandard then
        (decodeSubmitSharesStandard frame.payload).toOption
      else none
  | _ => none

/-- The submission that a step processes, on a channel that is open. -/
def StratumSystem.lookup (system : StratumSystem) :
    StratumAction → Option (Nat × SubmitShares × MiningChannel)
  | .handle conn (.advance _) => do
      let handler ← system.handlers[conn]?
      let submit ← handler.pendingSubmit
      let channel ← system.server.channels submit.channelId
      some (conn, submit, channel)
  | _ => none

/-- Phases that no share depends on. -/
def HandlerPhase.Idle : HandlerPhase → Prop
  | .hashing _ _ | .crediting _ _ | .credited _ => False
  | .sending frame _ => frame.msgType ≠ msgSubmitSharesSuccess
  | _ => True

/-- What a step of a handler does to a share. -/
inductive ShareEffect (prim : Primitives) (server : StratumV2Server) (conn : Nat)
    (handler : Handler) : HandlerResult → Prop
  /-- The step is about something else. -/
  | idle {server' handler' events} (idle : handler'.phase.Idle)
      (silent : ∀ event ∈ events, ∃ cid channel, event = .issued conn cid channel) :
      ShareEffect prim server conn handler (server', handler', events)
  /-- A frame was sent. -/
  | sent {server' handler'} (frame : Sv2Frame) (opened : Option (Nat × UInt8))
      (here : handler.phase = .sending frame opened) (idle : handler'.phase.Idle) :
      ShareEffect prim server conn handler (server', handler', [.sent conn frame])
  /-- The channel of a submission was found. -/
  | found {server' handler'} (submit : SubmitShares) (channel : MiningChannel)
      (pending : handler.pendingSubmit = some submit)
      (stored : server.channels submit.channelId = some channel)
      (there : handler'.phase = .hashing submit channel) :
      ShareEffect prim server conn handler (server', handler', [.found conn submit channel])
  /-- The share meets the target. -/
  | accepted {server' handler'} (submit : SubmitShares) (channel : MiningChannel) (loaded : Nat)
      (here : handler.phase = .hashing submit channel)
      (meets : meetsTarget prim channel submit = true)
      (there : handler'.phase = .crediting submit loaded) :
      ShareEffect prim server conn handler (server', handler', [])
  /-- The share was counted. -/
  | credited {server' handler'} (submit : SubmitShares) (loaded : Nat)
      (here : handler.phase = .crediting submit loaded)
      (there : handler'.phase = .credited submit) :
      ShareEffect prim server conn handler (server', handler', [.credited conn submit])
  /-- The answer to a counted share was built. -/
  | answered {server' handler'} (submit : SubmitShares) (count : Nat) (payload : Bytes)
      (here : handler.phase = .credited submit)
      (encoded : encodeSubmitSharesSuccess submit.channelId submit.sequenceNumber count =
        .ok payload)
      (there : handler'.phase = .sending ⟨0, msgSubmitSharesSuccess, payload⟩ none) :
      ShareEffect prim server conn handler (server', handler', [])

section Shares

variable {prim : Primitives} {server : StratumV2Server} {conn : Nat} {handler : Handler}

theorem Handler.reply_idle {msgType : UInt8} (other : msgType ≠ msgSubmitSharesSuccess)
    (payload : Except PyException Bytes) (opened : Option (Nat × UInt8)) :
    (handler.reply msgType payload opened).phase.Idle := by
  obtain failed | ⟨bytes, -, sending⟩ := handler.reply_cases msgType payload opened
  · rw [failed]
    trivial
  · rw [sending]
    exact other

theorem processMessage_shareEffect {before : Handler} {frame : Sv2Frame} {consumed : Nat}
    (here : before.phase = .decoding)
    (decoded : decodeSv2Frame before.buf = some (frame, consumed)) :
    ShareEffect prim server conn before (server.processMessage conn handler frame) := by
  unfold StratumV2Server.processMessage
  split_ifs with isSetup isOpen isSubmit
  · split
    · exact .idle trivial (by simp)
    · exact .idle (Handler.reply_idle (by decide) ..) (by simp)
  · unfold StratumV2Server.openChannel
    simp only
    split
    · exact .idle trivial (by simp)
    · exact .idle (Handler.reply_idle (by decide) ..) (by simp)
  · split
    · exact .idle trivial (by simp)
    · rename_i submit read
      unfold StratumV2Server.findChannel
      split
      · exact .idle (Handler.reply_idle (by decide) ..) (by simp)
      · rename_i channel stored
        have pending : before.pendingSubmit = some submit := by
          simp [Handler.pendingSubmit, here, decoded, isSubmit, read, Except.toOption]
        exact .found submit channel pending stored rfl
  · exact .idle trivial (by simp)

theorem advance_shareEffect {now : Nat} {result : HandlerResult}
    (stepped : server.advance prim conn now handler = some result) :
    ShareEffect prim server conn handler result := by
  unfold StratumV2Server.advance at stepped
  cases phase : handler.phase with
  | receiving | ended =>
      rw [phase] at stepped
      cases stepped
  | checking =>
      rw [phase] at stepped
      cases stepped
      refine .idle ?_ (by simp)
      simp only [Handler.goto]
      split_ifs <;> trivial
  | decoding =>
      rw [phase] at stepped
      simp only at stepped
      split at stepped
      · cases stepped
        exact .idle trivial (by simp)
      · rename_i frame consumed decoded
        cases stepped
        exact processMessage_shareEffect phase decoded
  | sending frame opened =>
      rw [phase] at stepped
      cases stepped
      refine .sent frame opened phase ?_
      cases opened <;> trivial
  | numbering cid powLane =>
      rw [phase] at stepped
      cases stepped
      exact .idle trivial (by simp)
  | announcing cid jid powLane =>
      rw [phase] at stepped
      cases stepped
      exact .idle (Handler.reply_idle (by decide) ..) (by simp)
  | hashing submit channel =>
      rw [phase] at stepped
      simp only at stepped
      split_ifs at stepped with meets
      · cases stepped
        exact .accepted submit channel _ phase meets rfl
      · cases stepped
        exact .idle trivial (by simp)
  | crediting submit loaded =>
      rw [phase] at stepped
      cases stepped
      exact .credited submit loaded phase rfl
  | credited submit =>
      rw [phase] at stepped
      cases stepped
      obtain failed | ⟨payload, encoded, sending⟩ := handler.reply_cases msgSubmitSharesSuccess
        (encodeSubmitSharesSuccess submit.channelId submit.sequenceNumber server.acceptedShares)
        none
      · rw [failed]
        exact .idle trivial (by simp)
      · rw [sending]
        exact .answered submit server.acceptedShares payload phase encoded rfl
  | rejecting submit loaded =>
      rw [phase] at stepped
      cases stepped
      exact .idle (Handler.reply_idle (by decide) ..) (by simp)
  | cleaning =>
      rw [phase] at stepped
      cases stepped
      exact .idle trivial (by simp)

theorem handlerStep_shareEffect {action : HandlerAction} {result : HandlerResult}
    (stepped : server.handlerStep prim conn handler action = some result) :
    ShareEffect prim server conn handler result := by
  cases action with
  | receive data =>
      simp only [StratumV2Server.handlerStep] at stepped
      split at stepped
      · split_ifs at stepped
        · cases stepped
          exact .idle trivial (by simp)
        · cases stepped
          exact .idle trivial (by simp)
      · cases stepped
  | fail =>
      simp only [StratumV2Server.handlerStep] at stepped
      split at stepped
      · cases stepped
        exact .idle trivial (by simp)
      · cases stepped
        exact .idle trivial (by simp)
      · cases stepped
  | advance now => exact advance_shareEffect stepped

/-- Only `advance` finds a channel. -/
theorem advance_of_found {action : HandlerAction} {server' : StratumV2Server}
    {handler' : Handler} {submit : SubmitShares} {channel : MiningChannel}
    (stepped : server.handlerStep prim conn handler action =
      some (server', handler', [.found conn submit channel])) :
    ∃ now, action = .advance now := by
  cases action with
  | advance now => exact ⟨now, rfl⟩
  | receive data =>
      simp only [StratumV2Server.handlerStep] at stepped
      split at stepped
      · split_ifs at stepped <;> cases stepped
      · cases stepped
  | fail =>
      simp only [StratumV2Server.handlerStep] at stepped
      split at stepped <;> cases stepped

end Shares

/-- The lists of a handler only grow. -/
theorem TableEffect.ids_subset {server : StratumV2Server} {conn : Nat} {ids : List Nat}
    {server' : StratumV2Server} {handler' : Handler} {events : List StratumEvent}
    (effect : TableEffect server conn ids (server', handler', events)) :
    ids ⊆ handler'.clientChannels := by
  cases effect with
  | quiet channels next holder issued | skipped channels next holder issued
  | cleaned channels next holder issued =>
      have same : handler'.clientChannels = ids := congrArg Holder.ids holder
      exact same ▸ List.Subset.refl ids
  | opened channel channels next holder issued =>
      have longer : handler'.clientChannels = ids ++ [server.nextChannelId] :=
        congrArg Holder.ids holder
      exact longer ▸ List.subset_append_left ids _

/-! ## Channels of other connections -/

/-- No share that meets the target is submitted on a channel of another
connection. -/
def NoForeignShare (prim : Primitives) (_ : List StratumEvent) (system : StratumSystem)
    (action : StratumAction) : Prop :=
  ∀ conn submit channel, system.lookup action = some (conn, submit, channel) →
    meetsTarget prim channel submit = true →
      ∀ other, system.Holds other submit.channelId → other = conn

/-- The share that a handler works on is on one of its own channels. -/
def Handler.OwnShare (prim : Primitives) (handler : Handler) : Prop :=
  match handler.phase with
  | .hashing submit channel =>
      meetsTarget prim channel submit = true → submit.channelId ∈ handler.clientChannels
  | .crediting submit _ | .credited submit => submit.channelId ∈ handler.clientChannels
  | .sending frame _ => frame.msgType = msgSubmitSharesSuccess →
      ∃ cid ∈ handler.clientChannels, ∃ seqNum count,
        encodeSubmitSharesSuccess cid seqNum count = .ok frame.payload
  | _ => True

theorem Handler.ownShare_of_idle {prim : Primitives} {handler : Handler}
    (idle : handler.phase.Idle) : handler.OwnShare prim := by
  unfold OwnShare
  split
  · rename_i phase
    rw [phase] at idle
    exact idle.elim
  · rename_i phase
    rw [phase] at idle
    exact idle.elim
  · rename_i phase
    rw [phase] at idle
    exact idle.elim
  · rename_i phase
    rw [phase] at idle
    exact fun isSuccess => absurd isSuccess idle
  · trivial

/-- Shares are counted and answered with success for the connection that has the
channel. -/
def SharesIsolated (system : StratumSystem) (events : List StratumEvent) : Prop :=
  (∀ conn submit, .credited conn submit ∈ events → system.Holds conn submit.channelId) ∧
    ∀ conn frame, .sent conn frame ∈ events → frame.msgType = msgSubmitSharesSuccess →
      ∃ cid, system.Holds conn cid ∧ ∃ seqNum count,
        encodeSubmitSharesSuccess cid seqNum count = .ok frame.payload

section Isolation

variable {prim : Primitives}
  {allowed : List StratumEvent → StratumSystem → StratumAction → Prop}
  {trace events : List StratumEvent} {system next : StratumSystem} {action : StratumAction}

/-- A channel that is found by its own connection. -/
theorem own_of_lookup (run : StratumRun prim allowed trace system)
    {conn : Nat} {handler : Handler} {submit : SubmitShares} {channel : MiningChannel}
    (found : system.handlers[conn]? = some handler)
    (stored : system.server.channels submit.channelId = some channel)
    (own : ∀ other, system.Holds other submit.channelId → other = conn) :
    submit.channelId ∈ handler.clientChannels := by
  obtain ⟨other, holds, -⟩ := run.exists_unique_holds (Option.isSome_iff_exists.mpr ⟨_, stored⟩)
  cases own other holds
  obtain ⟨handler', found', -, member⟩ := holds
  cases found.symm.trans found'
  exact member

/-- One step of a handler keeps its share its own. -/
theorem handlerStep_ownShare {server server' : StratumV2Server} {conn : Nat}
    {handler handler' : Handler} {act : HandlerAction} (own : handler.OwnShare prim)
    (stepped : server.handlerStep prim conn handler act = some (server', handler', events))
    (foundOwn : ∀ submit channel, events = [.found conn submit channel] →
      server.channels submit.channelId = some channel → handler.pendingSubmit = some submit →
      meetsTarget prim channel submit = true → submit.channelId ∈ handler.clientChannels) :
    handler'.OwnShare prim := by
  have kept := (handlerStep_effect stepped).ids_subset
  generalize resultEq : (server', handler', events) = result at stepped
  cases handlerStep_shareEffect stepped with
  | idle idle silent =>
      cases resultEq
      exact Handler.ownShare_of_idle idle
  | sent frame opened here idle =>
      cases resultEq
      exact Handler.ownShare_of_idle idle
  | found submit channel pending stored there =>
      cases resultEq
      unfold Handler.OwnShare
      rw [there]
      exact fun meets => kept (foundOwn submit channel rfl stored pending meets)
  | accepted submit channel loaded here meets there =>
      cases resultEq
      unfold Handler.OwnShare at own ⊢
      rw [here] at own
      rw [there]
      exact kept (own meets)
  | credited submit loaded here there =>
      cases resultEq
      unfold Handler.OwnShare at own ⊢
      rw [here] at own
      rw [there]
      exact kept own
  | answered submit count payload here encoded there =>
      cases resultEq
      unfold Handler.OwnShare at own ⊢
      rw [here] at own
      rw [there]
      exact fun _ => ⟨_, kept own, _, _, encoded⟩

/-- One step of a handler that works on its own share. -/
theorem handlerStep_isolated {server server' : StratumV2Server} {conn : Nat}
    {handler handler' : Handler} {act : HandlerAction}
    (found : system.handlers[conn]? = some handler) (own : handler.OwnShare prim)
    (stepped : server.handlerStep prim conn handler act = some (server', handler', events)) :
    SharesIsolated system events := by
  have live : handler.phase.isEnded = false := by
    simpa [Handler.holder] using live_of_handlerStep stepped
  generalize resultEq : (server', handler', events) = result at stepped
  cases handlerStep_shareEffect stepped with
  | idle idle silent =>
      cases resultEq
      refine ⟨fun conn' submit member => ?_, fun conn' frame member => ?_⟩
      · obtain ⟨cid, channel, wrong⟩ := silent _ member
        cases wrong
      · obtain ⟨cid, channel, wrong⟩ := silent _ member
        cases wrong
  | sent frame opened here idle =>
      cases resultEq
      refine ⟨fun conn' submit member => ?_, fun conn' frame' member isSuccess => ?_⟩
      · cases List.mem_singleton.mp member
      · cases List.mem_singleton.mp member
        unfold Handler.OwnShare at own
        rw [here] at own
        obtain ⟨cid, member, seqNum, count, encoded⟩ := own isSuccess
        exact ⟨cid, ⟨handler, found, live, member⟩, seqNum, count, encoded⟩
  | credited submit loaded here there =>
      cases resultEq
      refine ⟨fun conn' submit' member => ?_, fun conn' frame member => ?_⟩
      · cases List.mem_singleton.mp member
        unfold Handler.OwnShare at own
        rw [here] at own
        exact ⟨handler, found, live, own⟩
      · cases List.mem_singleton.mp member
  | found submit channel pending stored there =>
      cases resultEq
      exact ⟨by simp, by simp⟩
  | accepted submit channel loaded here meets there =>
      cases resultEq
      exact ⟨by simp, by simp⟩
  | answered submit count payload here encoded there =>
      cases resultEq
      exact ⟨by simp, by simp⟩

theorem lookup_eq_some {conn now : Nat} {handler : Handler} {submit : SubmitShares}
    {channel : MiningChannel} (found : system.handlers[conn]? = some handler)
    (pending : handler.pendingSubmit = some submit)
    (stored : system.server.channels submit.channelId = some channel) :
    system.lookup (.handle conn (.advance now)) = some (conn, submit, channel) := by
  simp [StratumSystem.lookup, found, pending, stored]

/-- Every handler works on shares of its own channels. -/
theorem StratumRun.ownShare (run : StratumRun prim (NoForeignShare prim) trace system) :
    ∀ (conn : Nat) (handler : Handler), system.handlers[conn]? = some handler →
      handler.OwnShare prim := by
  induction run with
  | start =>
      intro conn handler found
      cases found
  | @step trace system action next events run isAllowed stepped ih =>
      intro other handler'' found''
      obtain ⟨rfl, channels, counter, same | joined⟩ |
        ⟨conn, act, handler, handler', rfl, found, handled, handlers⟩ :=
        StratumSystem.step_cases stepped
      · rw [same] at found''
        exact ih other handler'' found''
      · rw [joined, List.getElem?_append] at found''
        split_ifs at found'' with inside
        · exact ih other handler'' found''
        · obtain ⟨here, rfl⟩ := List.getElem?_eq_some_iff.mp found''
          have first : other - system.handlers.length = 0 := by
            simp only [List.length_singleton] at here
            omega
          simp only [first, List.getElem_cons_zero]
          trivial
      · rw [handlers] at found''
        by_cases same : other = conn
        · subst same
          rw [List.getElem?_set_self (List.getElem?_eq_some_iff.mp found).1] at found''
          cases found''
          refine handlerStep_ownShare (ih _ _ found) handled ?_
          rintro submit channel rfl stored pending meets
          obtain ⟨now, rfl⟩ := advance_of_found handled
          exact own_of_lookup run found stored
            (isAllowed _ _ _ (lookup_eq_some found pending stored) meets)
        · rw [List.getElem?_set_ne (Ne.symm same)] at found''
          exact ih other handler'' found''

/-- As long as no connection submits a share that meets the target on a channel
of another one, shares are counted and answered with success only on channels
that the submitting connection opened and still holds. -/
theorem StratumRun.sharesIsolated (run : StratumRun prim (NoForeignShare prim) trace system)
    (stepped : system.step prim action = some (next, events)) :
    SharesIsolated system events ∧
      ∀ conn cid, system.Holds conn cid →
        ∃ channel, .issued conn cid channel ∈ trace := by
  constructor
  · obtain ⟨rfl, -⟩ | ⟨conn, act, handler, handler', rfl, found, handled, -⟩ :=
      StratumSystem.step_cases stepped
    · exact ⟨by simp, by simp⟩
    · exact handlerStep_isolated found (run.ownShare conn handler found) handled
  · rintro conn cid ⟨handler, found, -, member⟩
    obtain ⟨channel, opened⟩ := run.opened_of_member found member
    exact ⟨channel, mem_openedChannels.mp opened⟩

end Isolation

/-! ## Repeated shares -/

/-- What makes two submissions the same solution. -/
def SubmitShares.key (submit : SubmitShares) : Nat × Nat × Nat :=
  (submit.channelId, submit.ntime, submit.nonce)

/-- The solutions that `accepted_shares` was incremented for. -/
def creditedShares (trace : List StratumEvent) : List (Nat × Nat × Nat) :=
  trace.filterMap fun event =>
    match event with
    | .credited _ submit => some submit.key
    | _ => none

/-- The solutions that meet the target of the channel they were submitted on. -/
def passingShares (prim : Primitives) (trace : List StratumEvent) : List (Nat × Nat × Nat) :=
  trace.filterMap fun event =>
    match event with
    | .found _ submit channel => if meetsTarget prim channel submit then some submit.key else none
    | _ => none

/-- No solution that meets the target is submitted again on its open channel. -/
def NoRepeatedShare (prim : Primitives) (trace : List StratumEvent) (system : StratumSystem)
    (action : StratumAction) : Prop :=
  ∀ conn submit channel, system.lookup action = some (conn, submit, channel) →
    meetsTarget prim channel submit = true → submit.key ∉ passingShares prim trace

/-- A handler is going to count the solution. -/
def Handler.pendingShare (prim : Primitives) (key : Nat × Nat × Nat) (handler : Handler) : Bool :=
  match handler.phase with
  | .hashing submit channel => meetsTarget prim channel submit && submit.key = key
  | .crediting submit _ => submit.key = key
  | _ => false

/-- The share a handler works on, as a number. -/
def Handler.pendingCount (prim : Primitives) (key : Nat × Nat × Nat) (handler : Handler) : Nat :=
  if handler.pendingShare prim key then 1 else 0

theorem Handler.pendingCount_of_idle {prim : Primitives} {handler : Handler}
    (idle : handler.phase.Idle) (key : Nat × Nat × Nat) : handler.pendingCount prim key = 0 := by
  unfold pendingCount pendingShare
  split
  · rename_i phase
    rw [phase] at idle
    exact idle.elim
  · rename_i phase
    rw [phase] at idle
    exact idle.elim
  · rfl

section Counting

variable {prim : Primitives} {events : List StratumEvent} {key : Nat × Nat × Nat}

theorem creditedShares_append (first second : List StratumEvent) :
    creditedShares (first ++ second) = creditedShares first ++ creditedShares second :=
  List.filterMap_append ..

theorem passingShares_append (first second : List StratumEvent) :
    passingShares prim (first ++ second) = passingShares prim first ++ passingShares prim second :=
  List.filterMap_append ..

/-- A handler counts a solution at most as often as it finds it. -/
theorem handlerStep_count {server server' : StratumV2Server} {conn : Nat}
    {handler handler' : Handler} {act : HandlerAction}
    (stepped : server.handlerStep prim conn handler act = some (server', handler', events)) :
    (creditedShares events).count key + handler'.pendingCount prim key ≤
      handler.pendingCount prim key + (passingShares prim events).count key := by
  generalize resultEq : (server', handler', events) = result at stepped
  cases handlerStep_shareEffect stepped with
  | idle idle silent =>
      cases resultEq
      have none : creditedShares events = [] := by
        rw [creditedShares, List.filterMap_eq_nil_iff]
        intro event member
        obtain ⟨cid, channel, rfl⟩ := silent event member
        rfl
      rw [none, Handler.pendingCount_of_idle idle]
      exact Nat.zero_le _
  | sent frame opened here idle =>
      cases resultEq
      rw [Handler.pendingCount_of_idle idle]
      exact Nat.zero_le _
  | found submit channel pending stored there =>
      cases resultEq
      have after : handler'.pendingCount prim key =
          (passingShares prim [.found conn submit channel]).count key := by
        simp only [Handler.pendingCount, Handler.pendingShare, there, passingShares,
          List.filterMap_cons, List.filterMap_nil]
        cases meetsTarget prim channel submit with
        | false => rfl
        | true => simp [List.count_singleton]
      rw [after]
      simp [creditedShares]
  | accepted submit channel loaded here meets there =>
      cases resultEq
      simp [Handler.pendingCount, Handler.pendingShare, here, there, meets, creditedShares]
  | credited submit loaded here there =>
      cases resultEq
      have before : handler.pendingCount prim key =
          (creditedShares [.credited conn submit]).count key := by
        simp [Handler.pendingCount, Handler.pendingShare, here, creditedShares,
          List.count_singleton]
      have after : handler'.pendingCount prim key = 0 := by
        simp [Handler.pendingCount, Handler.pendingShare, there]
      rw [before, after]
      exact Nat.le_add_right _ _
  | answered submit count payload here encoded there =>
      cases resultEq
      simp [Handler.pendingCount, Handler.pendingShare, there, creditedShares]

end Counting

section Repeats

variable {prim : Primitives}
  {allowed : List StratumEvent → StratumSystem → StratumAction → Prop}
  {trace : List StratumEvent} {system : StratumSystem}

/-- Every counted solution was found, and those that handlers work on are not
counted yet. -/
theorem StratumRun.credited_le_passing (run : StratumRun prim allowed trace system)
    (key : Nat × Nat × Nat) :
    (creditedShares trace).count key + system.handlers.countP (Handler.pendingShare prim key) ≤
      (passingShares prim trace).count key := by
  induction run with
  | start => exact Nat.le_refl 0
  | @step trace system action next events run isAllowed stepped ih =>
      rw [creditedShares_append, passingShares_append, List.count_append, List.count_append]
      obtain ⟨rfl, channels, counter, same | joined⟩ |
        ⟨conn, act, handler, handler', rfl, found, handled, handlers⟩ :=
        StratumSystem.step_cases stepped
      · rw [same]
        exact ih
      · rw [joined, List.countP_append]
        exact ih
      · obtain ⟨inside, here⟩ := List.getElem?_eq_some_iff.mp found
        have counted : (creditedShares events).count key + handler'.pendingCount prim key ≤
            handler.pendingCount prim key + (passingShares prim events).count key :=
          handlerStep_count handled
        have within := @List.boole_getElem_le_countP _ (Handler.pendingShare prim key)
          system.handlers conn inside
        rw [handlers, List.countP_set inside]
        rw [here] at within ⊢
        simp only [Handler.pendingCount] at counted
        omega

/-- A step finds at most one solution, the one it looks up. -/
theorem passingShares_of_step {next : StratumSystem} {action : StratumAction}
    {events : List StratumEvent} (stepped : system.step prim action = some (next, events)) :
    passingShares prim events = [] ∨
      ∃ conn submit channel, system.lookup action = some (conn, submit, channel) ∧
        meetsTarget prim channel submit = true ∧ passingShares prim events = [submit.key] := by
  obtain ⟨rfl, -⟩ | ⟨conn, act, handler, handler', rfl, found, handled, -⟩ :=
    StratumSystem.step_cases stepped
  · exact .inl rfl
  · have handled' := handled
    generalize resultEq : (next.server, handler', events) = result at handled'
    cases handlerStep_shareEffect handled' with
    | idle idle silent =>
        cases resultEq
        left
        rw [passingShares, List.filterMap_eq_nil_iff]
        intro event member
        obtain ⟨cid, channel, rfl⟩ := silent event member
        rfl
    | found submit channel pending stored there =>
        cases resultEq
        obtain ⟨now, rfl⟩ := advance_of_found handled
        cases meets : meetsTarget prim channel submit with
        | false => exact .inl (by simp [passingShares, meets])
        | true => exact .inr ⟨conn, submit, channel, lookup_eq_some found pending stored, meets,
            by simp [passingShares, meets]⟩
    | sent | accepted | credited | answered =>
        cases resultEq
        exact .inl rfl

/-- Without repeated submissions every passing solution was found once. -/
theorem StratumRun.passing_nodup (run : StratumRun prim (NoRepeatedShare prim) trace system) :
    (passingShares prim trace).Nodup := by
  induction run with
  | start => exact .nil
  | @step trace system action next events run isAllowed stepped ih =>
      rw [passingShares_append]
      obtain none | ⟨conn, submit, channel, looked, meets, one⟩ := passingShares_of_step stepped
      · rw [none, List.append_nil]
        exact ih
      · rw [one, List.nodup_append]
        refine ⟨ih, List.nodup_singleton _, ?_⟩
        rintro key earlier _ last rfl
        cases List.mem_singleton.mp last
        exact isAllowed conn submit channel looked meets earlier

/-- The channel of a submission that was found had been opened. -/
theorem StratumRun.opened_of_found (run : StratumRun prim allowed trace system) {conn : Nat}
    {submit : SubmitShares} {channel : MiningChannel}
    (member : .found conn submit channel ∈ trace) :
    ∃ owner, ⟨owner, submit.channelId, channel⟩ ∈ openedChannels trace := by
  induction run with
  | start => cases member
  | @step trace system action next events run isAllowed stepped ih =>
      rw [openedChannels_append]
      rcases List.mem_append.mp member with earlier | now
      · obtain ⟨owner, opened⟩ := ih earlier
        exact ⟨owner, List.mem_append_left _ opened⟩
      · obtain ⟨rfl, -⟩ | ⟨conn', act, handler, handler', rfl, found, handled, -⟩ :=
          StratumSystem.step_cases stepped
        · cases now
        · generalize resultEq : (next.server, handler', events) = result at handled
          cases handlerStep_shareEffect handled with
          | idle idle silent =>
              cases resultEq
              obtain ⟨cid, channel', wrong⟩ := silent _ now
              cases wrong
          | found submit' channel' pending stored there =>
              cases resultEq
              cases List.mem_singleton.mp now
              obtain ⟨owner, ids, live, opened⟩ :=
                ((StratumRun.registry run).consistent.table_iff _ _).mp stored
              exact ⟨owner, List.mem_append_left _ opened⟩
          | sent | credited =>
              cases resultEq
              cases List.mem_singleton.mp now
          | accepted | answered =>
              cases resultEq
              cases now

theorem mem_passingShares {key : Nat × Nat × Nat} :
    key ∈ passingShares prim trace ↔ ∃ conn submit channel, .found conn submit channel ∈ trace ∧
      meetsTarget prim channel submit = true ∧ submit.key = key := by
  simp only [passingShares, List.mem_filterMap]
  constructor
  · rintro ⟨event, member, passes⟩
    cases event with
    | found conn submit channel =>
        simp only [Option.ite_none_right_eq_some, Option.some.injEq] at passes
        exact ⟨conn, submit, channel, member, passes⟩
    | issued | credited | sent => cases passes
  · rintro ⟨conn, submit, channel, member, meets, rfl⟩
    exact ⟨_, member, by simp [meets]⟩

theorem meetsTarget_congr {channel : MiningChannel} {submit submit' : SubmitShares}
    (same : submit.key = submit'.key) :
    meetsTarget prim channel submit = meetsTarget prim channel submit' := by
  simp only [SubmitShares.key, Prod.mk.injEq] at same
  rw [meetsTarget, meetsTarget, same.2.1, same.2.2]

/-- The channel of a solution that was found before and is not submitted again
is not open any more. -/
theorem StratumRun.closed_of_passing (run : StratumRun prim allowed trace system)
    {conn now : Nat} {handler : Handler} {submit : SubmitShares}
    (isAllowed : NoRepeatedShare prim trace system (.handle conn (.advance now)))
    (found : system.handlers[conn]? = some handler)
    (pending : handler.pendingSubmit = some submit)
    (passing : submit.key ∈ passingShares prim trace) :
    system.server.channels submit.channelId = none := by
  rw [Option.eq_none_iff_forall_not_mem]
  intro channel stored
  obtain ⟨conn', submit', channel', member, meets, same⟩ := mem_passingShares.mp passing
  have sameId : submit'.channelId = submit.channelId := congrArg Prod.fst same
  have consistent := run.registry.consistent
  obtain ⟨owner', opened'⟩ := run.opened_of_found member
  obtain ⟨owner, ids, live, opened⟩ := (consistent.table_iff _ channel).mp stored
  have sameChannel : channel' = channel :=
    congrArg Grant.value (consistent.eq_of_id_eq opened' opened sameId)
  subst sameChannel
  rw [meetsTarget_congr same] at meets
  exact isAllowed conn submit channel' (lookup_eq_some found pending stored) meets passing

/-- The answer to a submission whose channel is not open. -/
theorem step_of_closed {conn : Nat} (now : Nat) {handler : Handler} {submit : SubmitShares}
    (found : system.handlers[conn]? = some handler)
    (pending : handler.pendingSubmit = some submit)
    (closed : system.server.channels submit.channelId = none) :
    ∃ next handler', system.step prim (.handle conn (.advance now)) = some (next, []) ∧
      next.handlers[conn]? = some handler' ∧
      handler'.phase = .sending ⟨0, msgSubmitSharesError,
        encodeSubmitSharesError submit.channelId submit.sequenceNumber .channelNotFound⟩ none := by
  unfold Handler.pendingSubmit at pending
  split at pending
  · rename_i phase
    simp only [bind, Option.bind_eq_some_iff, Option.ite_none_right_eq_some] at pending
    obtain ⟨⟨frame, consumed⟩, decoded, isSubmit, read⟩ := pending
    have readOk : decodeSubmitSharesStandard frame.payload = .ok submit := by
      cases outcome : decodeSubmitSharesStandard frame.payload with
      | error error => simp [outcome, Except.toOption] at read
      | ok other => simpa [outcome, Except.toOption] using read
    have short : (encodeSubmitSharesError submit.channelId submit.sequenceNumber
        .channelNotFound).length = 26 := by
      simp [encodeSubmitSharesError, ShareError.code]
    have encoded : ∃ bytes, encodeSv2Frame ⟨0, msgSubmitSharesError, encodeSubmitSharesError
        submit.channelId submit.sequenceNumber .channelNotFound⟩ = .ok bytes := by
      rw [encodeSv2Frame, if_neg (by rw [short]; decide)]
      exact ⟨_, rfl⟩
    obtain ⟨bytes, encodedEq⟩ := encoded
    have notSetup : ¬ frame.msgType = msgSetupConnection := by
      rw [isSubmit]
      decide
    have notOpen : ¬ frame.msgType = msgOpenStandardMiningChannel := by
      rw [isSubmit]
      decide
    have inside := (List.getElem?_eq_some_iff.mp found).1
    simp only [StratumSystem.step, found, StratumV2Server.handlerStep, StratumV2Server.advance,
      phase, decoded, StratumV2Server.processMessage, if_neg notSetup, if_neg notOpen,
      if_pos isSubmit, readOk, StratumV2Server.findChannel, closed, Handler.reply, encodedEq,
      bind, Option.bind_some]
    exact ⟨_, _, rfl, List.getElem?_set_self inside, rfl⟩
  · cases pending

/-- As long as no solution that meets the target is submitted again on its open
channel, no solution is counted twice, and a submission of a counted solution is
answered with an error. -/
theorem StratumRun.credited_once (run : StratumRun prim (NoRepeatedShare prim) trace system) :
    (creditedShares trace).Nodup ∧
      ∀ (conn now : Nat) (handler : Handler) (submit : SubmitShares),
        NoRepeatedShare prim trace system (.handle conn (.advance now)) →
        system.handlers[conn]? = some handler → handler.pendingSubmit = some submit →
        submit.key ∈ creditedShares trace →
        ∃ next handler', system.step prim (.handle conn (.advance now)) = some (next, []) ∧
          next.handlers[conn]? = some handler' ∧
          handler'.phase = .sending ⟨0, msgSubmitSharesError, encodeSubmitSharesError
            submit.channelId submit.sequenceNumber .channelNotFound⟩ none := by
  have counted (key : Nat × Nat × Nat) :
      (creditedShares trace).count key ≤ (passingShares prim trace).count key :=
    le_trans (Nat.le_add_right _ _) (run.credited_le_passing key)
  constructor
  · rw [List.nodup_iff_count_le_one]
    intro key
    exact (counted key).trans (List.nodup_iff_count_le_one.mp run.passing_nodup key)
  · intro conn now handler submit isAllowed found pending credited
    have passing : submit.key ∈ passingShares prim trace :=
      List.count_pos_iff.mp (lt_of_lt_of_le (List.count_pos_iff.mpr credited) (counted _))
    exact step_of_closed now found pending
      (run.closed_of_passing isAllowed found pending passing)

end Repeats

/-! ## Sample submissions -/

/-- A submission on the first channel. -/
def sampleSubmit (sequenceNumber : Nat) : SubmitShares :=
  ⟨1, sequenceNumber, 556983, 1700000000⟩

def submitMessage (submit : SubmitShares) : Bytes :=
  sv2Message msgSubmitSharesStandard (leBytes 4 submit.channelId ++
    leBytes 4 submit.sequenceNumber ++ leBytes 4 submit.nonce ++ leBytes 4 submit.ntime)

/-- The hash of the header of the sample submission. -/
def sharePrimitives : Primitives :=
  .ofDigests [(shareHeader 0 1700000000 556983,
    0x0000040382021589260534fb9663f894e3ab5e52873da585f6308e5dea21cb5f)]

/-- A waiting connection submits a share, up to the answer. -/
def submittingSteps (conn : Nat) (submit : SubmitShares) : List StratumAction :=
  .handle conn (.receive (submitMessage submit)) :: List.replicate 7 (.handle conn (.advance 0))

/-- The second submission repeats the first under another sequence number. -/
def replaySteps : List StratumAction :=
  openingSteps 0 ++ submittingSteps 0 (sampleSubmit 1) ++ submittingSteps 0 (sampleSubmit 2)

theorem replayedShare_credited_twice :
    ∃ trace system, StratumRun sharePrimitives (fun _ _ _ => True) trace system ∧
      ¬ (creditedShares trace).Nodup := by
  have computed : (TraceRuns.follow (StratumSystem.step sharePrimitives) (fun _ _ _ => True) []
      .initial replaySteps).any (fun result => ¬ (creditedShares result.1).Nodup) = true := by
    decide
  obtain ⟨⟨trace, system⟩, taken, shown⟩ := (Option.any_eq_true _ _).mp computed
  exact ⟨trace, system, TraceRuns.Run.start.of_follow taken, of_decide_eq_true shown⟩

/-- The second connection submits a share on the channel of the first one, up to
the step that counts it. -/
def foreignSteps : List StratumAction :=
  openingSteps 0 ++ [.accept, .handle 1 (.advance 0)] ++ (submittingSteps 1 (sampleSubmit 1)).take 3

theorem foreignShare_credited :
    ∃ trace system next events, StratumRun sharePrimitives (fun _ _ _ => True) trace system ∧
      system.step sharePrimitives (.handle 1 (.advance 0)) = some (next, events) ∧
      ¬ SharesIsolated system events := by
  have computed : (TraceRuns.follow (StratumSystem.step sharePrimitives) (fun _ _ _ => True) []
      .initial foreignSteps).any (fun result =>
        (result.2.step sharePrimitives (.handle 1 (.advance 0))).any (fun stepped =>
          .credited 1 (sampleSubmit 1) ∈ stepped.2) ∧ ¬ result.2.Holds 1 1) = true := by
    decide
  obtain ⟨⟨trace, system⟩, taken, shown⟩ := (Option.any_eq_true _ _).mp computed
  obtain ⟨counted, notHeld⟩ := of_decide_eq_true shown
  obtain ⟨⟨next, events⟩, stepped, member⟩ := (Option.any_eq_true _ _).mp counted
  exact ⟨trace, system, next, events, TraceRuns.Run.start.of_follow taken, stepped,
    fun isolated => notHeld (isolated.1 _ _ (of_decide_eq_true member))⟩

instance (prim : Primitives) (trace : List StratumEvent) (system : StratumSystem)
    (action : StratumAction) : Decidable (NoRepeatedShare prim trace system action) :=
  match looked : system.lookup action with
  | none => isTrue fun _ _ _ other => by cases looked.symm.trans other
  | some (conn, submit, channel) =>
      decidable_of_iff
        (meetsTarget prim channel submit = true → submit.key ∉ passingShares prim trace)
        ⟨fun holds _ _ _ other => by cases looked.symm.trans other; exact holds,
          fun holds => holds conn submit channel looked⟩

instance (prim : Primitives) (trace : List StratumEvent) (system : StratumSystem)
    (action : StratumAction) : Decidable (NoForeignShare prim trace system action) :=
  match looked : system.lookup action with
  | none => isTrue fun _ _ _ other => by cases looked.symm.trans other
  | some (conn, submit, channel) =>
      decidable_of_iff
        (meetsTarget prim channel submit = true → ∀ other < system.handlers.length,
          system.Holds other submit.channelId → other = conn)
        ⟨fun holds _ _ _ other => by
          cases looked.symm.trans other
          rintro meets other ⟨handler, found, isHeld⟩
          exact holds meets other (List.getElem?_eq_some_iff.mp found).1 ⟨handler, found, isHeld⟩,
          fun holds meets other _ => holds conn submit channel looked meets other⟩

/-- One connection submits a share on its own channel. -/
theorem sampleSubmit_credited_once :
    ∃ trace system, creditedShares trace = [(sampleSubmit 1).key] ∧
      StratumRun sharePrimitives (NoRepeatedShare sharePrimitives) trace system ∧
      (creditedShares trace).Nodup := by
  have computed : (TraceRuns.follow (StratumSystem.step sharePrimitives)
      (NoRepeatedShare sharePrimitives) [] .initial (openingSteps 0 ++ submittingSteps 0
        (sampleSubmit 1))).any (fun result => creditedShares result.1 = [(sampleSubmit 1).key]) =
        true := by
    decide
  obtain ⟨⟨trace, system⟩, taken, shown⟩ := (Option.any_eq_true _ _).mp computed
  have run := TraceRuns.Run.start.of_follow taken
  exact ⟨trace, system, of_decide_eq_true shown, run, (StratumRun.credited_once run).1⟩

theorem sampleSubmit_isolated :
    ∃ trace system next events,
      StratumRun sharePrimitives (NoForeignShare sharePrimitives) trace system ∧
      system.step sharePrimitives (.handle 0 (.advance 0)) = some (next, events) ∧
      .credited 0 (sampleSubmit 1) ∈ events ∧ system.Holds 0 1 := by
  have computed : (TraceRuns.follow (StratumSystem.step sharePrimitives)
      (NoForeignShare sharePrimitives) [] .initial (openingSteps 0 ++ (submittingSteps 0
        (sampleSubmit 1)).take 3)).any (fun result =>
          (result.2.step sharePrimitives (.handle 0 (.advance 0))).any (fun stepped =>
            .credited 0 (sampleSubmit 1) ∈ stepped.2)) = true := by
    decide
  obtain ⟨⟨trace, system⟩, taken, counted⟩ := (Option.any_eq_true _ _).mp computed
  obtain ⟨⟨next, events⟩, stepped, member⟩ := (Option.any_eq_true _ _).mp counted
  have run := TraceRuns.Run.start.of_follow taken
  exact ⟨trace, system, next, events, run, stepped, of_decide_eq_true member,
    (StratumRun.sharesIsolated run stepped).1.1 _ _ (of_decide_eq_true member)⟩

end QuantyCoin
