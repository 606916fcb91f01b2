import QuantyCoin.MiningEngine
import QuantyCoin.StridedSearch
import Mathlib.Logic.Relation

/-!
# The search of a mining round

`_solo_mining_loop` starts as many workers as it has threads, each at its own
index and with the number of threads as its stride.  The workers interleave in
any way; nobody clears their flags.  Each of them searches the nonces of one
residue class, and what it hashes and compares is the header that the engine
would submit.
-/

namespace QuantyCoin

open ByteDecoder StridedSearch

/-! ## Rounds -/

/-- The workers of a round and the fields they share. -/
structure MiningRound where
  engine : MiningEngine
  pool : List MiningWorker

inductive RoundEvent
  /-- A worker hashed a nonce. -/
  | tried (tIdx nonce : Nat)
  /-- A worker called `_on_block_found`. -/
  | reported (tIdx nonce : Nat)
  deriving DecidableEq

/-- The nonce of a report. -/
def MiningEvent.reportedNonce : MiningEvent → Option Nat
  | .reported _ nonce => some nonce
  | .built _ _ => none

namespace MiningRound

/-- The round behind the loop that launches its workers. -/
def launched (system : MiningSystem) (job : MiningJob) : MiningRound :=
  ⟨system.engine, (List.range system.engine.threads).map (system.launch job)⟩

/-- What a step of a worker shows. -/
def eventsOf (tIdx : Nat) (worker : MiningWorker) (events : List MiningEvent) :
    List RoundEvent :=
  (if worker.phase = .hashing then [.tried tIdx worker.nonce] else []) ++
    (events.filterMap MiningEvent.reportedNonce).map (.reported tIdx)

/-- A step of one of the workers. -/
def step (prim : Primitives) (round : MiningRound) (tIdx : Nat) :
    Option (MiningRound × List RoundEvent) := do
  let worker ← round.pool[tIdx]?
  let (engine, next, events) ← MiningSystem.workerStep prim round.engine worker
  some (⟨engine, round.pool.set tIdx next⟩, eventsOf tIdx worker events)

/-- The workers have run to completion. -/
def Completed (round : MiningRound) : Prop := ∀ worker ∈ round.pool, worker.phase = .done

end MiningRound

/-- Runs of the workers of a round from their launch. -/
abbrev RoundRun (prim : Primitives) (system : MiningSystem) (job : MiningJob) :
    List RoundEvent → MiningRound → Prop :=
  TraceRuns.Run (MiningRound.step prim) (.launched system job) fun _ _ _ => True

/-- The system after `count` launches of `_solo_mining_loop`: the workers of the round stand
behind those of earlier rounds. -/
def MiningSystem.afterLaunches (system : MiningSystem) (job : MiningJob) (count : Nat) :
    MiningSystem :=
  { system with
    engine := { system.engine with
      workers := system.engine.workers ++
        (List.range count).map (system.pool.length + ·) }
    phase := .launching job count
    pool := system.pool ++ (List.range count).map (system.launch job) }

theorem loopStep_launches (system : MiningSystem) (job : MiningJob) {count : Nat}
    (within : count < system.engine.threads) (refresh : Bool) :
    (system.afterLaunches job count).loopStep refresh =
      some (system.afterLaunches job (count + 1), []) := by
  have index : (system.pool ++ (List.range count).map (system.launch job)).length =
      system.pool.length + count := by simp
  simp only [MiningSystem.loopStep, MiningSystem.afterLaunches, if_pos within, index,
    List.range_succ, List.map_append, List.append_assoc]
  rfl

/-- The launches end with the workers of the round behind those of earlier rounds. -/
theorem launches_end (system : MiningSystem) (job : MiningJob)
    (launching : system.phase = .launching job 0) :
    Relation.ReflTransGen
      (fun before after => ∃ refresh, MiningSystem.loopStep before refresh = some (after, []))
      system
      { system with
        engine := { system.engine with
          workers := system.engine.workers ++
            (List.range system.engine.threads).map (system.pool.length + ·) }
        phase := .monitoring job
        pool := system.pool ++ (MiningRound.launched system job).pool } := by
  have run : ∀ count ≤ system.engine.threads, Relation.ReflTransGen
      (fun before after => ∃ refresh, MiningSystem.loopStep before refresh = some (after, []))
      system (system.afterLaunches job count) := by
    intro count within
    induction count with
    | zero =>
        have start : system.afterLaunches job 0 = system := by
          simp [MiningSystem.afterLaunches, ← launching]
        rw [start]
    | succ count ih =>
        exact .tail (ih (by omega)) ⟨false, loopStep_launches system job (by omega) false⟩
  refine .tail (run _ le_rfl) ⟨false, ?_⟩
  simp only [MiningSystem.loopStep, MiningSystem.afterLaunches, lt_irrefl, if_false]
  rfl

/-! ## What a trace shows -/

namespace RoundEvent

def tIdx : RoundEvent → Nat
  | .tried tIdx _ | .reported tIdx _ => tIdx

def triedNonce : RoundEvent → Option Nat
  | .tried _ nonce => some nonce
  | .reported _ _ => none

def reportedNonce : RoundEvent → Option Nat
  | .tried _ _ => none
  | .reported _ nonce => some nonce

end RoundEvent

/-- The nonces that were hashed. -/
def triedNonces (trace : List RoundEvent) : List Nat := trace.filterMap RoundEvent.triedNonce

/-- The nonces that were reported. -/
def reportedNonces (trace : List RoundEvent) : List Nat :=
  trace.filterMap RoundEvent.reportedNonce

/-- The part of a trace that one worker shows. -/
def shownBy (tIdx : Nat) (trace : List RoundEvent) : List RoundEvent :=
  trace.filter fun event => event.tIdx = tIdx

section Traces

variable {trace events : List RoundEvent} {tIdx nonce : Nat}

theorem triedNonces_append :
    triedNonces (trace ++ events) = triedNonces trace ++ triedNonces events :=
  List.filterMap_append

theorem reportedNonces_append :
    reportedNonces (trace ++ events) = reportedNonces trace ++ reportedNonces events :=
  List.filterMap_append

theorem shownBy_append :
    shownBy tIdx (trace ++ events) = shownBy tIdx trace ++ shownBy tIdx events :=
  List.filter_append _ _

theorem shownBy_self (own : ∀ event ∈ events, event.tIdx = tIdx) : shownBy tIdx events = events :=
  List.filter_eq_self.mpr (by simpa using own)

theorem shownBy_other {other : Nat} (differ : tIdx ≠ other)
    (own : ∀ event ∈ events, event.tIdx = other) : shownBy tIdx events = [] := by
  rw [shownBy, List.filter_eq_nil_iff]
  intro event member
  simpa [own event member] using differ.symm

theorem mem_triedNonces_iff :
    nonce ∈ triedNonces trace ↔ ∃ tIdx, nonce ∈ triedNonces (shownBy tIdx trace) := by
  simp only [triedNonces, shownBy, List.mem_filterMap, List.mem_filter, decide_eq_true_eq]
  constructor
  · rintro ⟨event, member, isNonce⟩
    exact ⟨event.tIdx, event, ⟨member, rfl⟩, isNonce⟩
  · rintro ⟨tIdx, event, ⟨member, -⟩, isNonce⟩
    exact ⟨event, member, isNonce⟩

theorem mem_reportedNonces_iff :
    nonce ∈ reportedNonces trace ↔ ∃ tIdx, nonce ∈ reportedNonces (shownBy tIdx trace) := by
  simp only [reportedNonces, shownBy, List.mem_filterMap, List.mem_filter, decide_eq_true_eq]
  constructor
  · rintro ⟨event, member, isNonce⟩
    exact ⟨event.tIdx, event, ⟨member, rfl⟩, isNonce⟩
  · rintro ⟨tIdx, event, ⟨member, -⟩, isNonce⟩
    exact ⟨event, member, isNonce⟩

theorem mem_shownBy_of_tried (tried : nonce ∈ triedNonces (shownBy tIdx trace)) :
    ∃ event ∈ trace, event.tIdx = tIdx := by
  obtain ⟨event, member, -⟩ := List.mem_filterMap.mp tried
  obtain ⟨inTrace, own⟩ := List.mem_filter.mp member
  exact ⟨event, inTrace, by simpa using own⟩

end Traces

/-! ## One worker -/

/-- The nonces of four bytes. -/
def nonceBound : Nat := 2 ^ 32

/-- The header of a job with a nonce passes `verify_pow`. -/
def MiningJob.Solves (prim : Primitives) (job : MiningJob) (nonce : Nat) : Prop :=
  (job.solvedHeader nonce).verifyPow prim = true

/-- Where a worker of a round is, and what it has shown: it has tried the first
nonces of its class, none of them a solution but perhaps the last. -/
inductive Searches (prim : Primitives) (job : MiningJob) (threads tIdx : Nat) :
    WorkerPhase → Nat → List Nat → List Nat → Prop
  | checking {count : Nat} (missed : Missed (job.Solves prim) nonceBound threads tIdx count) :
      Searches prim job threads tIdx .checking (tIdx + threads * count)
        (visits threads tIdx count) []
  | hashing {count : Nat} (missed : Missed (job.Solves prim) nonceBound threads tIdx count)
      (inside : tIdx + threads * count < nonceBound) :
      Searches prim job threads tIdx .hashing (tIdx + threads * count)
        (visits threads tIdx count) []
  | reporting {count : Nat} {h : Bytes}
      (missed : Missed (job.Solves prim) nonceBound threads tIdx count)
      (inside : tIdx + threads * count < nonceBound)
      (solves : job.Solves prim (tIdx + threads * count)) :
      Searches prim job threads tIdx (.reporting h) (tIdx + threads * count)
        (visits threads tIdx (count + 1)) []
  | signalling {count : Nat}
      (missed : Missed (job.Solves prim) nonceBound threads tIdx count)
      (inside : tIdx + threads * count < nonceBound)
      (solves : job.Solves prim (tIdx + threads * count)) :
      Searches prim job threads tIdx .signalling (tIdx + threads * count)
        (visits threads tIdx (count + 1)) [tIdx + threads * count]
  | done {count nonce : Nat} {result : Option Nat}
      (finished : Finished (job.Solves prim) nonceBound threads tIdx count result) :
      Searches prim job threads tIdx .done nonce (visits threads tIdx count) result.toList

/-- A worker that the round launched and nobody has stopped. -/
structure MiningWorker.OfRound (system : MiningSystem) (job : MiningJob)
    (worker : MiningWorker) : Prop where
  nonceStride : worker.nonceStride = system.engine.threads
  headerPrefix : worker.headerPrefix = job.headerPrefix
  target : worker.target = job.target
  powType : worker.powType = system.engine.powType
  isRunning : worker.isRunning = true

section Worker

variable {prim : Primitives} {system : MiningSystem} {job : MiningJob}
  {engine engine' : MiningEngine}
  {worker worker' : MiningWorker} {events : List MiningEvent} {tIdx : Nat}
  {tried reported : List Nat}

theorem eventsOf_own : ∀ event ∈ MiningRound.eventsOf tIdx worker events, event.tIdx = tIdx := by
  intro event member
  rcases List.mem_append.mp member with hashed | shown
  · split_ifs at hashed
    · rw [List.mem_singleton.mp hashed]
      rfl
    · cases hashed
  · obtain ⟨nonce, -, rfl⟩ := List.mem_map.mp shown
    rfl

theorem triedNonces_eventsOf : triedNonces (MiningRound.eventsOf tIdx worker events) =
    if worker.phase = .hashing then [worker.nonce] else [] := by
  have none : (((events.filterMap MiningEvent.reportedNonce).map (.reported tIdx)).filterMap
      RoundEvent.triedNonce) = [] := by
    rw [List.filterMap_eq_nil_iff]
    intro event member
    obtain ⟨nonce, -, rfl⟩ := List.mem_map.mp member
    rfl
  rw [MiningRound.eventsOf, triedNonces_append, triedNonces, triedNonces, none, List.append_nil]
  split_ifs <;> rfl

theorem reportedNonces_eventsOf : reportedNonces (MiningRound.eventsOf tIdx worker events) =
    events.filterMap MiningEvent.reportedNonce := by
  have all (nonces : List Nat) :
      (nonces.map (.reported tIdx)).filterMap RoundEvent.reportedNonce = nonces := by
    rw [List.filterMap_map]
    exact List.filterMap_some
  rw [MiningRound.eventsOf, reportedNonces_append, reportedNonces, reportedNonces, all]
  split_ifs <;> rfl

/-- A step of a worker goes on with its search, and tries at most the next nonce
of its class. -/
theorem searches_workerStep (consistent : job.Consistent system.engine.powType)
    (ofRound : worker.OfRound system job)
    (searches : Searches prim job system.engine.threads tIdx worker.phase worker.nonce tried
      reported)
    (stepped : MiningSystem.workerStep prim engine worker = some (engine', worker', events)) :
    worker'.OfRound system job ∧
      Searches prim job system.engine.threads tIdx worker'.phase worker'.nonce
        (tried ++ triedNonces (MiningRound.eventsOf tIdx worker events))
        (reported ++ reportedNonces (MiningRound.eventsOf tIdx worker events)) ∧
      (worker.phase = .hashing → ∃ count, tried = visits system.engine.threads tIdx count ∧
        worker.nonce = tIdx + system.engine.threads * count) := by
  rw [triedNonces_eventsOf, reportedNonces_eventsOf]
  have test := fun fits => @MiningJob.verifyPow_solvedHeader_iff prim _ _ consistent worker
    ofRound.headerPrefix ofRound.target ofRound.powType worker.nonce fits
  obtain ⟨round, nonce, nonceStride, headerPrefix, target, powType, isRunning, phase⟩ := worker
  obtain ⟨rfl, rfl, rfl, rfl, rfl⟩ := ofRound
  dsimp only at searches test ⊢
  cases searches with
  | @checking count missed =>
      simp only [MiningSystem.workerStep, Bool.true_and, decide_eq_true_eq] at stepped
      split_ifs at stepped with inside
      · cases stepped
        refine ⟨⟨rfl, rfl, rfl, rfl, rfl⟩, ?_, by simp⟩
        simpa using Searches.hashing missed (by rw [nonceBound]; omega)
      · cases stepped
        refine ⟨⟨rfl, rfl, rfl, rfl, rfl⟩, ?_, by simp⟩
        simpa using Searches.done (.exhausted missed (by rw [nonceBound]; omega))
  | @hashing count missed inside =>
      have fits : tIdx + system.engine.threads * count ≤ 0xFFFFFFFF := by
        rw [nonceBound] at inside
        omega
      simp only [MiningSystem.workerStep, ← test fits] at stepped
      split_ifs at stepped with solves
      · cases stepped
        refine ⟨⟨rfl, rfl, rfl, rfl, rfl⟩, ?_, fun _ => ⟨count, rfl, rfl⟩⟩
        simpa [visits_succ] using Searches.reporting missed inside solves
      · cases stepped
        refine ⟨⟨rfl, rfl, rfl, rfl, rfl⟩, ?_, fun _ => ⟨count, rfl, rfl⟩⟩
        simpa [visits_succ, Nat.mul_succ, Nat.add_assoc] using
          Searches.checking (missed.succ inside solves)
  | @reporting count h missed inside solves =>
      cases stepped
      refine ⟨⟨rfl, rfl, rfl, rfl, rfl⟩, ?_, by simp⟩
      simpa [MiningEvent.reportedNonce] using Searches.signalling missed inside solves
  | @signalling count missed inside solves =>
      cases stepped
      refine ⟨⟨rfl, rfl, rfl, rfl, rfl⟩, ?_, by simp⟩
      simpa using Searches.done (.found missed inside solves)
  | done finished => cases stepped

theorem Searches.tried_eq {threads nonce : Nat} {phase : WorkerPhase}
    (searches : Searches prim job threads tIdx phase nonce tried reported) :
    ∃ count, tried = visits threads tIdx count := by
  cases searches with
  | checking | hashing | reporting | signalling | done => exact ⟨_, rfl⟩

theorem Searches.tried_lt {threads nonce other : Nat} {phase : WorkerPhase}
    (searches : Searches prim job threads tIdx phase nonce tried reported)
    (member : other ∈ tried) : other < nonceBound := by
  -- a hit has been tried behind the nonces that were none
  have lastToo {count : Nat} (missed : Missed (job.Solves prim) nonceBound threads tIdx count)
      (inside : tIdx + threads * count < nonceBound)
      (within : other ∈ visits threads tIdx (count + 1)) : other < nonceBound := by
    rw [visits_succ, List.mem_append, List.mem_singleton] at within
    rcases within with earlier | rfl
    · exact missed.visits_lt earlier
    · exact inside
  cases searches with
  | checking missed | hashing missed => exact missed.visits_lt member
  | reporting missed inside | signalling missed inside => exact lastToo missed inside member
  | done finished =>
      cases finished with
      | found missed inside => exact lastToo missed inside member
      | exhausted missed => exact missed.visits_lt member

theorem Searches.nonce_lt {threads nonce : Nat} {phase : WorkerPhase}
    (searches : Searches prim job threads tIdx phase nonce tried reported)
    (isHashing : phase = .hashing) : nonce < nonceBound := by
  cases searches with
  | hashing missed inside => exact inside
  | checking | reporting | signalling | done => cases isHashing

/-- A report is a solution. -/
theorem Searches.reported_sound {threads nonce other : Nat} {phase : WorkerPhase}
    (searches : Searches prim job threads tIdx phase nonce tried reported)
    (shown : other ∈ reported) : other < nonceBound ∧ job.Solves prim other := by
  cases searches with
  | checking | hashing | reporting => cases shown
  | signalling missed inside solves =>
      cases List.mem_singleton.mp shown
      exact ⟨inside, solves⟩
  | done finished => exact finished.sound (Option.mem_toList.mp shown)

theorem Searches.finished {threads nonce : Nat} {phase : WorkerPhase}
    (searches : Searches prim job threads tIdx phase nonce tried reported)
    (isDone : phase = .done) :
    ∃ count result, tried = visits threads tIdx count ∧ reported = result.toList ∧
      Finished (job.Solves prim) nonceBound threads tIdx count result := by
  cases searches with
  | checking | hashing | reporting | signalling => cases isDone
  | done finished => exact ⟨_, _, rfl, rfl, finished⟩

end Worker

/-! ## All workers -/

/-- Every worker of a round searches, and the trace shows what they have done. -/
structure MiningRound.Invariant (prim : Primitives) (system : MiningSystem) (job : MiningJob)
    (trace : List RoundEvent) (round : MiningRound) : Prop where
  length_eq : round.pool.length = system.engine.threads
  owned : ∀ event ∈ trace, event.tIdx < system.engine.threads
  worker : ∀ (tIdx : Nat) (worker : MiningWorker), round.pool[tIdx]? = some worker →
    worker.OfRound system job ∧
      Searches prim job system.engine.threads tIdx worker.phase worker.nonce
        (triedNonces (shownBy tIdx trace)) (reportedNonces (shownBy tIdx trace))
  nodup : (triedNonces trace).Nodup

section Pool

variable {prim : Primitives} {system : MiningSystem} {job : MiningJob} {trace : List RoundEvent}
  {round next : MiningRound} {events : List RoundEvent} {tIdx : Nat}

theorem MiningRound.step_eq_some (stepped : round.step prim tIdx = some (next, events)) :
    ∃ worker worker' shown, round.pool[tIdx]? = some worker ∧
      MiningSystem.workerStep prim round.engine worker = some (next.engine, worker', shown) ∧
      next.pool = round.pool.set tIdx worker' ∧ events = eventsOf tIdx worker shown := by
  simp only [step, bind, Option.bind_eq_some_iff] at stepped
  obtain ⟨worker, found, ⟨engine, worker', shown⟩, worked, result⟩ := stepped
  cases result
  exact ⟨worker, worker', shown, found, worked, rfl, rfl⟩

theorem invariant_launched : (MiningRound.launched system job).Invariant prim system job [] where
  length_eq := by rw [MiningRound.launched, List.length_map, List.length_range]
  owned event member := by cases member
  worker tIdx worker found := by
    rw [MiningRound.launched, List.getElem?_map, Option.map_eq_some_iff] at found
    obtain ⟨index, inside, rfl⟩ := found
    obtain ⟨inRange, rfl⟩ := List.getElem?_eq_some_iff.mp inside
    rw [List.getElem_range]
    refine ⟨⟨rfl, rfl, rfl, rfl, rfl⟩, ?_⟩
    have missed : Missed (job.Solves prim) nonceBound system.engine.threads tIdx 0 := by
      intro index before
      cases before
    simpa [visits, MiningSystem.launch, shownBy, triedNonces, reportedNonces] using
      Searches.checking missed
  nodup := List.nodup_nil

theorem MiningRound.Invariant.searches (invariant : round.Invariant prim system job trace)
    (below : tIdx < system.engine.threads) : ∃ worker ∈ round.pool,
      Searches prim job system.engine.threads tIdx worker.phase worker.nonce
        (triedNonces (shownBy tIdx trace)) (reportedNonces (shownBy tIdx trace)) := by
  have inside : tIdx < round.pool.length := by rwa [invariant.length_eq]
  have found := List.getElem?_eq_getElem inside
  exact ⟨_, List.mem_of_getElem? found, (invariant.worker tIdx _ found).2⟩

/-- The class of a nonce shows which worker has tried it. -/
theorem MiningRound.Invariant.mem_triedNonces_iff
    (invariant : round.Invariant prim system job trace) {nonce : Nat} : nonce ∈ triedNonces trace ↔
      nonce ∈ triedNonces (shownBy (nonce % system.engine.threads) trace) := by
  refine ⟨fun tried => ?_, fun shown => QuantyCoin.mem_triedNonces_iff.mpr ⟨_, shown⟩⟩
  obtain ⟨tIdx, shown⟩ := QuantyCoin.mem_triedNonces_iff.mp tried
  obtain ⟨event, member, rfl⟩ := mem_shownBy_of_tried shown
  have below := invariant.owned event member
  obtain ⟨worker, -, searches⟩ := invariant.searches below
  obtain ⟨count, own⟩ := searches.tried_eq
  have ownClass : nonce % system.engine.threads = event.tIdx := by
    rw [own] at shown
    exact ((mem_visits_iff below).mp shown).1
  rwa [ownClass]

/-- The next nonce of a worker is new: the other workers try those of other
classes. -/
theorem not_mem_triedNonces (invariant : round.Invariant prim system job trace) {count : Nat}
    (below : tIdx < system.engine.threads)
    (own : triedNonces (shownBy tIdx trace) = visits system.engine.threads tIdx count) :
    tIdx + system.engine.threads * count ∉ triedNonces trace := by
  intro earlier
  have shown := invariant.mem_triedNonces_iff.mp earlier
  rw [Nat.add_mul_mod_self_left, Nat.mod_eq_of_lt below, own] at shown
  have later := ((mem_visits_iff below).mp shown).2
  rw [Nat.add_mul_div_left _ _ (by omega), Nat.div_eq_of_lt below] at later
  omega

theorem invariant_roundStep (consistent : job.Consistent system.engine.powType)
    (invariant : round.Invariant prim system job trace)
    (stepped : round.step prim tIdx = some (next, events)) :
    next.Invariant prim system job (trace ++ events) := by
  obtain ⟨worker, worker', shown, found, worked, pool, rfl⟩ := MiningRound.step_eq_some stepped
  have below : tIdx < round.pool.length := (List.getElem?_eq_some_iff.mp found).1
  have belowThreads : tIdx < system.engine.threads := by rwa [← invariant.length_eq]
  obtain ⟨ofRound, searches⟩ := invariant.worker tIdx worker found
  obtain ⟨ofRound', searches', hashed⟩ :=
    searches_workerStep consistent ofRound searches worked
  refine ⟨?_, ?_, ?_, ?_⟩
  · rw [pool, List.length_set, invariant.length_eq]
  · intro event member
    rcases List.mem_append.mp member with earlier | new
    · exact invariant.owned event earlier
    · rwa [eventsOf_own event new]
  · intro other otherWorker otherFound
    rw [pool, List.getElem?_set] at otherFound
    split_ifs at otherFound with same
    · cases otherFound
      cases same
      rw [shownBy_append, triedNonces_append, reportedNonces_append, shownBy_self eventsOf_own]
      exact ⟨ofRound', searches'⟩
    · rw [shownBy_append, shownBy_other (Ne.symm same) eventsOf_own, List.append_nil]
      exact invariant.worker other otherWorker otherFound
  · rw [triedNonces_append, triedNonces_eventsOf]
    split_ifs with isHashing
    · obtain ⟨count, own, nonce⟩ := hashed isHashing
      rw [nonce]
      exact List.nodup_append.mpr ⟨invariant.nodup, by simp, by
        rintro earlier member new isNew rfl
        cases List.mem_singleton.mp isNew
        exact not_mem_triedNonces invariant belowThreads own member⟩
    · rw [List.append_nil]
      exact invariant.nodup

theorem RoundRun.invariant (consistent : job.Consistent system.engine.powType)
    (run : RoundRun prim system job trace round) : round.Invariant prim system job trace := by
  apply TraceRuns.Run.invariant invariant_launched _ run
  intro trace round tIdx next events _ invariant _ stepped
  exact invariant_roundStep consistent invariant stepped

/-! ## Termination -/

/-- The steps a worker has left at most. -/
def MiningWorker.stepsLeft (worker : MiningWorker) : Nat :=
  match worker.phase with
  | .checking => 2 * (nonceBound - worker.nonce) + 4
  | .hashing => 2 * (nonceBound - worker.nonce) + 3
  | .reporting _ => 2
  | .signalling => 1
  | .done => 0

theorem workerStep_isSome {engine : MiningEngine} {worker : MiningWorker}
    (left : worker.phase ≠ .done) : ∃ engine' worker' events,
    MiningSystem.workerStep prim engine worker = some (engine', worker', events) := by
  cases phase : worker.phase with
  | done => exact absurd phase left
  | checking | hashing =>
      simp only [MiningSystem.workerStep, phase]
      split_ifs <;> exact ⟨_, _, _, rfl⟩
  | reporting | signalling =>
      simp only [MiningSystem.workerStep, phase]
      exact ⟨_, _, _, rfl⟩

theorem stepsLeft_workerStep {engine engine' : MiningEngine} {worker worker' : MiningWorker}
    {shown : List MiningEvent} (positive : 0 < worker.nonceStride)
    (inside : worker.phase = .hashing → worker.nonce < nonceBound)
    (stepped : MiningSystem.workerStep prim engine worker = some (engine', worker', shown)) :
    worker'.stepsLeft < worker.stepsLeft := by
  cases phase : worker.phase with
  | done =>
      rw [MiningSystem.workerStep, phase] at stepped
      cases stepped
  | checking =>
      simp only [MiningSystem.workerStep, phase] at stepped
      split_ifs at stepped <;> cases stepped <;> simp [MiningWorker.stepsLeft, phase]
  | hashing =>
      have below := inside phase
      simp only [MiningSystem.workerStep, phase] at stepped
      split_ifs at stepped <;> cases stepped <;> simp only [MiningWorker.stepsLeft, phase] <;> omega
  | reporting | signalling =>
      simp only [MiningSystem.workerStep, phase] at stepped
      cases stepped
      simp [MiningWorker.stepsLeft, phase]

theorem sum_map_set_lt {α : Type*} (measure : α → Nat) {item item' : α}
    (smaller : measure item' < measure item) : ∀ (items : List α) (index : Nat),
    items[index]? = some item →
      ((items.set index item').map measure).sum < (items.map measure).sum
  | [], index, found => by cases found
  | first :: rest, 0, found => by
      cases found
      simpa using smaller
  | first :: rest, index + 1, found => by
      have later := sum_map_set_lt measure smaller rest index found
      simpa using later

/-- The workers of a round run to completion whatever they have done so far. -/
theorem RoundRun.exists_completed (positive : 1 ≤ system.engine.threads)
    (consistent : job.Consistent system.engine.powType)
    (run : RoundRun prim system job trace round) : ∃ events last,
    RoundRun prim system job (trace ++ events) last ∧ last.Completed := by
  -- every step of a worker brings the round closer to its end
  induction left : (round.pool.map MiningWorker.stepsLeft).sum using Nat.strong_induction_on
    generalizing trace round with
  | h sum ih =>
      by_cases completed : round.Completed
      · exact ⟨[], round, by rwa [List.append_nil], completed⟩
      · simp only [MiningRound.Completed, not_forall] at completed
        obtain ⟨worker, member, unfinished⟩ := completed
        obtain ⟨tIdx, found⟩ := List.mem_iff_getElem?.mp member
        obtain ⟨engine', worker', shown, worked⟩ :=
          @workerStep_isSome prim round.engine worker unfinished
        have stepped : round.step prim tIdx = some (⟨engine', round.pool.set tIdx worker'⟩,
            MiningRound.eventsOf tIdx worker shown) := by
          simp [MiningRound.step, found, worked]
        obtain ⟨ofRound, searches⟩ := (run.invariant consistent).worker tIdx worker found
        have smaller : worker'.stepsLeft < worker.stepsLeft := by
          apply stepsLeft_workerStep _ _ worked
          · rw [ofRound.nonceStride]
            exact positive
          · intro isHashing
            exact searches.nonce_lt isHashing
        obtain ⟨events, last, whole, isCompleted⟩ :=
          ih _ (left ▸ sum_map_set_lt MiningWorker.stepsLeft smaller round.pool tIdx found)
            (run.step trivial stepped) rfl
        exact ⟨_, last, by rwa [List.append_assoc] at whole, isCompleted⟩

/-! ## Soundness and completeness -/

theorem MiningRound.Invariant.finished (invariant : round.Invariant prim system job trace)
    (completed : round.Completed) (below : tIdx < system.engine.threads) : ∃ count result,
      triedNonces (shownBy tIdx trace) = visits system.engine.threads tIdx count ∧
      reportedNonces (shownBy tIdx trace) = result.toList ∧
      Finished (job.Solves prim) nonceBound system.engine.threads tIdx count result := by
  obtain ⟨worker, member, searches⟩ := invariant.searches below
  exact searches.finished (completed worker member)

/-- The workers of a round try no nonce twice, and report solutions only.  When
they have run to completion they have tried the nonces before the first solution
of each class, and one of them has reported if there is a solution. -/
theorem miningRound_sound_complete (prim : Primitives) (system : MiningSystem) (job : MiningJob)
    (positive : 1 ≤ system.engine.threads)
    (lane : (job.solvedHeader 0).powType = system.engine.powType)
    (target : job.target =
      (rpcGetBlockTemplate system.engine.powType job.prevHash job.bits).target)
    {trace : List RoundEvent} {round : MiningRound} (run : RoundRun prim system job trace round) :
    (triedNonces trace).Nodup ∧
      (∀ nonce ∈ triedNonces trace, nonce < 2 ^ 32) ∧
      (∀ nonce ∈ reportedNonces trace,
        nonce < 2 ^ 32 ∧ (job.solvedHeader nonce).verifyPow prim = true) ∧
      (round.Completed →
        (∀ nonce < 2 ^ 32, nonce ∈ triedNonces trace ↔
          ∀ earlier < nonce, earlier % system.engine.threads = nonce % system.engine.threads →
            (job.solvedHeader earlier).verifyPow prim = false) ∧
        ((∃ nonce < 2 ^ 32, (job.solvedHeader nonce).verifyPow prim = true) →
          reportedNonces trace ≠ [])) ∧
      ∃ events last, RoundRun prim system job (trace ++ events) last ∧ last.Completed := by
  have consistent : job.Consistent system.engine.powType := ⟨fun _ => target.symm, fun _ => lane⟩
  have invariant := run.invariant consistent
  refine ⟨invariant.nodup, ?_, ?_, fun completed => ⟨?_, ?_⟩,
    run.exists_completed positive consistent⟩
  · intro nonce tried
    obtain ⟨tIdx, shown⟩ := mem_triedNonces_iff.mp tried
    obtain ⟨event, member, rfl⟩ := mem_shownBy_of_tried shown
    obtain ⟨worker, -, searches⟩ := invariant.searches (invariant.owned event member)
    exact searches.tried_lt shown
  · intro nonce reported
    obtain ⟨event, member, isReport⟩ := List.mem_filterMap.mp reported
    obtain ⟨worker, -, searches⟩ := invariant.searches (invariant.owned event member)
    exact searches.reported_sound (List.mem_filterMap.mpr
      ⟨event, List.mem_filter.mpr ⟨member, decide_eq_true rfl⟩, isReport⟩)
  · intro nonce inside
    obtain ⟨count, result, tried, -, finished⟩ :=
      invariant.finished completed (Nat.mod_lt nonce positive)
    rw [invariant.mem_triedNonces_iff, tried,
      finished.mem_visits_iff (Nat.mod_lt nonce positive) rfl inside]
    simp only [MiningJob.Solves, Bool.not_eq_true]
  · rintro ⟨nonce, inside, solves⟩ unreported
    obtain ⟨count, result, -, reported, finished⟩ :=
      invariant.finished completed (Nat.mod_lt nonce positive)
    have split := Nat.mod_add_div nonce system.engine.threads
    apply finished.complete (split.trans_lt inside) (by rwa [MiningJob.Solves, split])
    rw [← Option.toList_eq_nil_iff, ← reported, List.eq_nil_iff_forall_not_mem]
    intro other shown
    have reportedToo := mem_reportedNonces_iff.mpr ⟨_, shown⟩
    rw [unreported] at reportedToo
    cases reportedToo

end Pool

/-- Two workers that meet their solutions at once. -/
theorem twoWorkers_sound_complete : ∃ trace round,
    RoundRun miningPrimitives (.initial 0 2) firstJob trace round ∧ round.Completed ∧
      reportedNonces trace = [0, 1] ∧
      ∀ nonce ∈ reportedNonces trace,
        nonce < 2 ^ 32 ∧ (firstJob.solvedHeader nonce).verifyPow miningPrimitives = true := by
  have computed : (TraceRuns.follow (MiningRound.step miningPrimitives) (fun _ _ _ => True) []
      (.launched (.initial 0 2) firstJob) [0, 0, 1, 0, 1, 0, 1, 1]).any (fun result =>
        result.2.pool.all (fun worker => worker.phase = .done) ∧
          reportedNonces result.1 = [0, 1]) = true := by
    decide
  obtain ⟨⟨trace, round⟩, taken, shown⟩ := (Option.any_eq_true _ _).mp computed
  obtain ⟨completed, reported⟩ := of_decide_eq_true shown
  have run := TraceRuns.Run.start.of_follow taken
  refine ⟨trace, round, run, ?_, reported, ?_⟩
  · simpa [MiningRound.Completed] using completed
  · exact (miningRound_sound_complete miningPrimitives (.initial 0 2) firstJob (by decide)
      (by decide) (by decide) run).2.2.1

end QuantyCoin
