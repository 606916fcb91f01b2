import QuantyCoin.Block
import QuantyCoin.TraceRuns

/-!
# The mining engine

`MiningEngine` and `MiningWorker` of `miner/engine.py`: the loop of rounds and
the worker threads.  The threads interleave between any two accesses to the
fields of the engine.  Workers are stopped by a flag and never joined, so that
the workers of all rounds are part of the state.
-/

namespace QuantyCoin

open ByteDecoder

/-! ## Templates and workers -/

/-- What the engine uses of the answer to `getblocktemplate`. -/
structure BlockTemplate where
  version : Nat
  prevHash : Bytes
  bits : UInt32
  target : Nat

/-- `_rpc_getblocktemplate`, with the tip and the bits that the chainstate gives
for the lane. -/
def rpcGetBlockTemplate (powType : Nat) (prevHash : Bytes) (bits : UInt32) : BlockTemplate where
  version := powType <<< 16 ||| 2
  prevHash := prevHash
  bits := bits
  target := BlockHeader.getTarget ⟨0, prevHash, zeroHash, 0, bits, 0⟩

/-- The local variables of a round. -/
structure MiningJob where
  version : Int32
  prevHash : Bytes
  merkleRoot : Bytes
  timestamp : UInt32
  bits : UInt32
  target : Nat
  deriving DecidableEq

namespace MiningJob

/-- The variables of a round; `struct.pack('<i', version)` raises for a version
that does not fit. -/
def ofTemplate (template : BlockTemplate) (merkleRoot : Bytes) (timestamp : UInt32) :
    Option MiningJob :=
  if template.version < 2 ^ 31 then
    some ⟨Int32.ofNat template.version, template.prevHash, merkleRoot, timestamp, template.bits,
      template.target⟩
  else none

/-- `header_prefix`. -/
def headerPrefix (job : MiningJob) : Bytes :=
  packI32 job.version ++ job.prevHash ++ job.merkleRoot ++ packU32 job.timestamp ++
    packU32 job.bits

/-- `solved_header`. -/
def solvedHeader (job : MiningJob) (nonce : Nat) : BlockHeader :=
  ⟨job.version, job.prevHash, job.merkleRoot, job.timestamp, job.bits, UInt32.ofNat nonce⟩

end MiningJob

/-- Where a worker is. -/
inductive WorkerPhase
  /-- `while self.is_running and curr_nonce <= 0xFFFFFFFF`. -/
  | checking
  | hashing
  /-- Before the first writes of `_on_block_found`. -/
  | reporting (h : Bytes)
  /-- Before `_block_found_event.set()`. -/
  | signalling
  | done
  deriving DecidableEq

/-- A worker with the round that launched it. -/
structure MiningWorker where
  round : Nat
  nonce : Nat
  nonceStride : Nat
  headerPrefix : Bytes
  target : Nat
  powType : Nat
  isRunning : Bool
  phase : WorkerPhase

/-- The hash of a nonce. -/
def MiningWorker.hash (prim : Primitives) (worker : MiningWorker) (nonce : Nat) : Bytes :=
  let header := worker.headerPrefix ++ leBytes 4 nonce
  if worker.powType = 1 then prim.scrypt header else prim.hash256 header

/-! ## The engine -/

/-- The fields that the threads share, and the parameters. -/
structure MiningEngine where
  powType : Nat
  threads : Nat
  isMining : Bool
  workers : List Nat
  blockFoundEvent : Bool
  winningNonce : Option Nat
  winningHash : Option Bytes

/-- Where `_solo_mining_loop` is. -/
inductive LoopPhase
  /-- `while self.is_mining`. -/
  | checking
  | fetching
  /-- Before `_block_found_event.clear()`. -/
  | clearing (job : MiningJob)
  /-- Before `_winning_nonce = None`. -/
  | resetting (job : MiningJob)
  | launching (job : MiningJob) (tIdx : Nat)
  | monitoring (job : MiningJob)
  /-- Before the flags of these workers are cleared. -/
  | stopping (job : MiningJob) (remaining : List Nat)
  /-- `if self._winning_nonce is not None`. -/
  | testing (job : MiningJob)
  /-- Before `_winning_nonce` is read for the header. -/
  | building (job : MiningJob)
  | submitting (header : BlockHeader)

/-- The job of a round between its reset and the construction of its header. -/
def LoopPhase.job : LoopPhase → Option MiningJob
  | .launching job _ | .monitoring job | .stopping job _ | .testing job | .building job =>
      some job
  | _ => none

/-- The engine, its loop, the number of rounds so far and all workers ever
launched. -/
structure MiningSystem where
  engine : MiningEngine
  phase : LoopPhase
  round : Nat
  pool : List MiningWorker

inductive MiningEvent
  /-- `_on_block_found` was called by a worker of a round. -/
  | reported (round nonce : Nat)
  /-- A header was built from the winning nonce. -/
  | built (job : MiningJob) (nonce : Nat)
  deriving DecidableEq

inductive MiningAction
  /-- The template arrives. -/
  | fetch (prevHash merkleRoot : Bytes) (timestamp bits : UInt32)
  /-- Something in the body of the loop raises. -/
  | raise
  /-- Another step of the loop; the refresh of a template is due or not. -/
  | loop (refresh : Bool)
  | worker (index : Nat)
  | stop

namespace MiningSystem

/-- After `start`. -/
def initial (powType threads : Nat) : MiningSystem :=
  ⟨⟨powType, threads, true, [], false, none, none⟩, .checking, 0, []⟩

/-- `w.is_running = False`. -/
def clearFlag (pool : List MiningWorker) (index : Nat) : List MiningWorker :=
  pool.modify index fun worker => { worker with isRunning := false }

/-- The worker with the given index in a round. -/
def launch (system : MiningSystem) (job : MiningJob) (tIdx : Nat) : MiningWorker where
  round := system.round
  nonce := tIdx
  nonceStride := system.engine.threads
  headerPrefix := job.headerPrefix
  target := job.target
  powType := system.engine.powType
  isRunning := true
  phase := .checking

/-- A step of `_solo_mining_loop`. -/
def loopStep (system : MiningSystem) (refresh : Bool) :
    Option (MiningSystem × List MiningEvent) :=
  match system.phase with
  | .checking =>
      if system.engine.isMining then some ({ system with phase := .fetching }, []) else none
  | .fetching => none
  | .clearing job =>
      some ({ system with
        engine := { system.engine with blockFoundEvent := false }
        phase := .resetting job }, [])
  | .resetting job =>
      some ({ system with
        engine := { system.engine with winningNonce := none, workers := [] }
        phase := .launching job 0
        round := system.round + 1 }, [])
  | .launching job tIdx =>
      if tIdx < system.engine.threads then
        some ({ system with
          engine := { system.engine with workers := system.engine.workers ++ [system.pool.length] }
          phase := .launching job (tIdx + 1)
          pool := system.pool ++ [system.launch job tIdx] }, [])
      else some ({ system with phase := .monitoring job }, [])
  | .monitoring job =>
      if system.engine.blockFoundEvent || !system.engine.isMining || refresh then
        some ({ system with phase := .stopping job system.engine.workers }, [])
      else some (system, [])
  | .stopping job (index :: remaining) =>
      some ({ system with
        phase := .stopping job remaining
        pool := clearFlag system.pool index }, [])
  | .stopping job [] => some ({ system with phase := .testing job }, [])
  | .testing job =>
      if system.engine.winningNonce.isSome then
        some ({ system with phase := .building job }, [])
      else some ({ system with phase := .checking }, [])
  | .building job =>
      match system.engine.winningNonce with
      | some nonce =>
          some ({ system with phase := .submitting (job.solvedHeader nonce) }, [.built job nonce])
      | none => some ({ system with phase := .checking }, [])
  | .submitting _ => some ({ system with phase := .checking }, [])

/-- A step of `MiningWorker.run`. -/
def workerStep (prim : Primitives) (engine : MiningEngine) (worker : MiningWorker) :
    Option (MiningEngine × MiningWorker × List MiningEvent) :=
  match worker.phase with
  | .checking =>
      if worker.isRunning && worker.nonce ≤ 0xFFFFFFFF then
        some (engine, { worker with phase := .hashing }, [])
      else some (engine, { worker with phase := .done }, [])
  | .hashing =>
      let h := worker.hash prim worker.nonce
      if leValue h ≤ worker.target then
        some (engine, { worker with phase := .reporting h }, [])
      else
        some (engine,
          { worker with nonce := worker.nonce + worker.nonceStride, phase := .checking }, [])
  | .reporting h =>
      some ({ engine with winningNonce := some worker.nonce, winningHash := some h },
        { worker with phase := .signalling }, [.reported worker.round worker.nonce])
  | .signalling =>
      some ({ engine with blockFoundEvent := true }, { worker with phase := .done }, [])
  | .done => none

def step (prim : Primitives) (system : MiningSystem) :
    MiningAction → Option (MiningSystem × List MiningEvent)
  | .fetch prevHash merkleRoot timestamp bits =>
      match system.phase with
      | .fetching =>
          match MiningJob.ofTemplate (rpcGetBlockTemplate system.engine.powType prevHash bits)
              merkleRoot timestamp with
          | some job => some ({ system with phase := .clearing job }, [])
          | none => some ({ system with phase := .checking }, [])
      | _ => none
  | .raise =>
      match system.phase with
      | .checking | .submitting _ => none
      | _ => some ({ system with phase := .checking }, [])
  | .loop refresh => system.loopStep refresh
  | .worker index => do
      let worker ← system.pool[index]?
      let (engine, worker, events) ← workerStep prim system.engine worker
      some ({ system with engine := engine, pool := system.pool.set index worker }, events)
  | .stop =>
      some ({ system with
        engine := { system.engine with isMining := false, blockFoundEvent := true }
        pool := system.engine.workers.foldl clearFlag system.pool }, [])

end MiningSystem

/-- Runs of an engine from its start. -/
abbrev MiningRun (prim : Primitives) (powType threads : Nat)
    (allowed : List MiningEvent → MiningSystem → MiningAction → Prop) :
    List MiningEvent → MiningSystem → Prop :=
  TraceRuns.Run (MiningSystem.step prim) (.initial powType threads) allowed

/-! ## Jobs -/

namespace MiningJob

/-- The target and the lane of the headers of a job are those of its workers. -/
structure Consistent (powType : Nat) (job : MiningJob) : Prop where
  target_eq : ∀ nonce, (job.solvedHeader nonce).getTarget = job.target
  lane_eq : ∀ nonce, (job.solvedHeader nonce).powType = powType

theorem consistent_of_template {powType : Nat} {prevHash merkleRoot : Bytes}
    {timestamp bits : UInt32} {job : MiningJob}
    (made : ofTemplate (rpcGetBlockTemplate powType prevHash bits) merkleRoot timestamp =
      some job) : job.Consistent powType := by
  rw [ofTemplate] at made
  split_ifs at made with fits
  cases made
  refine ⟨fun _ => rfl, fun nonce => ?_⟩
  have small : powType <<< 16 ||| 2 < 2 ^ 31 := fits
  have sum : powType <<< 16 ||| 2 = powType * 2 ^ 16 + 2 := by
    rw [← Nat.shiftLeft_add_eq_or_of_lt (by decide), Nat.shiftLeft_eq]
  rw [sum] at small
  simp only [BlockHeader.powType, solvedHeader, rpcGetBlockTemplate, sum]
  rw [Int32.toInt_ofNat_of_lt small]
  omega

theorem serialize_solvedHeader (job : MiningJob) {nonce : Nat} (fits : nonce ≤ 0xFFFFFFFF) :
    (job.solvedHeader nonce).serialize = job.headerPrefix ++ leBytes 4 nonce := by
  have word : (UInt32.ofNat nonce).toNat = nonce := by
    rw [UInt32.toNat_ofNat']
    omega
  simp [BlockHeader.serialize, solvedHeader, headerPrefix, packU32, word]

/-- The test of a worker of the job is the one of the header. -/
theorem verifyPow_solvedHeader_iff {prim : Primitives} {powType : Nat} {job : MiningJob}
    (consistent : job.Consistent powType) {worker : MiningWorker}
    (headerPrefix : worker.headerPrefix = job.headerPrefix) (target : worker.target = job.target)
    (lane : worker.powType = powType) {nonce : Nat} (fits : nonce ≤ 0xFFFFFFFF) :
    (job.solvedHeader nonce).verifyPow prim = true ↔
      leValue (worker.hash prim nonce) ≤ worker.target := by
  have sameHash : (job.solvedHeader nonce).powHash prim = worker.hash prim nonce := by
    rw [BlockHeader.powHash, BlockHeader.hash, consistent.lane_eq, serialize_solvedHeader job fits,
      MiningWorker.hash, headerPrefix, lane]
    rfl
  rw [BlockHeader.verifyPow, sameHash, consistent.target_eq, ← target]
  exact decide_eq_true_iff

end MiningJob

/-! ## Rounds -/

def WorkerPhase.isReporting : WorkerPhase → Bool
  | .reporting _ => true
  | _ => false

/-- The job of a round from its start. -/
def LoopPhase.preparedJob : LoopPhase → Option MiningJob
  | .clearing job | .resetting job => some job
  | phase => phase.job

/-- A worker of this round works on its job, and what a worker reports meets its
target. -/
structure MiningWorker.Good (prim : Primitives) (powType round : Nat) (current : Option MiningJob)
    (worker : MiningWorker) : Prop where
  round_le : worker.round ≤ round
  nonce_le : worker.phase = .hashing ∨ (∃ h, worker.phase = .reporting h) →
    worker.nonce ≤ 0xFFFFFFFF
  found : ∀ h, worker.phase = .reporting h →
    leValue (worker.hash prim worker.nonce) ≤ worker.target
  sameJob : ∀ job, current = some job → worker.round = round →
    worker.headerPrefix = job.headerPrefix ∧ worker.target = job.target ∧
      worker.powType = powType

namespace MiningSystem

variable {prim : Primitives} {powType round : Nat} {current : Option MiningJob}

theorem good_clearFlag {pool : List MiningWorker}
    (good : ∀ worker ∈ pool, worker.Good prim powType round current) (index : Nat) :
    ∀ worker ∈ clearFlag pool index, worker.Good prim powType round current := by
  intro worker member
  obtain ⟨position, found⟩ := List.mem_iff_getElem?.mp member
  rw [clearFlag, List.getElem?_modify] at found
  obtain ⟨before, here, rfl⟩ := Option.map_eq_some_iff.mp found
  have goodBefore := good before (List.mem_of_getElem? here)
  split_ifs
  · exact ⟨goodBefore.round_le, goodBefore.nonce_le, goodBefore.found, goodBefore.sameJob⟩
  · exact goodBefore

theorem good_clearFlags (indices : List Nat) {pool : List MiningWorker}
    (good : ∀ worker ∈ pool, worker.Good prim powType round current) :
    ∀ worker ∈ indices.foldl clearFlag pool, worker.Good prim powType round current := by
  induction indices generalizing pool with
  | nil => exact good
  | cons index indices ih => exact ih (good_clearFlag good index)

/-- A step of a worker keeps it good. -/
theorem good_workerStep {engine engine' : MiningEngine} {worker worker' : MiningWorker}
    {events : List MiningEvent} (good : worker.Good prim powType round current)
    (stepped : workerStep prim engine worker = some (engine', worker', events)) :
    worker'.Good prim powType round current := by
  unfold workerStep at stepped
  split at stepped
  · split_ifs at stepped with goes
    · cases stepped
      refine ⟨good.round_le, fun _ => ?_, by simp, good.sameJob⟩
      simpa using (Bool.and_eq_true_iff.mp goes).2
    · cases stepped
      exact ⟨good.round_le, by simp, by simp, good.sameJob⟩
  · rename_i hashing
    simp only at stepped
    split_ifs at stepped with meets
    · cases stepped
      exact ⟨good.round_le, fun _ => good.nonce_le (.inl hashing), fun _ _ => meets,
        good.sameJob⟩
    · cases stepped
      exact ⟨good.round_le, by simp, by simp, good.sameJob⟩
  · cases stepped
    exact ⟨good.round_le, by simp, by simp, good.sameJob⟩
  · cases stepped
    exact ⟨good.round_le, by simp, by simp, good.sameJob⟩
  · cases stepped

/-- A worker writes the winning nonce when it reports, and not otherwise. -/
theorem winningNonce_workerStep {engine engine' : MiningEngine} {worker worker' : MiningWorker}
    {events : List MiningEvent}
    (stepped : workerStep prim engine worker = some (engine', worker', events)) :
    engine'.powType = engine.powType ∧
      (engine'.winningNonce = engine.winningNonce ∨
        (∃ h, worker.phase = .reporting h) ∧ engine'.winningNonce = some worker.nonce ∧
          events = [.reported worker.round worker.nonce]) := by
  unfold workerStep at stepped
  split at stepped
  · split_ifs at stepped <;> cases stepped <;> exact ⟨rfl, .inl rfl⟩
  · simp only at stepped
    split_ifs at stepped <;> cases stepped <;> exact ⟨rfl, .inl rfl⟩
  · rename_i h reporting
    cases stepped
    exact ⟨rfl, .inr ⟨⟨h, reporting⟩, rfl, rfl⟩⟩
  · cases stepped
    exact ⟨rfl, .inl rfl⟩
  · cases stepped

/-- What holds between the steps of a run. -/
structure Invariant (prim : Primitives) (powType : Nat) (trace : List MiningEvent)
    (system : MiningSystem) : Prop where
  lane : system.engine.powType = powType
  consistent : ∀ job, system.phase.preparedJob = some job → job.Consistent powType
  good : ∀ worker ∈ system.pool, worker.Good prim powType system.round system.phase.job
  winning : ∀ job nonce, system.phase.job = some job → system.engine.winningNonce = some nonce →
    .reported system.round nonce ∈ trace ∧ (job.solvedHeader nonce).verifyPow prim = true

/-- What a step of the loop does: it leaves the round, starts one, or goes on
with its job. -/
inductive LoopEffect (system : MiningSystem) : MiningSystem → Prop
  /-- The job is prepared, or the round is over. -/
  | outside {next} (engine : next.engine.powType = system.engine.powType)
      (phase : next.phase.job = none)
      (prepared : ∀ job, next.phase.preparedJob = some job →
        system.phase.preparedJob = some job)
      (round : next.round = system.round) (pool : next.pool = system.pool) :
      LoopEffect system next
  /-- The winning nonce was reset. -/
  | reset {next} (job : MiningJob) (here : system.phase.preparedJob = some job)
      (engine : next.engine.powType = system.engine.powType)
      (phase : next.phase.job = some job) (prepared : next.phase.preparedJob = some job)
      (round : next.round = system.round + 1) (pool : next.pool = system.pool)
      (winning : next.engine.winningNonce = none) : LoopEffect system next
  /-- The round goes on. -/
  | inside {next} (job : MiningJob) (here : system.phase.job = some job)
      (prepared' : system.phase.preparedJob = some job)
      (engine : next.engine.powType = system.engine.powType)
      (phase : next.phase.job = some job) (prepared : next.phase.preparedJob = some job)
      (round : next.round = system.round)
      (pool : next.pool = system.pool ∨ (∃ tIdx, next.pool = system.pool ++
        [system.launch job tIdx]) ∨ ∃ index, next.pool = clearFlag system.pool index)
      (winning : next.engine.winningNonce = system.engine.winningNonce) : LoopEffect system next

theorem loopStep_effect {system next : MiningSystem} {refresh : Bool} {events : List MiningEvent}
    (stepped : system.loopStep refresh = some (next, events)) : LoopEffect system next := by
  obtain ⟨engine, phase, round, pool⟩ := system
  unfold loopStep at stepped
  cases phase with
  | checking =>
      simp only at stepped
      split_ifs at stepped
      cases stepped
      exact .outside rfl rfl (by simp [LoopPhase.preparedJob, LoopPhase.job]) rfl rfl
  | fetching => cases stepped
  | clearing job =>
      cases stepped
      exact .outside rfl rfl (fun _ same => same) rfl rfl
  | resetting job =>
      cases stepped
      exact .reset job rfl rfl rfl rfl rfl rfl rfl
  | launching job tIdx =>
      simp only at stepped
      split_ifs at stepped
      · cases stepped
        exact .inside job rfl rfl rfl rfl rfl rfl (.inr (.inl ⟨tIdx, rfl⟩)) rfl
      · cases stepped
        exact .inside job rfl rfl rfl rfl rfl rfl (.inl rfl) rfl
  | monitoring job =>
      simp only at stepped
      split_ifs at stepped
      all_goals
        cases stepped
        exact .inside job rfl rfl rfl rfl rfl rfl (.inl rfl) rfl
  | stopping job remaining =>
      cases remaining with
      | nil =>
          cases stepped
          exact .inside job rfl rfl rfl rfl rfl rfl (.inl rfl) rfl
      | cons index remaining =>
          cases stepped
          exact .inside job rfl rfl rfl rfl rfl rfl (.inr (.inr ⟨index, rfl⟩)) rfl
  | testing job =>
      simp only at stepped
      split_ifs at stepped
      · cases stepped
        exact .inside job rfl rfl rfl rfl rfl rfl (.inl rfl) rfl
      · cases stepped
        exact .outside rfl rfl (by simp [LoopPhase.preparedJob, LoopPhase.job]) rfl rfl
  | building job =>
      simp only at stepped
      split at stepped
      all_goals
        cases stepped
        exact .outside rfl rfl (by simp [LoopPhase.preparedJob, LoopPhase.job]) rfl rfl
  | submitting header =>
      cases stepped
      exact .outside rfl rfl (by simp [LoopPhase.preparedJob, LoopPhase.job]) rfl rfl

/-- Outside of a round nothing is asked of a worker. -/
theorem good_outside {worker : MiningWorker} (good : worker.Good prim powType round current) :
    worker.Good prim powType round none :=
  ⟨good.round_le, good.nonce_le, good.found, by simp⟩

/-- The workers of the rounds before are not part of a new round. -/
theorem good_nextRound {worker : MiningWorker} (good : worker.Good prim powType round current)
    (next : Option MiningJob) : worker.Good prim powType (round + 1) next := by
  have earlier := good.round_le
  refine ⟨by omega, good.nonce_le, good.found, ?_⟩
  intro job _ same
  omega

theorem good_launch {system : MiningSystem} (lane : system.engine.powType = powType)
    (job : MiningJob) (tIdx : Nat) :
    (system.launch job tIdx).Good prim powType system.round (some job) := by
  refine ⟨Nat.le_refl _, by simp [launch], by simp [launch], ?_⟩
  rintro other ⟨⟩ -
  exact ⟨rfl, rfl, lane⟩

theorem invariant_outside {trace events : List MiningEvent} {system next : MiningSystem}
    (invariant : Invariant prim powType trace system)
    (engine : next.engine.powType = system.engine.powType) (phase : next.phase.job = none)
    (prepared : ∀ job, next.phase.preparedJob = some job → job.Consistent powType)
    (roundEq : next.round = system.round) (pool : next.pool = system.pool) :
    Invariant prim powType (trace ++ events) next where
  lane := engine.trans invariant.lane
  consistent := prepared
  good worker member := by
    rw [phase, roundEq]
    rw [pool] at member
    exact good_outside (invariant.good worker member)
  winning job nonce here := by
    rw [phase] at here
    cases here

theorem invariant_loopStep {trace events : List MiningEvent} {system next : MiningSystem}
    (invariant : Invariant prim powType trace system) (effect : LoopEffect system next) :
    Invariant prim powType (trace ++ events) next := by
  cases effect with
  | outside engine phase prepared roundEq pool =>
      exact invariant_outside invariant engine phase
        (fun job later => invariant.consistent job (prepared job later)) roundEq pool
  | reset job here engine phase prepared roundEq pool winning =>
      refine ⟨engine.trans invariant.lane, ?_, ?_, ?_⟩
      · intro other later
        cases prepared.symm.trans later
        exact invariant.consistent job here
      · intro worker member
        rw [pool] at member
        rw [roundEq]
        exact good_nextRound (invariant.good worker member) _
      · intro other nonce _ won
        cases winning.symm.trans won
  | inside job here preparedHere engine phase prepared roundEq pool winning =>
      have good := invariant.good
      rw [here] at good
      refine ⟨engine.trans invariant.lane, ?_, ?_, ?_⟩
      · intro other later
        cases prepared.symm.trans later
        exact invariant.consistent job preparedHere
      · rw [phase, roundEq]
        obtain same | ⟨tIdx, launched⟩ | ⟨index, cleared⟩ := pool
        · rwa [same]
        · rw [launched]
          intro worker member
          rcases List.mem_append.mp member with earlier | new
          · exact good worker earlier
          · cases List.mem_singleton.mp new
            exact good_launch invariant.lane job tIdx
        · rw [cleared]
          exact good_clearFlag good index
      · intro other nonce isJob won
        rw [winning] at won
        rw [roundEq]
        cases phase.symm.trans isJob
        obtain ⟨reported, solved⟩ := invariant.winning job nonce here won
        exact ⟨List.mem_append_left _ reported, solved⟩

/-- No worker of an earlier round calls `_on_block_found` between the reset of a
round and the construction of its header. -/
def NoStaleReport (_ : List MiningEvent) (system : MiningSystem) : MiningAction → Prop
  | .worker index => ∀ worker ∈ system.pool[index]?, worker.phase.isReporting = true →
      system.phase.job.isSome → worker.round = system.round
  | _ => True

instance (trace : List MiningEvent) (system : MiningSystem) (action : MiningAction) :
    Decidable (NoStaleReport trace system action) :=
  match action with
  | .worker index => inferInstanceAs (Decidable (∀ worker ∈ system.pool[index]?, _))
  | .fetch .. | .raise | .loop _ | .stop => isTrue trivial

theorem invariant_workerStep {trace events : List MiningEvent} {system : MiningSystem}
    {engine : MiningEngine} {index : Nat} {worker worker' : MiningWorker}
    (invariant : Invariant prim powType trace system)
    (isAllowed : NoStaleReport trace system (.worker index))
    (found : system.pool[index]? = some worker)
    (stepped : workerStep prim system.engine worker = some (engine, worker', events)) :
    Invariant prim powType (trace ++ events)
      { system with engine := engine, pool := system.pool.set index worker' } := by
  have good := invariant.good worker (List.mem_of_getElem? found)
  obtain ⟨lane, written⟩ := winningNonce_workerStep stepped
  refine ⟨lane.trans invariant.lane, invariant.consistent, ?_, ?_⟩
  · intro other member
    rcases List.mem_or_eq_of_mem_set member with earlier | rfl
    · exact invariant.good other earlier
    · exact good_workerStep good stepped
  · intro job nonce isJob won
    obtain kept | ⟨⟨h, reporting⟩, report, rfl⟩ := written
    · rw [kept] at won
      obtain ⟨reported, solved⟩ := invariant.winning job nonce isJob won
      exact ⟨List.mem_append_left _ reported, solved⟩
    · -- the report comes from a worker of this round
      cases report.symm.trans won
      have sameRound : worker.round = system.round :=
        isAllowed worker found (by rw [reporting]; rfl)
          (Option.isSome_iff_exists.mpr ⟨job, isJob⟩)
      obtain ⟨headerPrefix, target, lane⟩ := good.sameJob job isJob sameRound
      have prepared : system.phase.preparedJob = some job := by
        rw [← isJob]
        cases phase : system.phase <;> simp_all [LoopPhase.preparedJob, LoopPhase.job]
      refine ⟨List.mem_append_right _ (by simp [sameRound]), ?_⟩
      exact (MiningJob.verifyPow_solvedHeader_iff (invariant.consistent job prepared) headerPrefix
        target lane (good.nonce_le (.inr ⟨h, reporting⟩))).mpr (good.found h reporting)

theorem invariant_step {trace events : List MiningEvent} {system next : MiningSystem}
    {action : MiningAction} (invariant : Invariant prim powType trace system)
    (isAllowed : NoStaleReport trace system action)
    (stepped : system.step prim action = some (next, events)) :
    Invariant prim powType (trace ++ events) next := by
  cases action with
  | fetch prevHash merkleRoot timestamp bits =>
      simp only [step] at stepped
      split at stepped
      · split at stepped
        · rename_i job made
          cases stepped
          refine invariant_outside invariant rfl rfl ?_ rfl rfl
          rintro other ⟨⟩
          rw [invariant.lane] at made
          exact MiningJob.consistent_of_template made
        · cases stepped
          exact invariant_outside invariant rfl rfl
            (by simp [LoopPhase.preparedJob, LoopPhase.job]) rfl rfl
      · cases stepped
  | raise =>
      simp only [step] at stepped
      split at stepped
      · cases stepped
      · cases stepped
      · cases stepped
        exact invariant_outside invariant rfl rfl
          (by simp [LoopPhase.preparedJob, LoopPhase.job]) rfl rfl
  | loop refresh => exact invariant_loopStep invariant (loopStep_effect stepped)
  | worker index =>
      simp only [step, bind, Option.bind_eq_some_iff] at stepped
      obtain ⟨worker, found, ⟨engine, worker', events'⟩, worked, result⟩ := stepped
      cases result
      exact invariant_workerStep invariant isAllowed found worked
  | stop =>
      cases stepped
      rw [List.append_nil]
      exact ⟨invariant.lane, invariant.consistent,
        good_clearFlags system.engine.workers invariant.good, invariant.winning⟩

end MiningSystem

section Rounds

variable {prim : Primitives} {powType threads : Nat}
  {trace events : List MiningEvent} {system next : MiningSystem} {action : MiningAction}

theorem MiningRun.invariant
    (run : MiningRun prim powType threads MiningSystem.NoStaleReport trace system) :
    system.Invariant prim powType trace := by
  apply TraceRuns.Run.invariant _ _ run
  · exact ⟨rfl, by simp [MiningSystem.initial, LoopPhase.preparedJob, LoopPhase.job],
      by simp [MiningSystem.initial], by simp [MiningSystem.initial, LoopPhase.job]⟩
  · intro trace system action next events _ invariant isAllowed stepped
    exact MiningSystem.invariant_step invariant isAllowed stepped

theorem not_built_of_workerStep {engine engine' : MiningEngine} {worker worker' : MiningWorker}
    {job : MiningJob} {nonce : Nat}
    (stepped : MiningSystem.workerStep prim engine worker = some (engine', worker', events)) :
    .built job nonce ∉ events := by
  intro built
  unfold MiningSystem.workerStep at stepped
  split at stepped
  · split_ifs at stepped <;> cases stepped <;> cases built
  · simp only at stepped
    split_ifs at stepped <;> cases stepped <;> cases built
  · cases stepped
    cases List.mem_singleton.mp built
  · cases stepped
    cases built
  · cases stepped

/-- A header is built by the loop, from the winning nonce. -/
theorem built_of_loopStep {refresh : Bool} {job : MiningJob} {nonce : Nat}
    (stepped : system.loopStep refresh = some (next, events))
    (built : .built job nonce ∈ events) :
    system.phase = .building job ∧ system.engine.winningNonce = some nonce := by
  unfold MiningSystem.loopStep at stepped
  cases phase : system.phase with
  | building job' =>
      simp only [phase] at stepped
      split at stepped
      · rename_i nonce' won
        cases stepped
        cases List.mem_singleton.mp built
        exact ⟨rfl, won⟩
      · cases stepped
        cases built
  | fetching =>
      rw [phase] at stepped
      cases stepped
  | checking | launching | monitoring | testing =>
      simp only [phase] at stepped
      split_ifs at stepped
      all_goals
        cases stepped
        cases built
  | stopping job' remaining =>
      cases remaining
      all_goals
        rw [phase] at stepped
        cases stepped
        cases built
  | clearing | resetting | submitting =>
      rw [phase] at stepped
      cases stepped
      cases built

theorem building_of_built {job : MiningJob} {nonce : Nat}
    (stepped : system.step prim action = some (next, events))
    (built : .built job nonce ∈ events) :
    system.phase = .building job ∧ system.engine.winningNonce = some nonce := by
  cases action with
  | fetch prevHash merkleRoot timestamp bits =>
      simp only [MiningSystem.step] at stepped
      split at stepped
      · split at stepped
        all_goals
          cases stepped
          cases built
      · cases stepped
  | raise =>
      simp only [MiningSystem.step] at stepped
      split at stepped
      · cases stepped
      · cases stepped
      · cases stepped
        cases built
  | loop refresh => exact built_of_loopStep stepped built
  | worker index =>
      simp only [MiningSystem.step, bind, Option.bind_eq_some_iff] at stepped
      obtain ⟨worker, found, ⟨engine, worker', events'⟩, worked, result⟩ := stepped
      cases result
      exact absurd built (not_built_of_workerStep worked)
  | stop =>
      cases stepped
      cases built

/-- As long as no worker of an earlier round reports between the reset of a round
and the construction of its header, the header has a nonce reported in its own
round and meets its target. -/
theorem MiningRun.solved
    (run : MiningRun prim powType threads MiningSystem.NoStaleReport trace system)
    (stepped : system.step prim action = some (next, events)) {job : MiningJob} {nonce : Nat}
    (built : .built job nonce ∈ events) :
    .reported system.round nonce ∈ trace ∧ (job.solvedHeader nonce).verifyPow prim = true := by
  obtain ⟨building, won⟩ := building_of_built stepped built
  have isJob : system.phase.job = some job := by
    rw [building]
    rfl
  exact (MiningRun.invariant run).winning job nonce isJob won

end Rounds

/-! ## Sample rounds -/

/-- Fetch a template with an easy target, up to the launch of a single worker. -/
def startRound (merkleByte : UInt8) (timestamp : UInt32) : List MiningAction :=
  [.loop false, .fetch zeroHash (List.replicate 32 merkleByte) timestamp 0x207fffff, .loop false,
    .loop false, .loop false, .loop false]

/-- The job of a round. -/
def sampleJob (merkleByte : UInt8) (timestamp : UInt32) : MiningJob :=
  ⟨2, zeroHash, List.replicate 32 merkleByte, timestamp, 0x207fffff, 0x7fffff <<< 232⟩

def firstJob : MiningJob := sampleJob 0x04 1700000000
def secondJob : MiningJob := sampleJob 0x05 1700000016

/-- The first job is solved by the nonce zero, the second is not. -/
def miningPrimitives : Primitives :=
  .ofDigests [(firstJob.headerPrefix ++ leBytes 4 0,
      0x0f6bda881c9c28799ab6687db8f7a1435c8cb1acbe18d5e96df9c0b693555bbe),
    (secondJob.headerPrefix ++ leBytes 4 0,
      0xdaff0628927c4627ceb9901c2a2386aa7b0ec87d77678b4cae86e06236be1211)]

/-- The worker of the first round reports in the round itself. -/
def promptSteps : List MiningAction :=
  startRound 0x04 1700000000 ++ [.worker 0, .worker 0, .worker 0, .worker 0] ++
    List.replicate 4 (.loop false)

theorem promptReport_solved :
    ∃ trace system next events,
      MiningRun miningPrimitives 0 1 MiningSystem.NoStaleReport trace system ∧
      system.step miningPrimitives (.loop false) = some (next, events) ∧
      .built firstJob 0 ∈ events ∧
      (firstJob.solvedHeader 0).verifyPow miningPrimitives = true := by
  have computed : (TraceRuns.follow (MiningSystem.step miningPrimitives)
      MiningSystem.NoStaleReport [] (.initial 0 1) promptSteps).any (fun result =>
        (result.2.step miningPrimitives (.loop false)).any fun stepped =>
          .built firstJob 0 ∈ stepped.2) = true := by
    decide
  obtain ⟨⟨trace, system⟩, taken, shown⟩ := (Option.any_eq_true _ _).mp computed
  obtain ⟨⟨next, events⟩, stepped, member⟩ := (Option.any_eq_true _ _).mp shown
  have run := TraceRuns.Run.start.of_follow taken
  have built := of_decide_eq_true member
  exact ⟨trace, system, next, events, run, stepped, built, (MiningRun.solved run stepped built).2⟩

/-- The worker of the first round is hashing when its flag is cleared.  It
reports after the reset of the second round, and the loop stops the second
round. -/
def staleSteps : List MiningAction :=
  startRound 0x04 1700000000 ++ [.worker 0, .loop true, .loop false, .loop false, .loop false] ++
    startRound 0x05 1700000016 ++ [.worker 0, .worker 0, .worker 0] ++
    List.replicate 4 (.loop false)

theorem staleReport_unsolved :
    ∃ trace system next events,
      MiningRun miningPrimitives 0 1 (fun _ _ _ => True) trace system ∧
      system.step miningPrimitives (.loop false) = some (next, events) ∧
      .built secondJob 0 ∈ events ∧ .reported system.round 0 ∉ trace ∧
      (secondJob.solvedHeader 0).verifyPow miningPrimitives = false := by
  have computed : (TraceRuns.follow (MiningSystem.step miningPrimitives)
      (fun _ _ _ => True) [] (.initial 0 1) staleSteps).any (fun result =>
        (result.2.step miningPrimitives (.loop false)).any (fun stepped =>
          .built secondJob 0 ∈ stepped.2) ∧ .reported result.2.round 0 ∉ result.1 ∧
          (secondJob.solvedHeader 0).verifyPow miningPrimitives = false) = true := by
    decide
  obtain ⟨⟨trace, system⟩, taken, shown⟩ := (Option.any_eq_true _ _).mp computed
  obtain ⟨built, unreported, unsolved⟩ := of_decide_eq_true shown
  obtain ⟨⟨next, events⟩, stepped, member⟩ := (Option.any_eq_true _ _).mp built
  exact ⟨trace, system, next, events, TraceRuns.Run.start.of_follow taken, stepped,
    of_decide_eq_true member, unreported, unsolved⟩

end QuantyCoin
