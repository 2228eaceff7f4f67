import Stellabill.JobStore

/-!
Workers that share one in-memory job store. Each picks a job, takes the job's lock and
hands the job to a goroutine, which marks it running, executes it, records the outcome and
releases the lock. The calls of the store interleave freely.
-/
namespace Stellabill.Worker
open Keyed Transitions JobStore Function

structure Config where
  lockTTL : Time
  maxAttempts : Int
  batchSize : Int
  maxConcurrency : Nat
  maxQueueDepth : Int
  laneWeights : Option (List (Priority × Int))

/-- Where the polling stands: between ticks, before the `i`-th call of `Next`, in it with the lane it tries or falls
    back to, before `AcquireLock`, waiting for a slot, or stopped. -/
inductive Poll
  | idle
  | loop (i : Nat)
  | trying (i : Nat) (lane : Priority)
  | falling (i : Nat) (lanes : List Priority)
  | picked (i : Nat) (job : Job)
  | dispatching (i : Nat) (run : Nat)
  | stopped
  deriving DecidableEq

structure Poller where
  poll : Poll
  counter : Int
  starvationCount : Int

/-- Where `executeJob` stands: waiting for its goroutine, before the job is marked running, in `Execute`, before the
    outcome is recorded, before the lock is released. -/
inductive Phase
  | queued | starting | executing | recording | releasing
  deriving DecidableEq, Repr

/-- A job that was locked and handed on: the worker, its copy of the job, and when its lock expires. -/
structure Run where
  id : Nat
  worker : String
  job : Job
  expires : Time
  phase : Phase
  deriving DecidableEq

/-- The clock, the store, the goroutines, and the IDs of the executed jobs, the latest first. -/
structure Shared where
  now : Time
  jobs : Jobs
  locks : String → Option Lock
  runs : Table Run.id
  nextRun : Nat
  executions : List String
structure State extends Shared where
  pollers : String → Poller

def init : State where
  now := 0
  jobs := .empty
  locks _ := none
  runs := .empty
  nextRun := 0
  executions := []
  pollers _ := ⟨.idle,0,0⟩

/-- A job is scheduled under a new ID, time passes, a worker polls, or a goroutine goes on. -/
inductive Action
  | create (job : Job)
  | advance (elapsed : Nat)
  | poll (worker : String)
  | next (worker : String)
  | list (worker : String) (pick : Option Job)
  | acquire (worker : String)
  | dispatch (worker : String)
  | start (run : Nat)
  | finish (run : Nat) (error : Option String)
  | record (run : Nat)
  | release (run : Nat)
  | stop (worker : String)
  deriving DecidableEq

def State.goto (s : State) (worker : String) (poll : Poll) : State :=
  { s with pollers := update s.pollers worker { s.pollers worker with poll } }
section
variable (s : Shared) (run : Run)
def Shared.setRun : Shared := { s with runs := s.runs.upsert run }

/-- `Next` up to its first call of the store, or the end of the batch. -/
def next (cfg : Config) (s : State) (worker : String) (i : Nat) : State :=
  if (i : Int) < cfg.batchSize then
    let poller := s.pollers worker
    let lane := laneOf (cfg.laneWeights.getD defaultLaneWeights) (poller.counter+1) poller.starvationCount 10
    { s with pollers := update s.pollers worker { poller with poll := .trying i lane, counter := poller.counter+1 } }
  else s.goto worker .idle
def tryLane (s : State) (worker : String) (i : Nat) (lane : Priority) (pick : Option Job) : Option State :=
  match pick with
  | some job =>
    if firstPending s.jobs s.now lane job then
      let poller := s.pollers worker
      let starvationCount := if lane ≠ priorityLow then poller.starvationCount+1 else 0
      some { s with pollers := update s.pollers worker { poller with poll := .picked i job, starvationCount } }
    else none
  | none => if (JobStore.lane s.jobs s.now lane).isEmpty then some (s.goto worker (.falling i laneOrder)) else none
/-- The answer of `ListPendingByPriority` in `pickHighestPriority`; without a job the poll ends. -/
def pickHighestPriority (s : State) (worker : String) (i : Nat) (lane : Priority) (rest : List Priority) (pick : Option Job) :
    Option State :=
  match pick with
  | some job => if firstPending s.jobs s.now lane job then some (s.goto worker (.picked i job)) else none
  | none =>
    if (JobStore.lane s.jobs s.now lane).isEmpty then
      some (s.goto worker (if rest.isEmpty then .idle else .falling i rest))
    else none
/-- A job whose lock the worker has got is handed on. -/
def hand (s : Shared) (worker : String) (job : Job) (lock : Lock) : Shared :=
  { s with
    locks := update s.locks job.id (some lock)
    runs := s.runs.upsert ⟨s.nextRun,worker,job,lock.expiresAt,.queued⟩
    nextRun := s.nextRun+1 }
def acquire (cfg : Config) (s : State) (worker : String) (i : Nat) (job : Job) : State :=
  match acquireLock s.locks job.id worker cfg.lockTTL s.now with
  | none => s.goto worker (.loop (i+1))
  | some lock => { s.goto worker (.dispatching i s.nextRun) with toShared := hand s.toShared worker job lock }

/-- `executeJob` up to `Execute`: the copy is marked running and stored. -/
def start : Shared :=
  let job := { run.job with status := .running, attempts := run.job.attempts+1, startedAt := some s.now }
  match update s.jobs job s.now with
  -- The job is gone: only the deferred release is left.
  | none => s.setRun { run with job, phase := .releasing }
  | some jobs =>
    { s.setRun { run with job := { job with updatedAt := s.now }, phase := .executing } with
      jobs := jobs
      executions := job.id :: s.executions }
def outcome (cfg : Config) (now : Time) (job : Job) : Option String → Job
  | none => { job with status := .completed, completedAt := some now, lastError := "" }
  | some message =>
    if job.attempts ≥ cfg.maxAttempts then
      { job with status := .deadLetter, completedAt := some now, lastError := message }
    else
      { job with
        status := .pending
        scheduledAt := now + job.attempts*job.attempts*1000000000
        lastError := message }

def finish (cfg : String → Config) (s : Shared) (run : Run) (error : Option String) : Shared :=
  s.setRun { run with job := outcome (cfg run.worker) s.now run.job error, phase := .recording }
def record : Shared :=
  { s.setRun { run with phase := .releasing } with jobs := (update s.jobs run.job s.now).getD s.jobs }
def release : Shared :=
  { s with
    locks := releaseLock s.locks run.job.id run.worker
    runs := s.runs.delete (fun other => other.id = run.id) }
end
/-- A goroutine takes a step if it stands at `phase`. -/
def State.goroutine (s : State) (id : Nat) (phase : Phase) (go : Shared → Run → Shared) : Option State :=
  (s.runs.find id).bind (fun run => if run.phase = phase then some { s with toShared := go s.toShared run } else none)

def step (cfg : String → Config) (s : State) : Action → Option State
  | .create job =>
    if job.id ≠ "" ∧ job.status = .pending ∧ (s.jobs.find job.id).isNone then some { s with jobs := s.jobs.upsert job } else none
  | .advance elapsed => some { s with now := s.now+elapsed }
  | .poll worker =>
    if (s.pollers worker).poll = .idle then
      some (if (queueDepth s.jobs s.now : Int) > (cfg worker).maxQueueDepth then s else s.goto worker (.loop 0))
    else none
  | .next worker =>
    match (s.pollers worker).poll with
    | .loop i => some (next (cfg worker) s worker i)
    | _ => none
  | .list worker pick =>
    match (s.pollers worker).poll with
    | .trying i lane => tryLane s worker i lane pick
    | .falling i (lane :: rest) => pickHighestPriority s worker i lane rest pick
    | _ => none
  | .acquire worker =>
    match (s.pollers worker).poll with
    | .picked i job => some (acquire (cfg worker) s worker i job)
    | _ => none
  | .dispatch worker =>
    match (s.pollers worker).poll with
    | .dispatching i id =>
      if (s.runs.rows.filter (fun run => run.worker = worker ∧ run.phase ≠ .queued)).length < (cfg worker).maxConcurrency then
        (s.goto worker (.loop (i+1))).goroutine id .queued (fun s run => s.setRun { run with phase := .starting })
      else none
    | _ => none
  | .start id => s.goroutine id .starting start
  | .finish id error => s.goroutine id .executing (fun s run => finish cfg s run error)
  | .record id => s.goroutine id .recording record
  | .release id => s.goroutine id .releasing release
  | .stop worker => if (s.pollers worker).poll = .idle then some (s.goto worker .stopped) else none

/-! ### What a step does to what the workers share -/

inductive Effect (cfg : String → Config) (s : State) : Action → Shared → Prop
  | quiet {a : Action} : Effect cfg s a s.toShared
  | passed (elapsed : Nat) : Effect cfg s (.advance elapsed) { s.toShared with now := s.now+elapsed }
  | created {job : Job} (new : s.jobs.find job.id = none) :
    Effect cfg s (.create job) { s.toShared with jobs := s.jobs.upsert job }
  | acquired {worker : String} {i : Nat} {job : Job} {lock : Lock} (at_ : (s.pollers worker).poll = .picked i job)
    (got : acquireLock s.locks job.id worker (cfg worker).lockTTL s.now = some lock) :
    Effect cfg s (.acquire worker) (hand s.toShared worker job lock)
  | dispatched {worker : String} {run : Run} (member : run ∈ s.runs) (phase : run.phase = .queued) :
    Effect cfg s (.dispatch worker) (s.setRun { run with phase := .starting })
  | started {run : Run} (member : run ∈ s.runs) (phase : run.phase = .starting) :
    Effect cfg s (.start run.id) (start s.toShared run)
  | finished {run : Run} (error : Option String) (member : run ∈ s.runs) (phase : run.phase = .executing) :
    Effect cfg s (.finish run.id error) (finish cfg s.toShared run error)
  | recorded {run : Run} (member : run ∈ s.runs) (phase : run.phase = .recording) :
    Effect cfg s (.record run.id) (record s.toShared run)
  | released {run : Run} (member : run ∈ s.runs) (phase : run.phase = .releasing) :
    Effect cfg s (.release run.id) (release s.toShared run)

theorem goroutine_some {s t : State} {id : Nat} {phase : Phase} {go : Shared → Run → Shared} (went : s.goroutine id phase go = some t) :
    ∃ run ∈ s.runs, run.id = id ∧ run.phase = phase ∧ t.toShared = go s.toShared run := by
  obtain ⟨run,member,same,took⟩ := s.runs.find_bind went
  obtain ⟨at_,rfl⟩ := guarded took
  exact ⟨run,member,same,at_,rfl⟩
theorem step_effect {cfg : String → Config} {s t : State} {a : Action} (stepped : step cfg s a = some t) : Effect cfg s a t.toShared := by
  cases a with
  | create job =>
    obtain ⟨new,rfl⟩ := guarded stepped
    exact .created (by simpa using new.2.2)
  | advance elapsed => cases stepped; exact .passed _
  | poll worker =>
    obtain ⟨_,rfl⟩ := guarded stepped
    split <;> exact .quiet
  | next worker =>
    simp only [step] at stepped
    split at stepped <;> cases stepped
    unfold next
    split <;> exact .quiet
  | list worker pick =>
    simp only [step,tryLane,pickHighestPriority] at stepped
    split at stepped <;> try cases stepped
    all_goals split at stepped <;> obtain ⟨_,rfl⟩ := guarded stepped <;> exact .quiet
  | acquire worker =>
    simp only [step] at stepped
    split at stepped <;> cases stepped
    next at_ =>
      unfold acquire
      split
      next => exact .quiet
      next got => exact .acquired at_ got
  | dispatch worker =>
    simp only [step] at stepped
    split at stepped <;> try cases stepped
    split_ifs at stepped
    obtain ⟨run,member,_,phase,same⟩ := goroutine_some stepped
    exact same ▸ .dispatched member phase
  | start | finish | record | release =>
    simp only [step] at stepped
    obtain ⟨run,member,rfl,phase,same⟩ := goroutine_some stepped
    rw [same]
    constructor
    · exact member
    · exact phase
  | stop worker =>
    obtain ⟨_,rfl⟩ := guarded stepped
    exact .quiet

end Stellabill.Worker
