import Stellabill.Worker

/-!
What the locks of the job store guarantee. A lock keeps other workers from a job
until it expires, but it is re-entrant: a worker that picks a job again before
its own goroutine has released it gets the lock a second time.
-/
namespace Stellabill.WorkerLocks
open Keyed Transitions JobStore Worker Table

variable {cfg : String → Config} {s : State} {t : Shared} {a : Action}

def Timely (s : Shared) : Prop := ∀ run ∈ s.runs.rows, run.phase = .executing → s.now ≤ run.expires
  deriving Decidable
section
variable (cfg : String → Config) (s : State)
/-- The step leaves no execution in flight after its lock has expired. -/
def InTime (a : Action) : Prop :=
  match step cfg s a with
  | none => True
  | some t => Timely t.toShared
/-- If the step gets the lock of a job, the worker and its copy of the job meet `condition`. -/
def AtAcquire (condition : String → Job → Prop) : Action → Prop
  | .acquire worker =>
    match (s.pollers worker).poll with
    | .picked _ job => (acquireLock s.locks job.id worker (cfg worker).lockTTL s.now).isSome → condition worker job
    | _ => True
  | _ => True
/-- A worker gets the lock of a job only when none of its goroutines for the job is left. -/
def Released : Action → Prop :=
  AtAcquire cfg s (fun worker job => ∀ run ∈ s.runs.rows, run.worker = worker → run.job.id ≠ job.id)

instance (a : Action) : Decidable (InTime cfg s a) := by
  unfold InTime
  split <;> infer_instance
instance (condition : String → Job → Prop) [∀ worker job, Decidable (condition worker job)]
    (a : Action) : Decidable (AtAcquire cfg s condition a) := by
  unfold AtAcquire
  split <;> try split
  all_goals infer_instance

instance (a : Action) : Decidable (Released cfg s a) :=
  inferInstanceAs (Decidable (AtAcquire ..))
end

variable {worker : String} {job : Job} {lock : Lock} {run run' : Run}

theorem at_acquire {condition : String → Job → Prop} {i : Nat} (meets : AtAcquire cfg s condition (.acquire worker))
    (at_ : (s.pollers worker).poll = .picked i job) (got : acquireLock s.locks job.id worker (cfg worker).lockTTL s.now = some lock) :
    condition worker job := by
  simp only [AtAcquire,at_,got] at meets
  exact meets rfl

/-- A worker has at most one goroutine for a job, and the lock is the one it took until that expires. -/
structure Held (s : Shared) : Prop where
  fresh : ∀ run ∈ s.runs, run.id < s.nextRun
  apart : ∀ run ∈ s.runs, ∀ run' ∈ s.runs, run.worker = run'.worker → run.job.id = run'.job.id → run = run'
  locked : ∀ run ∈ s.runs, s.now ≤ run.expires → s.locks run.job.id = some ⟨run.worker,run.expires⟩

section
variable {s : Shared} (held : Held s)
include held
theorem held_setRun (member : run ∈ s.runs) (same : run'.id = run.id) (sameWorker : run'.worker = run.worker)
    (sameJob : run'.job.id = run.job.id) (sameExpiry : run'.expires = run.expires) {jobs : Jobs} {executions : List String} :
    Held { s.setRun run' with jobs, executions } := by
  have from_ : ∀ other ∈ s.runs.upsert run', ∃ old ∈ s.runs, old.id = other.id ∧ other.worker = old.worker ∧
      other.job.id = old.job.id ∧ other.expires = old.expires := by
    intro other listed
    rcases mem_upsert.mp listed with rfl | ⟨old,_⟩
    · exact ⟨run,member,same.symm,sameWorker,sameJob,sameExpiry⟩
    · exact ⟨other,old,rfl,rfl,rfl,rfl⟩
  refine ⟨?_,?_,?_⟩
  · intro other listed
    obtain ⟨old,was,sameID,_⟩ := from_ other listed
    exact sameID ▸ held.fresh old was
  · intro first listed second listed' workers jobs
    obtain ⟨old,was,sameID,worker,job,_⟩ := from_ first listed
    obtain ⟨old',was',sameID',worker',job',_⟩ := from_ second listed'
    have equal : old = old' := held.apart old was old' was' (by rw [← worker,← worker',workers]) (by rw [← job,← job',jobs])
    exact (s.runs.upsert run').eq_of_key listed listed' (by rw [← sameID,← sameID',equal])
  · intro other listed valid
    obtain ⟨old,was,_,worker,job,expiry⟩ := from_ other listed
    rw [worker,job,expiry]
    exact held.locked old was (expiry ▸ valid)

theorem held_hand {ttl : Time} (got : acquireLock s.locks job.id worker ttl s.now = some lock)
    (released : ∀ run ∈ s.runs, run.worker = worker → run.job.id ≠ job.id) : Held (hand s worker job lock) := by
  have own : lock.workerID = worker := by rw [acquireLock_some got]
  refine ⟨?_,?_,?_⟩
  · intro run listed
    rcases mem_upsert.mp listed with rfl | ⟨old,_⟩
    · exact Nat.lt_succ_self _
    · exact Nat.lt_succ_of_lt (held.fresh run old)
  · intro run listed run' listed' workers jobs
    rcases mem_upsert.mp listed with rfl | ⟨old,_⟩ <;> rcases mem_upsert.mp listed' with rfl | ⟨old',_⟩
    · rfl
    · exact absurd jobs.symm (released run' old' workers.symm)
    · exact absurd jobs (released run old workers)
    · exact held.apart run old run' old' workers jobs
  · intro run listed valid
    rcases mem_upsert.mp listed with rfl | ⟨old,_⟩
    · simp only [hand,Function.update_self,Option.some.injEq]
      rw [← own]
    · have before := held.locked run old valid
      -- A valid lock of the job is another worker's, and that is refused.
      have apart : run.job.id ≠ job.id := by
        intro same
        have other : run.worker ≠ worker := fun equal => released run old equal same
        have refused : acquireLock s.locks job.id worker ttl s.now = none :=
          acquireLock_refused (by rw [← same]; exact before) (by exact valid) other
        rw [refused] at got
        cases got
      simp only [hand,Function.update_of_ne apart]
      exact before
theorem held_release (member : run ∈ s.runs) : Held (release s run) := by
  have from_ : ∀ other ∈ s.runs.delete (fun other => other.id = run.id), other ∈ s.runs ∧ other ≠ run := by
    intro other listed
    obtain ⟨old,different⟩ := mem_delete.mp listed
    refine ⟨old,?_⟩
    rintro rfl
    simp at different
  refine ⟨fun other listed => held.fresh other (from_ other listed).1,?_,?_⟩
  · intro first listed second listed'
    exact held.apart first (from_ first listed).1 second (from_ second listed').1
  · intro other listed valid
    obtain ⟨old,different⟩ := from_ other listed
    refine releaseLock_other (held.locked other old valid) ?_
    intro sameJob sameWorker
    exact different (held.apart other old run member sameWorker sameJob)
private theorem held_start (member : run ∈ s.runs) : Held (start s run) := by
  simp only [start]
  split
  · exact held_setRun held member (by rfl) (by rfl) (by rfl) (by rfl)
  · exact held_setRun held member (by rfl) (by rfl) (by rfl) (by rfl)
end
theorem outcome_id (config : Config) (now : Time) (job : Job) (error : Option String) : (outcome config now job error).id = job.id := by
  cases error with
  | none => rfl
  | some message => simp only [outcome]; split <;> rfl
theorem held_step (held : Held s.toShared) (released : Released cfg s a) (effect : Effect cfg s a t) : Held t := by
  cases effect with
  | quiet => exact held
  | passed elapsed =>
    exact ⟨held.fresh,held.apart,fun run listed valid => held.locked run listed (Int.le_trans (le_later s.now elapsed) valid)⟩
  | created new => exact ⟨held.fresh,held.apart,held.locked⟩
  | acquired at_ got => exact held_hand held got (at_acquire released at_ got)
  | dispatched member phase => exact held_setRun held member (by rfl) (by rfl) (by rfl) (by rfl)
  | started member phase => exact held_start held member
  | finished error member phase => exact held_setRun held member (by rfl) (by rfl) (outcome_id ..) (by rfl)
  | recorded member phase => exact held_setRun held member (by rfl) (by rfl) (by rfl) (by rfl)
  | released member phase => exact held_release held member
theorem held_init : Held init.toShared :=
  ⟨forall_mem_empty,forall_mem_empty,forall_mem_empty⟩

private theorem timely_init : Timely init.toShared := forall_mem_empty
theorem timely_step {t : State} (inTime : InTime cfg s a) (stepped : step cfg s a = some t) : Timely t.toShared := by
  simpa [InTime,stepped] using inTime

theorem Held.single {s : Shared} (held : Held s) (member : run ∈ s.runs) (member' : run' ∈ s.runs) (valid : s.now ≤ run.expires)
    (valid' : s.now ≤ run'.expires) (same : run.job.id = run'.job.id) : run = run' := by
  have lock := held.locked run member valid
  have lock' := held.locked run' member' valid'
  rw [same,lock'] at lock
  injection lock with equal
  injection equal with workers
  exact held.apart run member run' member' workers.symm same

/-- Where executions end before their locks expire and a worker takes the lock of a job only after its goroutine has
    released it, no two executions of a job are in flight at a time. -/
theorem executions_apart (cfg : String → Config) {s : State}
    (run : Reach (step cfg) (fun s a => InTime cfg s a ∧ Released cfg s a) init s) :
    ∀ first ∈ s.runs, ∀ second ∈ s.runs, first.phase = .executing → second.phase = .executing →
      first.job.id = second.job.id → first = second := by
  have invariant := run.invariant (I := fun s => Held s.toShared ∧ Timely s.toShared) ⟨held_init,timely_init⟩
    (fun ⟨held,_⟩ ⟨inTime,released⟩ stepped =>
      ⟨held_step held released (step_effect stepped),timely_step inTime stepped⟩)
  obtain ⟨held,timely⟩ := invariant
  intro first member second member' executing executing' same
  exact held.single member member' (timely first member executing) (timely second member' executing') same

def defaults : Config :=
  { lockTTL := 30000000000, maxAttempts := 3, batchSize := 10, maxConcurrency := 10, maxQueueDepth := 1000, laneWeights := none }
def dueJob : Job :=
  { id := "job-1", subscriptionID := "sub-1", type := "charge", status := .pending, priority := priorityHigh, scheduledAt := 0
    startedAt := none, completedAt := none, attempts := 0, maxAttempts := 3, lastError := "", payload := none, createdAt := 0
    updatedAt := 0, parentTraceID := "" }
/-- The worker picks the job again before the goroutine it was handed to has marked it running. -/
def pickedTwice : List Action :=
  [.create dueJob,.poll "a",.next "a",.list "a" (some dueJob),.acquire "a",.dispatch "a",
    .next "a",.list "a" (some dueJob),.acquire "a",.dispatch "a",.start 0,.start 1]
theorem executions_overlap : ¬ ∀ (cfg : String → Config) (s : State), Reach (step cfg) (InTime cfg) init s →
    ∀ first ∈ s.runs, ∀ second ∈ s.runs, first.phase = .executing → second.phase = .executing →
      first.job.id = second.job.id → first = second := by
  intro claim
  obtain ⟨s,ran,first,member,second,member',executing,executing',same,different⟩ :=
    run_seen (step (fun _ => defaults)) init pickedTwice
      (fun s => ∃ first ∈ s.runs.rows, ∃ second ∈ s.runs.rows, first.phase = .executing ∧ second.phase = .executing ∧
        first.job.id = second.job.id ∧ first ≠ second) (by decide +kernel)
  exact different (claim (fun _ => defaults) s (run_reach ran (by decide +kernel)) first member second member' executing executing'
    same)
def pickedByTwo : List Action :=
  [.create dueJob,.poll "a",.next "a",.list "a" (some dueJob),.poll "b",.next "b",.list "b" (some dueJob),.acquire "a",.acquire "b",
    .dispatch "a",.start 0]
theorem executions_apart_pickedByTwo : ∃ s, Reach (step (fun _ => defaults))
      (fun s a => InTime (fun _ => defaults) s a ∧ Released (fun _ => defaults) s a) init s ∧
    s.executions = ["job-1"] ∧ ∀ first ∈ s.runs, ∀ second ∈ s.runs, first.phase = .executing → second.phase = .executing →
      first.job.id = second.job.id → first = second :=
  reach_seen pickedByTwo (by decide +kernel) (by decide +kernel) (fun _ reached _ => executions_apart (fun _ => defaults) reached)

end Stellabill.WorkerLocks
