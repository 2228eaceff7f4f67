import Stellabill.WorkerStatuses

/-!
How often a job is executed that always fails. The scheduler stores a limit of
attempts with every job, but a worker that handles a failure goes by the limit of
its own settings.
-/
namespace Stellabill.WorkerRetries
open Keyed Transitions JobStore Worker WorkerLocks WorkerStatuses
open Table (mem_upsert forall_upsert mem_delete)

def generateJobID (jobType : String) (now : Time) : String := jobType ++ "-" ++ toString now
def jobBase (now : Time) (jobType subscriptionID : String) (scheduledAt : Time) (maxAttempts : Int) (priority : Priority) : Job where
  id := generateJobID jobType now
  subscriptionID := subscriptionID
  type := jobType
  status := .pending
  priority := priority
  scheduledAt := scheduledAt
  startedAt := none
  completedAt := none
  attempts := 0
  maxAttempts := maxAttempts
  lastError := ""
  payload := none
  createdAt := now
  updatedAt := now
  parentTraceID := ""

def polls : Action → Bool
  | .poll _ | .next _ | .list .. | .acquire _ | .dispatch _ | .stop _ => true
  | .create _ | .advance _ | .start _ | .finish .. | .record _ | .release _ => false
def Alone (w : String) : Action → Prop
  | .poll worker | .next worker | .list worker _ | .acquire worker | .dispatch worker => worker = w
  | .stop _ => False
  | .create _ | .advance _ | .start _ | .finish .. | .record _ | .release _ => True
section
variable (id : String) (s : State)
def Fails : Action → Prop
  | .finish run error => ∀ r ∈ s.runs.rows, r.id = run → r.job.id = id → error.isSome
  | _ => True
/-- The job is one that the scheduler makes, with the limit of attempts. -/
def Scheduled (id : String) (maxAttempts : Int) (s : State) : Action → Prop
  | .create job => job.id = id → job = jobBase s.now job.type job.subscriptionID job.scheduledAt maxAttempts job.priority
  | _ => True
def PickedApart : Action → Prop
  | .list _ (some job) => job.id = id → ∀ run ∈ s.runs.rows, run.job.id ≠ id
  | _ => True
/-- The job is in one of the lanes, and all jobs together do not exceed the depth of the queue. -/
def Placed (cfg : String → Config) (w id : String) (s : State) : Action → Prop
  | .create job => (job.id = id → job.priority ∈ laneOrder) ∧ (s.jobs.rows.length : Int) < (cfg w).maxQueueDepth
  | _ => True

/-- One worker, and a job of the scheduler all of whose executions fail. -/
def Assumed (w : String) (maxAttempts : Int) (id : String) (s : State) (a : Action) : Prop :=
  Alone w a ∧ Fails id s a ∧ Scheduled id maxAttempts s a
/-- What the steps have to meet in addition. -/
def Orderly (cfg : String → Config) (w : String) (maxAttempts : Int) (id : String) (s : State) (a : Action) : Prop :=
  Assumed w maxAttempts id s a ∧ PickedApart id s a ∧ Placed cfg w id s a

instance (w : String) (a : Action) : Decidable (Alone w a) := by
  rcases a <;> unfold Alone <;> infer_instance
instance (a : Action) : Decidable (Fails id s a) := by
  rcases a <;> unfold Fails <;> infer_instance
instance (id : String) (maxAttempts : Int) (s : State) (a : Action) : Decidable (Scheduled id maxAttempts s a) := by
  rcases a <;> unfold Scheduled <;> infer_instance
instance (a : Action) : Decidable (PickedApart id s a) := by
  unfold PickedApart
  split <;> infer_instance
end
instance (cfg : String → Config) (w id : String) (s : State) (a : Action) : Decidable (Placed cfg w id s a) := by
  rcases a <;> unfold Placed <;> infer_instance
instance (w : String) (maxAttempts : Int) (id : String) (s : State) (a : Action) : Decidable (Assumed w maxAttempts id s a) :=
  inferInstanceAs (Decidable (_ ∧ _ ∧ _))
instance (cfg : String → Config) (w : String) (maxAttempts : Int) (id : String) (s : State) (a : Action) :
    Decidable (Orderly cfg w maxAttempts id s a) :=
  inferInstanceAs (Decidable (_ ∧ _ ∧ _))

variable {cfg : String → Config} {w id : String} {s : State} {t : Shared} {a : Action} {poll : Poll} {m N : Int}

def looks : Poll → Bool
  | .trying .. | .falling .. => true
  | .idle | .loop _ | .picked .. | .dispatching .. | .stopped => false
/-- A step under a single worker: what is shared after it, and where the polling stands. -/
inductive Turn (cfg : String → Config) (w : String) (s : State) : Action → Shared → Poll → Prop
  | background {a : Action} {t : Shared} (effect : Effect cfg s a t) (own : polls a = false) : Turn cfg w s a t (s.pollers w).poll
  | deep : Turn cfg w s (.poll w) s.toShared (s.pollers w).poll
  | polled (at_ : (s.pollers w).poll = .idle) : Turn cfg w s (.poll w) s.toShared (.loop 0)
  | ended {i : Nat} (at_ : (s.pollers w).poll = .loop i) : Turn cfg w s (.next w) s.toShared .idle
  | tried {i : Nat} {lane : Priority} (at_ : (s.pollers w).poll = .loop i) : Turn cfg w s (.next w) s.toShared (.trying i lane)
  | picked {i : Nat} {lane : Priority} {job : Job} (at_ : looks (s.pollers w).poll) (listed : job ∈ JobStore.lane s.jobs s.now lane) :
    Turn cfg w s (.list w (some job)) s.toShared (.picked i job)
  | fell {i : Nat} {lane : Priority} {rest : List Priority} (at_ : looks (s.pollers w).poll) :
    Turn cfg w s (.list w none) s.toShared (.falling i (lane :: rest))
  | nothing (at_ : looks (s.pollers w).poll) : Turn cfg w s (.list w none) s.toShared .idle
  | refused {i : Nat} {job : Job} (at_ : (s.pollers w).poll = .picked i job) : Turn cfg w s (.acquire w) s.toShared (.loop (i+1))
  | handed {i : Nat} {job : Job} {lock : Lock} (at_ : (s.pollers w).poll = .picked i job)
    (got : acquireLock s.locks job.id w (cfg w).lockTTL s.now = some lock) :
    Turn cfg w s (.acquire w) (hand s.toShared w job lock) (.dispatching i s.nextRun)
  | dispatched {i : Nat} {run : Run} (at_ : (s.pollers w).poll = .dispatching i run.id) (member : run ∈ s.runs)
    (phase : run.phase = .queued) : Turn cfg w s (.dispatch w) (s.setRun { run with phase := .starting }) (.loop (i+1))

@[simp] theorem goto_poll (s : State) (w : String) (poll : Poll) : ((s.goto w poll).pollers w).poll = poll := by
  simp [State.goto]
theorem goroutine_pollers {s t : State} {id : Nat} {phase : Phase} {go : Shared → Run → Shared} (went : s.goroutine id phase go = some t) :
    t.pollers = s.pollers := by
  obtain ⟨run,_,took⟩ := Option.bind_eq_some_iff.mp went
  obtain ⟨_,rfl⟩ := guarded took
  rfl
private theorem step_pollers {t : State} (own : polls a = false) (stepped : step cfg s a = some t) : t.pollers = s.pollers := by
  cases a with
  | create job =>
    obtain ⟨_,rfl⟩ := guarded stepped
    rfl
  | advance elapsed =>
    cases stepped
    rfl
  | start id => exact goroutine_pollers stepped
  | finish id error =>
    simp only [step] at stepped
    exact goroutine_pollers stepped
  | record | release => exact goroutine_pollers stepped
  | poll | next | list | acquire | dispatch | stop => cases own
private theorem list_turn {t : State} {pick : Option Job} (stepped : step cfg s (.list w pick) = some t) :
    Turn cfg w s (.list w pick) t.toShared (t.pollers w).poll := by
  simp only [step] at stepped
  split at stepped
  · next at_ =>
    have looking : looks (s.pollers w).poll := by rw [at_]; rfl
    unfold tryLane at stepped
    split at stepped
    · obtain ⟨first,rfl⟩ := guarded stepped
      simpa using Turn.picked looking first.1
    · obtain ⟨_,rfl⟩ := guarded stepped
      rw [goto_poll]
      exact .fell looking
  · next i lane rest at_ =>
    have looking : looks (s.pollers w).poll := by rw [at_]; rfl
    unfold pickHighestPriority at stepped
    split at stepped
    · obtain ⟨first,rfl⟩ := guarded stepped
      rw [goto_poll]
      exact .picked looking first.1
    · obtain ⟨_,rfl⟩ := guarded stepped
      rw [goto_poll]
      cases rest with
      | nil => exact .nothing looking
      | cons lane rest => exact .fell looking
  · cases stepped
theorem step_turn {t : State} (alone : Alone w a) (stepped : step cfg s a = some t) : Turn cfg w s a t.toShared (t.pollers w).poll := by
  cases own : polls a with
  | false =>
    rw [step_pollers own stepped]
    exact .background (step_effect stepped) own
  | true =>
    cases a with
    | poll worker =>
      cases alone
      obtain ⟨at_,rfl⟩ := guarded stepped
      split
      · exact .deep
      · rw [goto_poll]
        exact .polled at_
    | next worker =>
      cases alone
      simp only [step] at stepped
      split at stepped <;> cases stepped
      next at_ =>
      unfold Worker.next
      split
      · simpa using Turn.tried at_
      · rw [goto_poll]
        exact .ended at_
    | list worker pick =>
      cases alone
      exact list_turn stepped
    | acquire worker =>
      cases alone
      simp only [step] at stepped
      split at stepped <;> cases stepped
      next at_ =>
      unfold acquire
      split
      · rw [goto_poll]
        exact .refused at_
      · next got =>
        simpa using Turn.handed at_ got
    | dispatch worker =>
      cases alone
      simp only [step] at stepped
      split at stepped
      · next i n at_ =>
        split at stepped
        · obtain ⟨run,member,rfl,phase,same⟩ := goroutine_some stepped
          rw [same,goroutine_pollers stepped,goto_poll]
          exact .dispatched at_ member phase
        · cases stepped
      · cases stepped
    | stop worker => exact alone.elim
    | create _ | advance _ | start _ | finish _ _ | record _ | release _ => cases own

/-! ### Goroutines and locks of a single worker -/

def Present (jobs : Jobs) (id : String) : Prop := ∃ job ∈ jobs, job.id = id

variable {jobs : Jobs} {job : Job} {poll' : Poll} {run run' : Run} {i : Nat}

theorem present_upsert (job : Job) (present : Present jobs id) : Present (jobs.upsert job) id := by
  obtain ⟨old,member,same⟩ := present
  by_cases equal : old.id = job.id
  · exact ⟨job,mem_upsert.mpr (.inl rfl),equal.symm.trans same⟩
  · exact ⟨old,mem_upsert.mpr (.inr ⟨member,equal⟩),same⟩
theorem update_present {now : Time} (present : Present jobs job.id) :
    update jobs job now = some (jobs.upsert { job with updatedAt := now }) := by
  obtain ⟨old,member,same⟩ := present
  rw [update,jobs.find_some.mpr ⟨member,same⟩]
  rfl

/-- All locks and goroutines are the worker's, their jobs are stored, and a goroutine is queued while the polling waits for it. -/
structure Sound (w : String) (s : Shared) (poll : Poll) : Prop where
  owned : ∀ id lock, s.locks id = some lock → lock.workerID = w
  worker : ∀ run ∈ s.runs, run.worker = w
  fresh : ∀ run ∈ s.runs, run.id < s.nextRun
  stored : ∀ run ∈ s.runs, Present s.jobs run.job.id
  queued : ∀ run ∈ s.runs, run.phase = .queued → ∃ i, poll = .dispatching i run.id
  waited : ∀ i n, poll = .dispatching i n → ∃ run ∈ s.runs, run.id = n ∧ run.phase = .queued
  picked : ∀ i job, poll = .picked i job → Present s.jobs job.id
  goes : poll ≠ .stopped ∧ ∀ i, poll ≠ .falling i []

section
variable {s : Shared} {executions : List String} {lock : Lock}

section
variable (sound : Sound w s poll)
include sound
theorem sound_poll (before : ∀ i n, poll ≠ .dispatching i n) (after : ∀ i n, poll' ≠ .dispatching i n)
    (picked : ∀ i job, poll' = .picked i job → Present s.jobs job.id) (goes : poll' ≠ .stopped ∧ ∀ i, poll' ≠ .falling i []) : Sound w s poll' where
  owned := sound.owned
  worker := sound.worker
  fresh := sound.fresh
  stored := sound.stored
  queued run member phase := by
    obtain ⟨i,at_⟩ := sound.queued run member phase
    exact absurd at_ (before i run.id)
  waited i n at_ := absurd at_ (after i n)
  picked := picked
  goes := goes
theorem sound_setRun (member : run ∈ s.runs) (same : run'.id = run.id)
    (sameWorker : run'.worker = run.worker) (sameJob : run'.job.id = run.job.id) (before : run.phase ≠ .queued)
    (after : run'.phase ≠ .queued) (kept : ∀ id, Present s.jobs id → Present jobs id) :
    Sound w { s.setRun run' with jobs, executions } poll where
  owned := sound.owned
  worker := forall_upsert (sameWorker.trans (sound.worker run member)) sound.worker
  fresh := forall_upsert (same ▸ sound.fresh run member) sound.fresh
  stored := forall_upsert (sameJob ▸ kept _ (sound.stored run member)) (fun other was => kept _ (sound.stored other was))
  queued := forall_upsert (fun phase => absurd phase after) sound.queued
  waited i n at_ := by
    obtain ⟨waiting,was,rfl,phase⟩ := sound.waited i n at_
    refine ⟨waiting,mem_upsert.mpr (.inr ⟨was,?_⟩),rfl,phase⟩
    intro equal
    rw [same] at equal
    exact before (s.runs.eq_of_key was member equal ▸ phase)
  picked i job at_ := kept _ (sound.picked i job at_)
  goes := sound.goes
private theorem sound_release (member : run ∈ s.runs) (phase : run.phase = .releasing) : Sound w (release s run) poll := by
  have old : ∀ other ∈ s.runs.delete (fun other => other.id = run.id), other ∈ s.runs :=
    fun other listed => (mem_delete.mp listed).1
  refine ⟨?_,fun other listed => sound.worker other (old other listed),fun other listed => sound.fresh other (old other listed),
    fun other listed => sound.stored other (old other listed),fun other listed => sound.queued other (old other listed),?_,sound.picked,
    sound.goes⟩
  · intro id lock held
    simp only [release,releaseLock] at held
    split at held
    · by_cases same : id = run.job.id
      · rw [same,Function.update_self] at held
        cases held
      · rw [Function.update_of_ne same] at held
        exact sound.owned id lock held
    · exact sound.owned id lock held
  · intro i n at_
    obtain ⟨waiting,was,rfl,queued⟩ := sound.waited i n at_
    refine ⟨waiting,mem_delete.mpr ⟨was,?_⟩,rfl,queued⟩
    have apart : waiting.id ≠ run.id := by
      intro equal
      rw [s.runs.eq_of_key was member equal,phase] at queued
      cases queued
    simpa using apart
end
private theorem sound_hand (sound : Sound w s (.picked i job)) (own : lock.workerID = w) :
    Sound w (hand s w job lock) (.dispatching i s.nextRun) where
  owned id lock' held := by
    simp only [hand] at held
    by_cases same : id = job.id
    · rw [same,Function.update_self] at held
      cases held
      exact own
    · rw [Function.update_of_ne same] at held
      exact sound.owned id lock' held
  worker := forall_upsert rfl sound.worker
  fresh := forall_upsert (Nat.lt_succ_self _) (fun other was => Nat.lt_succ_of_lt (sound.fresh other was))
  stored := forall_upsert (sound.picked i job rfl) sound.stored
  queued := by
    refine forall_upsert (fun _ => ⟨i,rfl⟩) fun other was phase => ?_
    obtain ⟨_,at_⟩ := sound.queued other was phase
    cases at_
  waited := by
    rintro _ _ ⟨⟩
    exact ⟨_,mem_upsert.mpr (.inl rfl),rfl,rfl⟩
  picked := by rintro _ _ ⟨⟩
  goes := by simp
private theorem sound_dispatch (sound : Sound w s (.dispatching i run.id)) (member : run ∈ s.runs) :
    Sound w (s.setRun { run with phase := .starting }) (.loop (i+1)) where
  owned := sound.owned
  worker := forall_upsert (sound.worker run member) sound.worker
  fresh := forall_upsert (sound.fresh run member) sound.fresh
  stored := forall_upsert (sound.stored run member) sound.stored
  queued other listed phase := by
    obtain rfl | ⟨was,apart⟩ := mem_upsert.mp listed
    · cases phase
    · obtain ⟨_,at_⟩ := sound.queued other was phase
      injection at_ with _ same
      exact absurd same.symm apart
  waited := by rintro _ _ ⟨⟩
  picked := by rintro _ _ ⟨⟩
  goes := by simp

def running (now : Time) (job : Job) : Job :=
  { job with status := .running, attempts := job.attempts+1, startedAt := some now, updatedAt := now }
theorem start_present (present : Present s.jobs run.job.id) :
    start s run = { s.setRun { run with job := running s.now run.job, phase := .executing } with
      jobs := s.jobs.upsert (running s.now run.job)
      executions := run.job.id :: s.executions } := by
  have updated := @update_present s.jobs
    { run.job with status := .running, attempts := run.job.attempts+1, startedAt := some s.now } s.now present
  simp only [start,updated,running]
theorem record_present (present : Present s.jobs run.job.id) :
    record s run = { s.setRun { run with phase := .releasing } with jobs := s.jobs.upsert { run.job with updatedAt := s.now } } := by
  rw [record,update_present present]
  rfl
end
private theorem not_dispatching (at_ : looks poll) (i n : Nat) : poll ≠ .dispatching i n := by
  rintro rfl
  cases at_
theorem sound_turn (sound : Sound w s.toShared (s.pollers w).poll) (turn : Turn cfg w s a t poll) : Sound w t poll := by
  cases turn with
  | background effect own =>
    cases effect with
    | quiet => exact sound
    | passed elapsed => exact { sound with }
    | created new =>
      exact { sound with
        stored := fun run member => present_upsert _ (sound.stored run member)
        picked := fun i job at_ => present_upsert _ (sound.picked i job at_) }
    | acquired | dispatched => cases own
    | started member phase =>
      rw [start_present (sound.stored _ member)]
      exact sound_setRun sound member rfl rfl rfl (by simp [phase]) (by simp) (fun id => present_upsert _)
    | finished error member phase =>
      exact sound_setRun sound member rfl rfl (outcome_id ..) (by simp [phase]) (by simp) (fun id present => present)
    | recorded member phase =>
      rw [record_present (sound.stored _ member)]
      exact sound_setRun sound member rfl rfl rfl (by simp [phase]) (by simp) (fun id => present_upsert _)
    | released member phase => exact sound_release sound member phase
  | deep => exact sound
  | polled at_ => exact sound_poll sound (by simp [at_]) (by simp) (by simp) (by simp)
  | ended at_ => exact sound_poll sound (by simp [at_]) (by simp) (by simp) (by simp)
  | tried at_ => exact sound_poll sound (by simp [at_]) (by simp) (by simp) (by simp)
  | picked at_ listed =>
    refine sound_poll sound (not_dispatching at_) (by simp) ?_ (by simp)
    rintro _ _ ⟨⟩
    exact ⟨_,(List.mem_filter.mp listed).1,rfl⟩
  | fell at_ => exact sound_poll sound (not_dispatching at_) (by simp) (by simp) (by simp)
  | nothing at_ => exact sound_poll sound (not_dispatching at_) (by simp) (by simp) (by simp)
  | refused at_ => exact sound_poll sound (by simp [at_]) (by simp) (by simp) (by simp)
  | handed at_ got =>
    rw [at_] at sound
    exact sound_hand sound (by rw [acquireLock_some got])
  | dispatched at_ member phase =>
    rw [at_] at sound
    exact sound_dispatch sound member

/-! ### The attempts at a job -/

def executed (id : String) (s : Shared) : Int := s.executions.count id

/-- A copy of the job to execute: it counts the executions so far, and there are more to come. -/
structure Ready (N : Int) (id : String) (s : Shared) (job : Job) : Prop where
  attempts : job.attempts = executed id s
  left : executed id s < N
  listed : job.priority ∈ laneOrder
/-- A copy of the job after an execution: dead-lettered after `N` executions, and pending before. -/
structure Settled (N : Int) (id : String) (s : Shared) (job : Job) : Prop where
  attempts : job.attempts = executed id s
  status : job.status = .pending ∧ executed id s < N ∨ job.status = .deadLetter ∧ executed id s = N
  listed : job.priority ∈ laneOrder

/-- What a goroutine at the job has, by its phase. -/
def AtPhase (N : Int) (id : String) (s : Shared) (run : Run) : Prop :=
  match run.phase with
  | .queued | .starting => Ready N id s run.job ∧ StoredAs s.jobs id .pending
  | .executing => (run.job.attempts = executed id s ∧ 1 ≤ executed id s ∧ executed id s ≤ N ∧ run.job.priority ∈ laneOrder) ∧
      StoredAs s.jobs id .running
  | .recording => Settled N id s run.job ∧ StoredAs s.jobs id .running
  | .releasing => ∃ job ∈ s.jobs, job.id = id ∧ Settled N id s job

/-- At most one goroutine is at the job, and it or else the stored job counts the executions. -/
structure Budgeted (N : Int) (id : String) (s : Shared) (poll : Poll) : Prop where
  absent : ¬ Present s.jobs id → executed id s = 0
  single : ∀ run ∈ s.runs, ∀ run' ∈ s.runs, run.job.id = id → run'.job.id = id → run = run'
  runs : ∀ run ∈ s.runs, run.job.id = id → AtPhase N id s run
  free : (∀ run ∈ s.runs, run.job.id ≠ id) → ∀ job ∈ s.jobs, job.id = id → Settled N id s job
  picked : ∀ i job, poll = .picked i job → job.id = id → (∀ run ∈ s.runs, run.job.id ≠ id) ∧ Ready N id s job

theorem mem_upsert_other (other : job.id ≠ id) (stored : Job) (its : stored.id = id) : stored ∈ jobs.upsert job ↔ stored ∈ jobs := by
  rw [mem_upsert]
  constructor
  · rintro (rfl | ⟨member,_⟩)
    · exact absurd its other
    · exact member
  · intro member
    exact .inr ⟨member,fun equal => other (equal.symm.trans its)⟩
theorem mem_setRun_other {runs : Table Run.id} (member : run ∈ runs) (same : run'.id = run.id) (other : run.job.id ≠ id)
    (other' : run'.job.id ≠ id) (stored : Run) (its : stored.job.id = id) : stored ∈ runs.upsert run' ↔ stored ∈ runs := by
  rw [mem_upsert]
  constructor
  · rintro (rfl | ⟨member,_⟩)
    · exact absurd its other'
    · exact member
  · intro member'
    refine .inr ⟨member',fun equal => ?_⟩
    rw [same] at equal
    exact other (runs.eq_of_key member' member equal ▸ its)
theorem storedAs_upsert (its : job.id = id) : StoredAs (jobs.upsert job) id job.status :=
  ⟨job,mem_upsert.mpr (.inl rfl),its,rfl⟩

section
variable {s : Shared}

section
variable (budgeted : Budgeted N id s poll)
include budgeted

theorem budgeted_frame (jobs : ∀ job, job.id = id → (job ∈ t.jobs ↔ job ∈ s.jobs))
    (runs : ∀ run, run.job.id = id → (run ∈ t.runs ↔ run ∈ s.runs)) (same : t.executions.count id = s.executions.count id)
    (picked : ∀ i job, poll' = .picked i job → job.id = id → poll = .picked i job) : Budgeted N id t poll' := by
  have count : executed id t = executed id s := by rw [executed,executed,same]
  have stored : ∀ status, StoredAs s.jobs id status → StoredAs t.jobs id status := by
    rintro status ⟨job,member,its⟩
    exact ⟨job,(jobs job its.1).mpr member,its⟩
  have ready : ∀ job, Ready N id s job → Ready N id t job := fun job ready => ⟨count ▸ ready.attempts,count ▸ ready.left,ready.listed⟩
  have settled : ∀ job, Settled N id s job → Settled N id t job :=
    fun job settled => ⟨count ▸ settled.attempts,count ▸ settled.status,settled.listed⟩
  have nobody : (∀ run ∈ t.runs, run.job.id ≠ id) ↔ ∀ run ∈ s.runs, run.job.id ≠ id := by
    constructor
    · exact fun none run member its => none run ((runs run its).mpr member) its
    · exact fun none run member its => none run ((runs run its).mp member) its
  refine ⟨?_,?_,?_,?_,?_⟩
  · intro missing
    rw [count]
    refine budgeted.absent ?_
    rintro ⟨job,member,its⟩
    exact missing ⟨job,(jobs job its).mpr member,its⟩
  · intro run member run' member' its its'
    exact budgeted.single run ((runs run its).mp member) run' ((runs run' its').mp member') its its'
  · intro run member its
    have before := budgeted.runs run ((runs run its).mp member) its
    cases phase : run.phase with
    | queued | starting =>
      simp only [AtPhase,phase] at before ⊢
      exact ⟨ready _ before.1,stored _ before.2⟩
    | executing =>
      simp only [AtPhase,phase] at before ⊢
      rw [count]
      exact ⟨before.1,stored _ before.2⟩
    | recording =>
      simp only [AtPhase,phase] at before ⊢
      exact ⟨settled _ before.1,stored _ before.2⟩
    | releasing =>
      simp only [AtPhase,phase] at before ⊢
      obtain ⟨job,there,same,its⟩ := before
      exact ⟨job,(jobs job same).mpr there,same,settled job its⟩
  · intro none job member its
    exact settled job (budgeted.free (nobody.mp none) job ((jobs job its).mp member) its)
  · intro i job at_ its
    obtain ⟨none,its⟩ := budgeted.picked i job (picked i job at_ its) its
    exact ⟨nobody.mpr none,ready job its⟩
theorem budgeted_created (sound : Sound w s poll) (new : s.jobs.find job.id = none)
    (positive : 1 ≤ N) (made : job.id = id → job.attempts = 0 ∧ job.status = .pending ∧ job.priority ∈ laneOrder) :
    Budgeted N id { s with jobs := s.jobs.upsert job } poll := by
  by_cases its : job.id = id
  · obtain ⟨attempts,status,listed⟩ := made its
    have missing : ¬ Present s.jobs id := by
      rintro ⟨old,member,same⟩
      exact s.jobs.find_none.mp new old member (same.trans its.symm)
    have count := budgeted.absent missing
    have none : ∀ run ∈ s.runs, run.job.id ≠ id := fun run member about => missing (about ▸ sound.stored run member)
    refine ⟨fun gone => absurd ⟨job,mem_upsert.mpr (.inl rfl),its⟩ gone,budgeted.single,
      fun run member about => absurd about (none run member),?_,?_⟩
    · intro _ stored member about
      obtain rfl | ⟨old,_⟩ := mem_upsert.mp member
      · refine ⟨attempts.trans count.symm,.inl ⟨status,?_⟩,listed⟩
        have zero : executed id { s with jobs := s.jobs.upsert stored } = 0 := count
        omega
      · exact absurd ⟨stored,old,about⟩ missing
    · intro i picked at_ about
      exact absurd (about ▸ sound.picked i picked at_) missing
  · exact budgeted_frame budgeted (mem_upsert_other its) (fun _ _ => Iff.rfl) rfl (fun _ _ at_ _ => at_)

section
variable (member : run ∈ s.runs)
include member
theorem budgeted_setRun (its : run.job.id = id) (same : run'.id = run.id) (present : Present jobs id) (its' : run'.job.id = id)
    (after : AtPhase N id { s.setRun run' with jobs, executions } run')
    (picked : ∀ i job, poll' = .picked i job → job.id = id → poll = .picked i job) :
    Budgeted N id { s.setRun run' with jobs, executions } poll' := by
  have only : ∀ other ∈ s.runs.upsert run', other.job.id = id → other = run' := by
    intro other listed about
    obtain rfl | ⟨was,apart⟩ := mem_upsert.mp listed
    · rfl
    · rw [same] at apart
      exact absurd (congrArg Run.id (budgeted.single other was run member about its)) apart
  refine ⟨fun missing => absurd present missing,?_,?_,?_,?_⟩
  · intro first listed second listed' about about'
    rw [only first listed about,only second listed' about']
  · intro other listed about
    rw [only other listed about]
    exact after
  · intro none
    exact absurd its' (none run' (mem_upsert.mpr (.inl rfl)))
  · intro i job at_ about
    exact absurd its ((budgeted.picked i job (picked i job at_ about) about).1 run member)
theorem budgeted_release (phase : run.phase = .releasing) : Budgeted N id (release s run) poll := by
  by_cases its : run.job.id = id
  · have before := budgeted.runs run member its
    simp only [AtPhase,phase] at before
    obtain ⟨job,there,about,settled⟩ := before
    have none : ∀ other ∈ (release s run).runs, other.job.id ≠ id := by
      intro other listed about
      obtain ⟨was,apart⟩ := mem_delete.mp listed
      rw [budgeted.single other was run member about its] at apart
      simp at apart
    refine ⟨budgeted.absent,fun other listed => fun _ _ about => absurd about (none other listed),
      fun other listed about => absurd about (none other listed),?_,?_⟩
    · intro _ stored listed same
      rw [s.jobs.eq_of_key listed there (same.trans about.symm)]
      exact ⟨settled.attempts,settled.status,settled.listed⟩
    · intro i picked at_ about
      exact absurd its ((budgeted.picked i picked at_ about).1 run member)
  · refine budgeted_frame budgeted (fun _ _ => Iff.rfl) ?_ rfl (fun _ _ at_ _ => at_)
    intro other about
    rw [release,mem_delete]
    refine ⟨fun both => both.1,fun was => ⟨was,?_⟩⟩
    have apart : other.id ≠ run.id := fun equal => its (s.runs.eq_of_key was member equal ▸ about)
    simpa using apart
theorem budgeted_dispatch (phase : run.phase = .queued) (picked : ∀ i job, poll' ≠ .picked i job) :
    Budgeted N id (s.setRun { run with phase := .starting }) poll' := by
  have never : ∀ i job, poll' = .picked i job → job.id = id → poll = .picked i job := fun i job at_ => absurd at_ (picked i job)
  by_cases its : run.job.id = id
  · have before := budgeted.runs run member its
    simp only [AtPhase,phase] at before
    obtain ⟨ready,job,there,about,pending⟩ := before
    exact budgeted_setRun budgeted member its rfl ⟨job,there,about⟩ its
      ⟨⟨ready.attempts,ready.left,ready.listed⟩,job,there,about,pending⟩ never
  · exact budgeted_frame budgeted (fun _ _ => Iff.rfl) (mem_setRun_other member rfl its its) rfl never

variable (sound : Sound w s poll)
include sound
theorem budgeted_start (phase : run.phase = .starting) : Budgeted N id (start s run) poll := by
  rw [start_present (sound.stored run member)]
  by_cases its : run.job.id = id
  · have before := budgeted.runs run member its
    simp only [AtPhase,phase] at before
    have attempts := before.1.attempts
    have left := before.1.left
    have more : (((run.job.id :: s.executions).count id : Nat) : Int) = executed id s+1 := by
      rw [its,List.count_cons_self,executed]
      omega
    have nonneg : 0 ≤ executed id s := Int.natCast_nonneg _
    refine budgeted_setRun budgeted member its rfl (present_upsert _ (its ▸ sound.stored run member)) its ?_
      (fun _ _ at_ _ => at_)
    refine ⟨⟨?_,?_,?_,before.1.listed⟩,storedAs_upsert its⟩
    · exact (congrArg (· + 1) attempts).trans more.symm
    · exact le_of_le_of_eq (show 1 ≤ executed id s+1 by omega) more.symm
    · exact le_of_eq_of_le more (show executed id s+1 ≤ N by omega)
  · refine budgeted_frame budgeted (mem_upsert_other its) (mem_setRun_other member rfl its its) ?_ (fun _ _ at_ _ => at_)
    exact List.count_cons_of_ne its
theorem budgeted_record (phase : run.phase = .recording) : Budgeted N id (record s run) poll := by
  rw [record_present (sound.stored run member)]
  by_cases its : run.job.id = id
  · have before := budgeted.runs run member its
    simp only [AtPhase,phase] at before
    have there : { run.job with updatedAt := s.now } ∈ s.jobs.upsert { run.job with updatedAt := s.now } :=
      mem_upsert.mpr (.inl rfl)
    refine budgeted_setRun budgeted member its rfl ⟨_,there,its⟩ its ?_ (fun _ _ at_ _ => at_)
    exact ⟨_,there,its,before.1.attempts,before.1.status,before.1.listed⟩
  · exact budgeted_frame budgeted (mem_upsert_other its) (mem_setRun_other member rfl its its) rfl (fun _ _ at_ _ => at_)
end
end

section
variable (config : Config) (now : Time) (job : Job)
private theorem outcome_priority (error : Option String) : (outcome config now job error).priority = job.priority := by
  cases error with
  | none => rfl
  | some message =>
    simp only [outcome]
    split <;> rfl
private theorem outcome_attempts (error : Option String) : (outcome config now job error).attempts = job.attempts := by
  cases error with
  | none => rfl
  | some message =>
    simp only [outcome]
    split <;> rfl
private theorem outcome_failed (message : String) :
    (outcome config now job (some message)).status = if job.attempts ≥ config.maxAttempts then .deadLetter else .pending := by
  simp only [outcome]
  split <;> rfl
end
private theorem budgeted_finish {cfg : String → Config} (sound : Sound w s poll)
    (budgeted : Budgeted (max 1 (cfg w).maxAttempts) id s poll) {error : Option String} (member : run ∈ s.runs)
    (phase : run.phase = .executing) (fails : run.job.id = id → error.isSome) :
    Budgeted (max 1 (cfg w).maxAttempts) id (finish cfg s run error) poll := by
  have sameID := outcome_id (cfg run.worker) s.now run.job error
  by_cases its : run.job.id = id
  · obtain ⟨message,rfl⟩ := Option.isSome_iff_exists.mp (fails its)
    have before := budgeted.runs run member its
    simp only [AtPhase,phase] at before
    obtain ⟨⟨attempts,once,most,listed⟩,stored⟩ := before
    obtain ⟨job,there,about,running⟩ := stored
    refine budgeted_setRun budgeted member its rfl ⟨job,there,about⟩ (sameID.trans its) ?_ (fun _ _ at_ _ => at_)
    refine ⟨⟨?_,?_,?_⟩,job,there,about,running⟩
    · rw [outcome_attempts]
      exact attempts
    · rw [outcome_failed,sound.worker run member]
      split
      · exact .inr ⟨rfl,by change executed id s = _; omega⟩
      · exact .inl ⟨rfl,by change executed id s < _; omega⟩
    · rw [outcome_priority]
      exact listed
  · exact budgeted_frame budgeted (fun _ _ => Iff.rfl) (mem_setRun_other member rfl its (by rw [sameID]; exact its)) rfl
      (fun _ _ at_ _ => at_)
private theorem budgeted_hand (sound : Sound w s (.picked i job)) (budgeted : Budgeted N id s (.picked i job)) :
    Budgeted N id (hand s w job lock) (.dispatching i s.nextRun) := by
  have fresh : ∀ run ∈ s.runs, run.id ≠ s.nextRun := fun run member => Nat.ne_of_lt (sound.fresh run member)
  by_cases its : job.id = id
  · obtain ⟨none,ready⟩ := budgeted.picked i job rfl its
    obtain ⟨stored,there,about⟩ := sound.picked i job rfl
    have settled := budgeted.free none stored there (about.trans its)
    have pending : stored.status = .pending := by
      obtain ⟨status,_⟩ | ⟨_,spent⟩ := settled.status
      · exact status
      · exact absurd spent (Int.ne_of_lt ready.left)
    have only : ∀ run ∈ (hand s w job lock).runs, run.job.id = id → run = ⟨s.nextRun,w,job,lock.expiresAt,.queued⟩ := by
      intro run listed about
      obtain rfl | ⟨was,_⟩ := mem_upsert.mp listed
      · rfl
      · exact absurd about (none run was)
    refine ⟨budgeted.absent,?_,?_,?_,by rintro _ _ ⟨⟩⟩
    · intro first listed second listed' same same'
      rw [only first listed same,only second listed' same']
    · intro run listed same
      rw [only run listed same]
      exact ⟨⟨ready.attempts,ready.left,ready.listed⟩,stored,there,about.trans its,pending⟩
    · intro nobody
      exact absurd its (nobody _ (mem_upsert.mpr (.inl rfl)))
  · refine budgeted_frame budgeted (fun _ _ => Iff.rfl) ?_ rfl (by rintro _ _ ⟨⟩)
    intro run about
    rw [hand,mem_upsert]
    constructor
    · rintro (rfl | ⟨was,_⟩)
      · exact absurd about its
      · exact was
    · exact fun was => .inr ⟨was,fresh run was⟩
end

theorem budgeted_turn (sound : Sound w s.toShared (s.pollers w).poll)
    (budgeted : Budgeted (max 1 (cfg w).maxAttempts) id s.toShared (s.pollers w).poll) (ok : Orderly cfg w m id s a)
    (turn : Turn cfg w s a t poll) : Budgeted (max 1 (cfg w).maxAttempts) id t poll := by
  obtain ⟨⟨_,fails,scheduled⟩,apart,placed⟩ := ok
  have quiet : ∀ {poll'}, (∀ i job, poll' ≠ .picked i job) → Budgeted (max 1 (cfg w).maxAttempts) id s.toShared poll' :=
    fun never => budgeted_frame budgeted (fun _ _ => Iff.rfl) (fun _ _ => Iff.rfl) rfl (fun i job at_ => absurd at_ (never i job))
  cases turn with
  | background effect own =>
    cases effect with
    | quiet => exact budgeted
    | passed elapsed => exact budgeted_frame budgeted (fun _ _ => Iff.rfl) (fun _ _ => Iff.rfl) rfl (fun _ _ at_ _ => at_)
    | created new =>
      refine budgeted_created budgeted sound new (Int.le_max_left ..) fun its => ?_
      rw [scheduled its]
      exact ⟨rfl,rfl,placed.1 its⟩
    | acquired | dispatched => cases own
    | started member phase => exact budgeted_start budgeted member sound phase
    | finished error member phase => exact budgeted_finish sound budgeted member phase (fails _ member rfl)
    | recorded member phase => exact budgeted_record budgeted member sound phase
    | released member phase => exact budgeted_release budgeted member phase
  | deep => exact budgeted
  | polled | ended | tried => exact quiet (by simp)
  | @picked i lane job at_ listed =>
    obtain ⟨member,waits⟩ := List.mem_filter.mp listed
    refine ⟨budgeted.absent,budgeted.single,budgeted.runs,budgeted.free,?_⟩
    rintro _ _ ⟨⟩ its
    have none := apart its
    have settled := budgeted.free none job member its
    obtain ⟨_,left⟩ | ⟨spent,_⟩ := settled.status
    · exact ⟨none,settled.attempts,left,settled.listed⟩
    · simp [due,spent] at waits
  | fell | nothing | refused => exact quiet (by simp)
  | handed at_ got =>
    rw [at_] at sound budgeted
    exact budgeted_hand sound budgeted
  | dispatched at_ member phase => exact budgeted_dispatch budgeted member phase (by simp)

end Stellabill.WorkerRetries
