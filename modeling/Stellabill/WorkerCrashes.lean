import Stellabill.WorkerStatuses

/-!
Workers that crash, and updates of the job store that fail. A job is stored as
running while a goroutine executes it, and only that goroutine brings it out of
this status.
-/
namespace Stellabill.WorkerCrashes
open Keyed Transitions JobStore Worker WorkerLocks WorkerStatuses
open Table (mem_upsert mem_delete forall_mem_empty)

/-- The steps of the workers; a worker crashes with its goroutines, and may start again; and the update that marks a job
    running, or that with the outcome, fails. -/
inductive Event
  | worker (a : Action)
  | crash (worker : String)
  | restart (worker : String)
  | startError (run : Nat)
  | recordError (run : Nat)
  deriving DecidableEq

/-- The locks of a worker that crashes stay. -/
def crash (s : State) (worker : String) : State :=
  { s with runs := s.runs.delete (fun run => run.worker = worker), pollers := Function.update s.pollers worker ⟨.stopped,0,0⟩ }
def startError (s : Shared) (run : Run) : Shared :=
  s.setRun { run with
    job := { run.job with status := .running, attempts := run.job.attempts+1, startedAt := some s.now }
    phase := .releasing }
def recordError (s : Shared) (run : Run) : Shared := s.setRun { run with phase := .releasing }

section
variable (cfg : String → Config)
def step (s : State) : Event → Option State
  | .worker a => Worker.step cfg s a
  | .crash worker => some (crash s worker)
  | .restart worker =>
    if (s.pollers worker).poll = .stopped then some { s with pollers := Function.update s.pollers worker ⟨.idle,0,0⟩ } else none
  | .startError id => s.goroutine id .starting startError
  | .recordError id => s.goroutine id .recording recordError

/-- The job is stored as running: its goroutine executes it, or has yet to store the outcome. -/
def Active (run : Run) : Prop := run.phase = .executing ∨ run.phase = .recording
  deriving Decidable

/-- A goroutine executes the job, and its worker holds a lock that has not expired. -/
def Executed (s : Shared) (job : Job) : Prop :=
  ∃ run ∈ s.runs, run.job.id = job.id ∧ Active run ∧ ∃ lock, s.locks job.id = some lock ∧ lock.workerID = run.worker ∧
    s.now ≤ lock.expiresAt
/-- The job is stored, and `ListPending` returns it once it is due. -/
def Waiting (s : Shared) (job : Job) : Prop :=
  job ∈ s.jobs ∧ (job.scheduledAt ≤ s.now → ∀ limit, queueDepth s.jobs s.now ≤ limit → job ∈ listPending s.jobs s.now limit)
/-- Every job that is not finished is executed, or is pending and waits until it is executed. -/
def Attended (ok : State → Event → Prop) (s : State) : Prop :=
  ∀ job ∈ s.jobs, job.status ≠ .completed → job.status ≠ .deadLetter →
    Executed s.toShared job ∨ (job.status = .pending ∧ ∀ t, Reach (step cfg) ok s t →
      Waiting t.toShared job ∨ s.executions.count job.id < t.executions.count job.id)

/-- No goroutine executes a job, or has yet to store its outcome, after its lock has expired. -/
def Prompt (s : Shared) : Prop := ∀ run ∈ s.runs.rows, Active run → s.now ≤ run.expires
  deriving Decidable
/-- A job is executed and its outcome stored before the lock expires; a worker takes the lock of a job only after its
    goroutine has released it; no worker crashes while it executes a job or has yet to store its outcome, and that
    update does not fail. -/
def Undisturbed (s : State) : Event → Prop
  | .worker a => Released cfg s a ∧ ∀ t ∈ Worker.step cfg s a, Prompt t.toShared
  | .crash worker => ∀ run ∈ s.runs.rows, run.worker = worker → ¬ Active run
  | .restart _ | .startError _ => True
  | .recordError _ => False

instance (s : State) (event : Event) : Decidable (Undisturbed cfg s event) := by
  unfold Undisturbed
  split <;> infer_instance
end

def Left (status : JobStatus) : Prop := status = .pending ∨ status = .completed ∨ status = .deadLetter

/-- The jobs that are stored as running are those of the active goroutines. -/
structure Tended (s : Shared) : Prop where
  statuses : ∀ job ∈ s.jobs, Left job.status ∨ job.status = .running
  outcomes : ∀ run ∈ s.runs, run.phase = .recording → Left run.job.status
  stored : ∀ run ∈ s.runs, Active run → StoredAs s.jobs run.job.id .running
  running : ∀ job ∈ s.jobs, job.status = .running → ∃ run ∈ s.runs, run.job.id = job.id ∧ Active run

structure Tidy (s : Shared) : Prop where
  held : Held s
  prompt : Prompt s
  tended : Tended s

section
variable {s : Shared} {run run' : Run}

theorem not_active_of (phase : Phase) (at_ : run.phase = phase) (other : phase ≠ .executing ∧ phase ≠ .recording) : ¬ Active run := by
  rintro (executing | recording)
  · exact other.1 (at_.symm.trans executing)
  · exact other.2 (at_.symm.trans recording)
theorem active_single (tidy : Tidy s) (member : run ∈ s.runs) (member' : run' ∈ s.runs) (active : Active run)
    (active' : Active run') (same : run.job.id = run'.job.id) : run = run' :=
  tidy.held.single member member' (tidy.prompt run member active) (tidy.prompt run' member' active') same

theorem tended_setRun (tended : Tended s) (same : run'.id = run.id) (sameJob : run'.job.id = run.job.id) {jobs : Jobs}
    {executions : List String} (statuses : ∀ job ∈ jobs, Left job.status ∨ job.status = .running)
    (outcome : run'.phase = .recording → Left run'.job.status)
    (own : Active run' → StoredAs jobs run.job.id .running)
    (others : ∀ other ∈ s.runs, other.id ≠ run.id → Active other → StoredAs jobs other.job.id .running)
    (running : ∀ job ∈ jobs, job.status = .running →
      (job.id = run.job.id ∧ Active run') ∨ ∃ other ∈ s.runs, other.id ≠ run.id ∧ other.job.id = job.id ∧ Active other) :
    Tended { s.setRun run' with jobs, executions } := by
  refine ⟨statuses,?_,?_,?_⟩
  · intro other listed recording
    rcases mem_upsert.mp listed with rfl | ⟨old,_⟩
    · exact outcome recording
    · exact tended.outcomes other old recording
  · intro other listed active
    rcases mem_upsert.mp listed with rfl | ⟨old,different⟩
    · rw [sameJob]
      exact own active
    · exact others other old (same ▸ different) active
  · intro job stored isRunning
    rcases running job stored isRunning with ⟨mine,active⟩ | ⟨other,old,different,its,active⟩
    · exact ⟨run',mem_upsert.mpr (.inl rfl),sameJob.trans mine.symm,active⟩
    · exact ⟨other,mem_upsert.mpr (.inr ⟨old,same ▸ different⟩),its,active⟩
theorem tended_still (tended : Tended s) (member : run ∈ s.runs) (same : run'.id = run.id) (sameJob : run'.job.id = run.job.id)
    (outcome : run'.phase = .recording → Left run'.job.status) (still : Active run' ↔ Active run) : Tended (s.setRun run') := by
  refine tended_setRun tended same sameJob tended.statuses outcome ?_ ?_ ?_
  · intro active
    exact tended.stored run member (still.mp active)
  · exact fun other old _ active => tended.stored other old active
  · intro job stored isRunning
    obtain ⟨other,old,its,active⟩ := tended.running job stored isRunning
    by_cases mine : other.id = run.id
    · obtain rfl := s.runs.eq_of_key old member mine
      exact .inl ⟨its.symm,still.mpr active⟩
    · exact .inr ⟨other,old,mine,its,active⟩
theorem tended_delete (tended : Tended s) {gone : Run → Bool} (idle : ∀ run ∈ s.runs, gone run = true → ¬ Active run)
    {locks : String → Option Lock} : Tended { s with locks, runs := s.runs.delete gone } := by
  refine ⟨tended.statuses,?_,?_,?_⟩
  · exact fun other listed => tended.outcomes other (mem_delete.mp listed).1
  · exact fun other listed => tended.stored other (mem_delete.mp listed).1
  · intro job stored isRunning
    obtain ⟨other,old,its,active⟩ := tended.running job stored isRunning
    refine ⟨other,mem_delete.mpr ⟨old,?_⟩,its,active⟩
    by_cases left : gone other = true
    · exact absurd active (idle other old left)
    · simpa using left
theorem tended_start (tended : Tended s) (member : run ∈ s.runs) (phase : run.phase = .starting) : Tended (start s run) := by
  have idle : ¬ Active run := not_active_of .starting phase (by decide)
  simp only [start]
  split
  · exact tended_still tended member rfl rfl (by rintro ⟨⟩)
      ⟨fun active => absurd active (not_active_of .releasing rfl (by decide)),fun active => absurd active idle⟩
  · next jobs updated =>
    refine tended_setRun tended rfl rfl ?_ (by rintro ⟨⟩) ?_ ?_ ?_
    · intro job stored
      rcases (mem_update updated job).mp stored with rfl | ⟨old,_⟩
      · exact .inr rfl
      · exact tended.statuses job old
    · exact fun _ => storedAs_update updated
    · intro other old _ active
      by_cases mine : other.job.id = run.job.id
      · rw [mine]
        exact storedAs_update updated
      · exact storedAs_update_other updated mine (tended.stored other old active)
    · intro job stored isRunning
      rcases (mem_update updated job).mp stored with rfl | ⟨old,_⟩
      · exact .inl ⟨rfl,.inl rfl⟩
      · obtain ⟨other,member',its,active⟩ := tended.running job old isRunning
        refine .inr ⟨other,member',?_,its,active⟩
        intro mine
        rw [s.runs.eq_of_key member' member mine] at active
        exact idle active
theorem tended_record (tidy : Tidy s) (member : run ∈ s.runs) (phase : run.phase = .recording) : Tended (record s run) := by
  have tended := tidy.tended
  have active : Active run := .inr phase
  obtain ⟨stored,there,same,_⟩ := tended.stored run member active
  have left := tended.outcomes run member phase
  have found : (s.jobs.find run.job.id).isSome := by
    rw [s.jobs.find_some.mpr ⟨there,same⟩]
    rfl
  obtain ⟨jobs,updated⟩ : ∃ jobs, update s.jobs run.job s.now = some jobs := by simp [update,found]
  simp only [record,updated,Option.getD_some]
  refine tended_setRun tended rfl rfl ?_ (by rintro ⟨⟩) ?_ ?_ ?_
  · intro job stored
    rcases (mem_update updated job).mp stored with rfl | ⟨old,_⟩
    · exact .inl left
    · exact tended.statuses job old
  · exact fun now => absurd now (not_active_of .releasing rfl (by decide))
  · intro other old different active'
    have apart : other.job.id ≠ run.job.id := fun equal => different (by rw [active_single tidy old member active' active equal])
    exact storedAs_update_other updated apart (tended.stored other old active')
  · intro job stored isRunning
    rcases (mem_update updated job).mp stored with rfl | ⟨old,apart⟩
    · rcases left with left | left | left <;> simp [left] at isRunning
    · obtain ⟨other,member',its,active'⟩ := tended.running job old isRunning
      refine .inr ⟨other,member',?_,its,active'⟩
      intro mine
      rw [s.runs.eq_of_key member' member mine] at its
      exact apart its.symm
theorem left_outcome {config : Config} {now : Time} {job : Job} {error : Option String} : Left (outcome config now job error).status := by
  cases error with
  | none => exact .inr (.inl rfl)
  | some message =>
    simp only [outcome]
    split
    · exact .inr (.inr rfl)
    · exact .inl rfl
theorem held_delete (held : Held s) (gone : Run → Bool) : Held { s with runs := s.runs.delete gone } :=
  ⟨fun run listed => held.fresh run (mem_delete.mp listed).1,
    fun first listed second listed' => held.apart first (mem_delete.mp listed).1 second (mem_delete.mp listed').1,
    fun run listed => held.locked run (mem_delete.mp listed).1⟩
end

/-! ### Over a run -/

section
variable {cfg : String → Config} {s t : State}

theorem tidy_init : Tidy init.toShared where
  held := held_init
  prompt run member := absurd member (Table.not_mem_empty run)
  tended :=
    ⟨forall_mem_empty,forall_mem_empty,forall_mem_empty,forall_mem_empty⟩

variable {job : Job} {a : Action} {shared : Shared} {event : Event}

private theorem tended_create (tended : Tended s.toShared) (pending : job.status = .pending) (new : s.jobs.find job.id = none) :
    Tended { s.toShared with jobs := s.jobs.upsert job } := by
  refine ⟨?_,tended.outcomes,fun run member active => storedAs_created new (tended.stored run member active),?_⟩
  · intro other listed
    rcases mem_upsert.mp listed with rfl | ⟨old,_⟩
    · exact .inl (.inl pending)
    · exact tended.statuses other old
  · intro other listed isRunning
    rcases mem_upsert.mp listed with rfl | ⟨old,_⟩
    · simp [pending] at isRunning
    · exact tended.running other old isRunning
private theorem tended_hand (tended : Tended s.toShared) {worker : String} {lock : Lock} (held : Held s.toShared) :
    Tended (hand s.toShared worker job lock) := by
  have old : ∀ run ∈ s.runs, run ∈ s.runs.upsert ⟨s.nextRun,worker,job,lock.expiresAt,.queued⟩ := fun run member =>
    mem_upsert.mpr (.inr ⟨member,Nat.ne_of_lt (held.fresh run member)⟩)
  refine ⟨tended.statuses,?_,?_,?_⟩
  · intro run listed recording
    rcases mem_upsert.mp listed with rfl | ⟨member,_⟩
    · cases recording
    · exact tended.outcomes run member recording
  · intro run listed active
    rcases mem_upsert.mp listed with rfl | ⟨member,_⟩
    · exact absurd active (not_active_of .queued rfl (by decide))
    · exact tended.stored run member active
  · intro other stored isRunning
    obtain ⟨run,member,its,active⟩ := tended.running other stored isRunning
    exact ⟨run,old run member,its,active⟩
private theorem create_pending (stepped : Worker.step cfg s (.create job) = some t) : job.status = .pending :=
  (guarded stepped).1.2.1
private theorem tidy_startError {s : Shared} (tidy : Tidy s) {run : Run} (member : run ∈ s.runs) (phase : run.phase = .starting) :
    Tidy (startError s run) := by
  refine ⟨held_setRun tidy.held member (by rfl) (by rfl) (by rfl) (by rfl),?_,?_⟩
  · intro other listed active
    rcases mem_upsert.mp listed with rfl | ⟨old,_⟩
    · exact absurd active (not_active_of .releasing rfl (by decide))
    · exact tidy.prompt other old active
  · exact tended_still tidy.tended member rfl rfl nofun
      ⟨fun active => absurd active (not_active_of .releasing rfl (by decide)),
        fun active => absurd active (not_active_of .starting phase (by decide))⟩
private theorem executions_effect (effect : Effect cfg s a shared) : s.executions <:+ shared.executions := by
  cases effect with
  | started member phase =>
    simp only [start]
    split
    · exact List.suffix_rfl
    · exact List.suffix_cons ..
  | _ => exact List.suffix_rfl
theorem step_other (stepped : step cfg s event = some t) (other : ∀ a, event ≠ .worker a) :
    t.jobs = s.jobs ∧ t.executions = s.executions := by
  cases event with
  | worker a => exact absurd rfl (other a)
  | crash worker =>
    cases stepped
    exact ⟨rfl,rfl⟩
  | restart worker =>
    obtain ⟨_,rfl⟩ := guarded stepped
    exact ⟨rfl,rfl⟩
  | startError id | recordError id =>
    obtain ⟨run,_,_,_,became⟩ := goroutine_some stepped
    rw [became]
    exact ⟨rfl,rfl⟩
theorem executions_step (stepped : step cfg s event = some t) : s.executions <:+ t.executions := by
  by_cases isWorker : ∃ a, event = .worker a
  · obtain ⟨a,rfl⟩ := isWorker
    exact executions_effect (step_effect stepped)
  · have same := (step_other stepped (fun a is => isWorker ⟨a,is⟩)).2
    exact same ▸ List.suffix_rfl
section
variable (tidy : Tidy s.toShared)
include tidy
theorem tended_step (effect : Effect cfg s a shared) (pending : ∀ job, a = .create job → job.status = .pending) : Tended shared := by
  have tended := tidy.tended
  cases effect with
  | quiet => exact tended
  | passed elapsed => exact ⟨tended.statuses,tended.outcomes,tended.stored,tended.running⟩
  | created new => exact tended_create tended (pending _ rfl) new
  | acquired at_ got => exact tended_hand tended tidy.held
  | dispatched member phase =>
    exact tended_still tended member rfl rfl (by rintro ⟨⟩)
      ⟨fun active => absurd active (not_active_of .starting rfl (by decide)),
        fun active => absurd active (not_active_of .queued phase (by decide))⟩
  | started member phase => exact tended_start tended member phase
  | finished error member phase =>
    exact tended_still tended member rfl (outcome_id ..) (fun _ => left_outcome)
      ⟨fun _ => .inl phase,fun _ => .inr rfl⟩
  | recorded member phase => exact tended_record tidy member phase
  | @released run member phase =>
    refine tended_delete tended ?_
    intro other listed gone
    obtain rfl := s.runs.eq_of_key listed member (by simpa using gone)
    exact not_active_of .releasing phase (by decide)
private theorem tidy_crash {worker : String} (idle : Undisturbed cfg s (.crash worker)) : Tidy (crash s worker).toShared := by
  refine ⟨held_delete tidy.held _,fun run listed => tidy.prompt run (mem_delete.mp listed).1,tended_delete tidy.tended ?_⟩
  intro run member gone
  exact idle run member (by simpa using gone)
theorem tidy_step (ok : Undisturbed cfg s event) (stepped : step cfg s event = some t) : Tidy t.toShared := by
  cases event with
  | worker a =>
    have went : Worker.step cfg s a = some t := stepped
    refine ⟨held_step tidy.held ok.1 (step_effect went),ok.2 t went,tended_step tidy (step_effect went) ?_⟩
    rintro job rfl
    exact create_pending went
  | crash worker =>
    cases stepped
    exact tidy_crash tidy ok
  | restart worker =>
    obtain ⟨_,rfl⟩ := guarded stepped
    exact tidy
  | startError id =>
    obtain ⟨run,member,_,phase,became⟩ := goroutine_some stepped
    rw [became]
    exact tidy_startError tidy member phase
  | recordError id => exact ok.elim
private theorem pending_effect (effect : Effect cfg s a shared) (stored : job ∈ s.jobs) (pending : job.status = .pending) :
    job ∈ shared.jobs ∨ s.executions.count job.id < shared.executions.count job.id := by
  cases effect with
  | quiet | passed | acquired | dispatched | finished | released => exact .inl stored
  | @created new notYet =>
    refine .inl (mem_upsert.mpr (.inr ⟨stored,?_⟩))
    intro same
    exact s.jobs.find_none.mp notYet job stored same
  | @started run member phase =>
    simp only [start]
    split
    · exact .inl stored
    · next jobs updated =>
      by_cases mine : job.id = run.job.id
      · exact .inr (by simp [mine])
      · exact .inl ((mem_update updated job).mpr (.inr ⟨stored,mine⟩))
  | @recorded run member phase =>
    -- The job of the goroutine is stored as running, so it is another one.
    have apart : job.id ≠ run.job.id := by
      intro same
      have running := tidy.tended.stored run member (.inr phase)
      rw [← same] at running
      have equal := storedAs_unique running ⟨job,stored,rfl,pending⟩
      cases equal
    simp only [record]
    cases updated : update s.jobs run.job s.now with
    | none => exact .inl stored
    | some jobs => exact .inl ((mem_update updated job).mpr (.inr ⟨stored,apart⟩))
private theorem pending_step (stepped : step cfg s event = some t) (stored : job ∈ s.jobs) (pending : job.status = .pending) :
    job ∈ t.jobs ∨ s.executions.count job.id < t.executions.count job.id := by
  by_cases isWorker : ∃ a, event = .worker a
  · obtain ⟨a,rfl⟩ := isWorker
    exact pending_effect tidy (step_effect stepped) stored pending
  · rw [(step_other stepped (fun a is => isWorker ⟨a,is⟩)).1]
    exact .inl stored
private theorem pending_until (stored : job ∈ s.jobs) (pending : job.status = .pending) (run : Reach (step cfg) (Undisturbed cfg) s t) :
    job ∈ t.jobs ∨ s.executions.count job.id < t.executions.count job.id := by
  have invariant := run.invariant
    (I := fun t => Tidy t.toShared ∧ s.executions <:+ t.executions ∧
      (job ∈ t.jobs ∨ s.executions.count job.id < t.executions.count job.id))
    ⟨tidy,List.suffix_rfl,.inl stored⟩ ?_
  · exact invariant.2.2
  · intro t event u ⟨tidy,grown,kept⟩ ok stepped
    have more := executions_step stepped
    refine ⟨tidy_step tidy ok stepped,grown.trans more,?_⟩
    rcases kept with still | executed
    · rcases pending_step tidy stepped still pending with still | executed
      · exact .inl still
      · exact .inr (Nat.lt_of_le_of_lt (grown.sublist.count_le _) executed)
    · exact .inr (Nat.lt_of_lt_of_le executed (more.sublist.count_le _))
end
private theorem waiting {s : Shared} (stored : job ∈ s.jobs) (pending : job.status = .pending) : Waiting s job :=
  ⟨stored,fun isDue _ room => mem_listPending stored (by simp [due,pending,isDue]) room⟩
theorem executed_active {s : Shared} (tidy : Tidy s) (stored : job ∈ s.jobs) (running : job.status = .running) : Executed s job := by
  obtain ⟨run,member,same,active⟩ := tidy.tended.running job stored running
  have inTime := tidy.prompt run member active
  have lock := tidy.held.locked run member inTime
  rw [same] at lock
  exact ⟨run,member,same,active,_,lock,rfl,inTime⟩

/-- In an undisturbed run, every job that is not finished is executed under a valid lock, or is pending and listed when
    due until it is executed. -/
theorem jobs_attended (cfg : String → Config) {s : State} (run : Reach (step cfg) (Undisturbed cfg) init s) :
    Attended cfg (Undisturbed cfg) s := by
  have tidy : Tidy s.toShared := run.invariant (I := fun s => Tidy s.toShared) tidy_init tidy_step
  intro job stored notCompleted notDead
  rcases tidy.tended.statuses job stored with (pending | completed | dead) | running
  · refine .inr ⟨pending,?_⟩
    intro t on
    exact (pending_until tidy stored pending on).imp (waiting · pending) id
  · exact absurd completed notCompleted
  · exact absurd dead notDead
  · exact .inl (executed_active tidy stored running)
end

def crashedAtExecute : List Event :=
  ([.create dueJob,.poll "a",.next "a",.list "a" (some dueJob),.acquire "a",.dispatch "a",.start 0] : List Action).map Event.worker ++
    [.crash "a"]
theorem job_abandoned : ¬ ∀ (cfg : String → Config) (s : State), Reach (step cfg) Any init s → Attended cfg Any s := by
  intro claim
  obtain ⟨s,ran,job,stored,running,alone⟩ := run_seen (step (fun _ => defaults)) init crashedAtExecute
    (fun s => ∃ job ∈ s.jobs.rows, job.status = .running ∧ ∀ run ∈ s.runs.rows, run.job.id ≠ job.id) (by decide +kernel)
  rcases claim (fun _ => defaults) s (run_any ran) job stored (by simp [running]) (by simp [running]) with executed | ⟨pending,_⟩
  · obtain ⟨run,member,same,_⟩ := executed
    exact alone run member same
  · simp [running] at pending
/-- The first worker cannot mark the job running, releases it and crashes; the second one executes it. -/
def takenOver : List Event :=
  ([.create dueJob,.poll "a",.next "a",.list "a" (some dueJob),.acquire "a",.dispatch "a"] : List Action).map Event.worker ++
    [.startError 0,.worker (.release 0),.crash "a"] ++
    ([.poll "b",.next "b",.list "b" (some dueJob),.acquire "b",.dispatch "b",.start 1] : List Action).map Event.worker
theorem jobs_attended_takenOver : ∃ s, Reach (step (fun _ => defaults)) (Undisturbed (fun _ => defaults)) init s ∧
    s.executions = ["job-1"] ∧ Attended (fun _ => defaults) (Undisturbed (fun _ => defaults)) s :=
  reach_seen takenOver (by decide +kernel) (by decide +kernel) (fun _ reached _ => jobs_attended (fun _ => defaults) reached)

end Stellabill.WorkerCrashes
