import Stellabill.WorkerLocks

/-!
When the final statuses of a job are final. A worker goes by the copy of the job
that it picked and overwrites whatever is stored, so a copy that was picked
before another worker completed the job brings the job back.
-/
namespace Stellabill.WorkerStatuses
open Keyed Transitions JobStore Worker WorkerLocks Table

variable {cfg : String → Config} {s : State} {t : Shared} {a : Action}

def StoredAs (jobs : Jobs) (id : String) (status : JobStatus) : Prop := ∃ job ∈ jobs, job.id = id ∧ job.status = status

variable {jobs : Jobs} {id : String} {status : JobStatus} {job : Job} {run : Run}

theorem storedAs_unique {status' : JobStatus} (stored : StoredAs jobs id status) (stored' : StoredAs jobs id status') : status = status' := by
  obtain ⟨job,member,same,rfl⟩ := stored
  obtain ⟨job',member',same',rfl⟩ := stored'
  rw [jobs.eq_of_key member member' (same.trans same'.symm)]
theorem storedAs_created (new : jobs.find job.id = none) (stored : StoredAs jobs id status) : StoredAs (jobs.upsert job) id status := by
  obtain ⟨old,member,same⟩ := stored
  exact ⟨old,mem_upsert.mpr (.inr ⟨member,jobs.find_none.mp new old member⟩),same⟩
theorem storedAs_update {jobs' : Jobs} {now : Time} (updated : update jobs job now = some jobs') : StoredAs jobs' job.id job.status :=
  ⟨{ job with updatedAt := now },(mem_update updated _).mpr (.inl rfl),rfl,rfl⟩
theorem storedAs_update_other {jobs' : Jobs} {now : Time} (updated : update jobs job now = some jobs') (other : id ≠ job.id)
    (stored : StoredAs jobs id status) : StoredAs jobs' id status := by
  obtain ⟨old,member,rfl,same⟩ := stored
  exact ⟨old,(mem_update updated _).mpr (.inr ⟨member,other⟩),rfl,same⟩

def StillPending (cfg : String → Config) (s : State) : Action → Prop :=
  AtAcquire cfg s (fun _ job => (s.jobs.find job.id).any (fun stored => stored.status = .pending))

instance (cfg : String → Config) (s : State) (a : Action) : Decidable (StillPending cfg s a) :=
  inferInstanceAs (Decidable (AtAcquire ..))

/-- The goroutine may still write to the job: it is between the two updates, or has yet to start under a valid lock. -/
def Writes (now : Time) (run : Run) : Prop :=
  match run.phase with
  | .queued | .starting => now ≤ run.expires
  | .executing | .recording => True
  | .releasing => False
def mark : Phase → JobStatus
  | .queued | .starting => .pending
  | .executing | .recording | .releasing => .running

/-- Of the goroutines for a job at most one may still write to it, and the job has the status it left it in. -/
structure Marked (s : Shared) : Prop where
  stored : ∀ run ∈ s.runs, Writes s.now run → StoredAs s.jobs run.job.id (mark run.phase)
  single : ∀ run ∈ s.runs, ∀ run' ∈ s.runs, Writes s.now run → Writes s.now run' → run.job.id = run'.job.id → run = run'

theorem marked_setRun {s : Shared} (marked : Marked s) {run' : Run} (member : run ∈ s.runs) (same : run'.id = run.id)
    (sameJob : run'.job.id = run.job.id) {executions : List String}
    (writes : Writes s.now run' → Writes s.now run ∧ StoredAs jobs run.job.id (mark run'.phase))
    (frame : ∀ id status, (Writes s.now run → id ≠ run.job.id) → StoredAs s.jobs id status → StoredAs jobs id status) :
    Marked { s.setRun run' with jobs, executions } := by
  have apart : ∀ other ∈ s.runs, other.id ≠ run'.id → Writes s.now other → Writes s.now run → other.job.id ≠ run.job.id := by
    intro other old different active active' equal
    apply different
    rw [marked.single other old run member active active' equal,same]
  refine ⟨?_,?_⟩
  · intro other listed active
    rcases mem_upsert.mp listed with rfl | ⟨old,different⟩
    · rw [sameJob]
      exact (writes active).2
    · exact frame _ _ (apart other old different active) (marked.stored other old active)
  · intro first listed second listed' active active' equal
    rcases mem_upsert.mp listed with rfl | ⟨old,different⟩ <;>
      rcases mem_upsert.mp listed' with rfl | ⟨old',different'⟩
    · rfl
    · exact absurd (equal.symm.trans sameJob) (apart second old' different' active' (writes active).1)
    · exact absurd (equal.trans sameJob) (apart first old different active (writes active').1)
    · exact marked.single first old second old' active active' equal
theorem marked_hand {s : Shared} (held : Held s) (marked : Marked s) {worker : String} {lock : Lock} {ttl : Time}
    (got : acquireLock s.locks job.id worker ttl s.now = some lock) (released : ∀ run ∈ s.runs, run.worker = worker → run.job.id ≠ job.id)
    (pending : StoredAs s.jobs job.id .pending) : Marked (hand s worker job lock) := by
  have none_ : ∀ run ∈ s.runs, Writes s.now run → run.job.id ≠ job.id := by
    intro run member writes same
    have stored := marked.stored run member writes
    rw [same] at stored
    have waiting : mark run.phase = .pending := storedAs_unique stored pending
    have valid : s.now ≤ run.expires := by
      cases phase : run.phase <;> simp_all [Writes,mark]
    -- A goroutine of another worker that has yet to start holds the lock.
    have refused : acquireLock s.locks job.id worker ttl s.now = none :=
      acquireLock_refused (by rw [← same]; exact held.locked run member valid) valid
        (fun equal => released run member equal same)
    rw [refused] at got
    cases got
  refine ⟨?_,?_⟩
  · intro run listed writes
    rcases mem_upsert.mp listed with rfl | ⟨old,_⟩
    · exact pending
    · exact marked.stored run old writes
  · intro first listed second listed' writes writes' equal
    rcases mem_upsert.mp listed with rfl | ⟨old,_⟩ <;> rcases mem_upsert.mp listed' with rfl | ⟨old',_⟩
    · rfl
    · exact absurd equal.symm (none_ second old' writes')
    · exact absurd equal (none_ first old writes)
    · exact marked.single first old second old' writes writes' equal

theorem marked_delete {s : Shared} (marked : Marked s) (gone : Run → Bool) {locks : String → Option Lock} :
    Marked { s with locks, runs := s.runs.delete gone } :=
  ⟨fun run listed => marked.stored run (mem_delete.mp listed).1,
    fun first listed second listed' => marked.single first (mem_delete.mp listed).1 second
      (mem_delete.mp listed').1⟩

theorem writes_starting {s : Shared} (phase : run.phase = .starting) (timely : Timely (start s run)) (jobs : Jobs)
    (updated : update s.jobs { run.job with status := .running, attempts := run.job.attempts+1, startedAt := some s.now } s.now =
      some jobs) : Writes s.now run := by
  simp only [start,updated] at timely
  have valid := timely _ (mem_upsert.mpr (.inl rfl)) rfl
  simp only [Writes,phase]
  exact valid
private theorem marked_start {s : Shared} (marked : Marked s) (member : run ∈ s.runs) (phase : run.phase = .starting)
    (timely : Timely (start s run)) : Marked (start s run) := by
  have writes := writes_starting phase timely
  simp only [start]
  split
  · exact marked_setRun marked member (by rfl) (by rfl) (fun never => never.elim) (fun _ _ _ stored => stored)
  · next jobs updated =>
    refine marked_setRun marked member (by rfl) (by rfl) (fun _ => ⟨writes jobs updated,storedAs_update updated⟩) ?_
    intro id status other stored
    exact storedAs_update_other updated (other (writes jobs updated)) stored
private theorem marked_record {s : Shared} (marked : Marked s) (member : run ∈ s.runs) (phase : run.phase = .recording) :
    Marked (record s run) := by
  have writes : Writes s.now run := by simp [Writes,phase]
  refine marked_setRun marked member (by rfl) (by rfl) (fun never => never.elim) ?_
  intro id status other stored
  cases updated : update s.jobs run.job s.now with
  | none => exact stored
  | some jobs => exact storedAs_update_other updated (other writes) stored

theorem marked_step (held : Held s.toShared) (marked : Marked s.toShared) (timely : Timely t) (released : Released cfg s a)
    (pending : StillPending cfg s a) (effect : Effect cfg s a t) : Marked t := by
  cases effect with
  | quiet => exact marked
  | passed elapsed =>
    have writes : ∀ run, Writes (s.now+elapsed) run → Writes s.now run := by
      intro run
      unfold Writes
      split
      · exact Int.le_trans (le_later s.now elapsed)
      · exact Int.le_trans (le_later s.now elapsed)
      all_goals exact fun still => still
    exact ⟨fun run member active => marked.stored run member (writes run active),fun first member second member' active active' =>
      marked.single first member second member' (writes first active) (writes second active')⟩
  | created new => exact ⟨fun run member active => storedAs_created new (marked.stored run member active),marked.single⟩
  | acquired at_ got =>
    obtain ⟨stored,found,still⟩ := (Option.any_eq_true ..).mp (at_acquire pending at_ got)
    obtain ⟨member,same⟩ := s.jobs.find_some.mp found
    exact marked_hand held marked got (at_acquire released at_ got) ⟨stored,member,same,by simpa using still⟩
  | @dispatched _ run member phase =>
    have writes : Writes s.now { run with phase := .starting } → Writes s.now run := by simp [Writes,phase]
    refine marked_setRun marked member (by rfl) (by rfl) (fun active => ⟨writes active,?_⟩) (fun _ _ _ stored => stored)
    have stored := marked.stored run member (writes active)
    rw [phase] at stored
    exact stored
  | started member phase => exact marked_start marked member phase timely
  | @finished run error member phase =>
    have writes : Writes s.now run := by simp [Writes,phase]
    refine marked_setRun marked member (by rfl) (outcome_id ..) (fun _ => ⟨writes,?_⟩) (fun _ _ _ stored => stored)
    have stored := marked.stored run member writes
    rw [phase] at stored
    exact stored
  | recorded member phase => exact marked_record marked member phase
  | released member phase => exact marked_delete marked _
private theorem marked_init : Marked init.toShared :=
  ⟨forall_mem_empty,forall_mem_empty⟩

/-- A job that is neither pending nor running keeps its row through a step, and is not executed. -/
theorem settled_step (marked : Marked s.toShared) (timely : Timely t) (effect : Effect cfg s a t) (stored : job ∈ s.jobs)
    (notPending : job.status ≠ .pending) (notRunning : job.status ≠ .running) :
    job ∈ t.jobs ∧ t.executions.count job.id = s.executions.count job.id := by
  have other : ∀ run ∈ s.runs, Writes s.now run → job.id ≠ run.job.id := by
    intro run member writes same
    have status : job.status = mark run.phase := storedAs_unique ⟨job,stored,same,rfl⟩ (marked.stored run member writes)
    cases phase : run.phase <;> simp_all [mark]
  cases effect with
  | quiet | passed | acquired | dispatched | finished | released => exact ⟨stored,rfl⟩
  | created new => exact ⟨mem_upsert.mpr (.inr ⟨stored,s.jobs.find_none.mp new job stored⟩),rfl⟩
  | @started run member phase =>
    have writes := writes_starting phase timely
    simp only [start]
    split
    · exact ⟨stored,rfl⟩
    · next jobs updated =>
      have apart := other run member (writes jobs updated)
      exact ⟨(mem_update updated job).mpr (.inr ⟨stored,apart⟩),List.count_cons_of_ne apart.symm⟩
  | @recorded run member phase =>
    refine ⟨?_,rfl⟩
    simp only [record]
    cases updated : update s.jobs run.job s.now with
    | none => exact stored
    | some jobs => exact (mem_update updated job).mpr (.inr ⟨stored,other run member (by simp [Writes,phase])⟩)

def Exclusive (cfg : String → Config) (s : State) (a : Action) : Prop :=
  InTime cfg s a ∧ Released cfg s a ∧ StillPending cfg s a
  deriving Decidable

private theorem held_marked_step {t : State} (both : Held s.toShared ∧ Marked s.toShared) (ok : Exclusive cfg s a)
    (stepped : step cfg s a = some t) : Held t.toShared ∧ Marked t.toShared := by
  obtain ⟨held,marked⟩ := both
  obtain ⟨inTime,released,pending⟩ := ok
  have effect := step_effect stepped
  exact ⟨held_step held released effect,marked_step held marked (timely_step inTime stepped) released pending effect⟩

/-- Where executions end before their locks expire and a worker gets the lock of a job only after its own goroutine has
    released it and while the job is pending, a completed or dead-lettered job stays as it is and is not executed again. -/
theorem terminal_final (cfg : String → Config) {s t : State} {job : Job} (before : Reach (step cfg) (Exclusive cfg) init s)
    (after : Reach (step cfg) (Exclusive cfg) s t) (stored : job ∈ s.jobs)
    (terminal : job.status = .completed ∨ job.status = .deadLetter) :
    job ∈ t.jobs ∧ t.executions.count job.id = s.executions.count job.id := by
  have invariant := before.invariant ⟨held_init,marked_init⟩
    held_marked_step
  have notPending : job.status ≠ .pending := by rcases terminal with status | status <;> simp [status]
  have notRunning : job.status ≠ .running := by rcases terminal with status | status <;> simp [status]
  have kept := after.invariant (I := fun t => (Held t.toShared ∧ Marked t.toShared) ∧ job ∈ t.jobs ∧
      t.executions.count job.id = s.executions.count job.id) ⟨invariant,stored,rfl⟩
    (fun ⟨both,there,count⟩ ok stepped => by
      obtain ⟨there',count'⟩ := settled_step both.2 (timely_step ok.1 stepped) (step_effect stepped) there notPending notRunning
      exact ⟨held_marked_step both ok stepped,there',count'.trans count⟩)
  exact kept.2

def completedByOne : List Action :=
  [.create dueJob,.poll "b",.next "b",.list "b" (some dueJob),.poll "a",.next "a",.list "a" (some dueJob),.acquire "a",.dispatch "a",
    .start 0,.finish 0 none,.record 0,.release 0]
def executedByOther : List Action := [.acquire "b",.dispatch "b",.start 1]
theorem terminal_revived : ¬ ∀ (cfg : String → Config) (s t : State) (job : Job), Reach (step cfg) (InTime cfg) init s →
    Reach (step cfg) (InTime cfg) s t → job ∈ s.jobs → job.status = .completed ∨ job.status = .deadLetter →
    StoredAs t.jobs job.id job.status ∧ t.executions.count job.id = s.executions.count job.id := by
  intro claim
  obtain ⟨s,ran,⟨job,stored,same,completed⟩,once,along,later⟩ := run_seen (step (fun _ => defaults)) init completedByOne
    (fun s => (∃ job ∈ s.jobs.rows, job.id = "job-1" ∧ job.status = .completed) ∧ s.executions.count "job-1" = 1 ∧
      Along (step (fun _ => defaults)) (InTime (fun _ => defaults)) s executedByOther ∧
      (run (step (fun _ => defaults)) s executedByOther).any (fun t => t.executions.count "job-1" = 2) = true) (by decide +kernel)
  obtain ⟨t,ran',twice⟩ := run_seen _ s executedByOther (fun t => t.executions.count "job-1" = 2) later
  have counts := (claim (fun _ => defaults) s t job (run_reach ran (by decide +kernel)) (run_reach ran' along) stored
    (.inl completed)).2
  rw [same] at counts
  omega
/-- The other worker does not get the lock while the job is executed, and finds nothing more to do. -/
def refusedMeanwhile : List Action :=
  [.create dueJob,.poll "b",.next "b",.list "b" (some dueJob),.poll "a",.next "a",.list "a" (some dueJob),.acquire "a",.acquire "b",
    .dispatch "a",.start 0,.finish 0 none,.record 0]
def nothingLeft : List Action := [.release 0,.next "b",.list "b" none]
theorem terminal_final_refusedMeanwhile : ∃ s t, ∃ job ∈ s.jobs, job.id = "job-1" ∧ job.status = .completed ∧
    Reach (step (fun _ => defaults)) (Exclusive (fun _ => defaults)) init s ∧
    Reach (step (fun _ => defaults)) (Exclusive (fun _ => defaults)) s t ∧ t.runs.rows = [] ∧
    job ∈ t.jobs ∧ t.executions.count job.id = s.executions.count job.id := by
  obtain ⟨s,ran,⟨job,stored,same,completed⟩,along,later⟩ := run_seen (step (fun _ => defaults)) init refusedMeanwhile
    (fun s => (∃ job ∈ s.jobs.rows, job.id = "job-1" ∧ job.status = .completed) ∧
      Along (step (fun _ => defaults)) (Exclusive (fun _ => defaults)) s nothingLeft ∧
      (run (step (fun _ => defaults)) s nothingLeft).any (fun t => t.runs.rows = []) = true)
    (by decide +kernel)
  obtain ⟨t,ran',ended⟩ := run_seen _ s nothingLeft (fun t => t.runs.rows = []) later
  have before : Reach (step (fun _ => defaults)) (Exclusive (fun _ => defaults)) init s := run_reach ran (by decide +kernel)
  have after : Reach (step (fun _ => defaults)) (Exclusive (fun _ => defaults)) s t := run_reach ran' along
  exact ⟨s,t,job,stored,same,completed,before,after,ended,terminal_final (fun _ => defaults) before after stored (.inl completed)⟩

end Stellabill.WorkerStatuses
