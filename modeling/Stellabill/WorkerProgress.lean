import Mathlib.Data.List.MinMax
import Stellabill.WorkerRetries

/-!
A job that always fails comes to its end. From every state that a single worker gets to,
the goroutines that are left can end and the polling can go on to its next pick, and the
other pending jobs become fewer.
-/
namespace Stellabill.WorkerProgress
open Keyed Transitions JobStore Worker WorkerStatuses WorkerRetries Table List
open WorkerLocks (defaults outcome_id)

/-- Settings with which a worker can work at all. -/
structure Able (c : Config) : Prop where
  batch : 1 ≤ c.batchSize
  slot : 1 ≤ c.maxConcurrency
  depth : 1 ≤ c.maxQueueDepth

structure Kept (cfg : String → Config) (w id : String) (s : State) : Prop where
  sound : Sound w s.toShared (s.pollers w).poll
  budgeted : Budgeted (max 1 (cfg w).maxAttempts) id s.toShared (s.pollers w).poll
  room : (s.jobs.rows.length : Int) ≤ (cfg w).maxQueueDepth

variable {cfg : String → Config} {w id : String} {m : Int} {s t : State} {a : Action} {u : Shared} {poll : Poll} {jobID : String}
  {run : Run} {i : Nat} {job : Job} {lane : Priority}

/-- The single worker gets from one state to another. -/
abbrev Leads (cfg : String → Config) (w : String) (m : Int) (id : String) : State → State → Prop := Reach (step cfg) (Orderly cfg w m id)

theorem kept_init (able : Able (cfg w)) : Kept cfg w id init := by
  have none : ∀ run : Run, run ∉ init.runs := not_mem_empty
  have depth := able.depth
  refine ⟨?_,?_,show (0 : Int) ≤ (cfg w).maxQueueDepth by omega⟩
  · exact {
      owned := by rintro _ _ ⟨⟩
      worker := fun run member => absurd member (none run)
      fresh := fun run member => absurd member (none run)
      stored := fun run member => absurd member (none run)
      queued := fun run member => absurd member (none run)
      waited := by rintro _ _ ⟨⟩
      picked := by rintro _ _ ⟨⟩
      goes := by simp [init] }
  · exact {
      absent := fun _ => rfl
      single := fun run member => absurd member (none run)
      runs := fun run member => absurd member (none run)
      free := fun _ job member => absurd member (not_mem_empty job)
      picked := by rintro _ _ ⟨⟩ }
theorem goroutine_go {phase : Phase} {go : Shared → Run → Shared} (member : run ∈ s.runs) (at_ : run.phase = phase) :
    s.goroutine run.id phase go = some { s with toShared := go s.toShared run } := by
  rw [State.goroutine,s.runs.find_some.mpr ⟨member,rfl⟩]
  exact if_pos at_
def remaining (run : Run) : Nat :=
  match run.phase with
  | .queued => 0
  | .starting => 4
  | .executing => 3
  | .recording => 2
  | .releasing => 1
def ending (id : String) (run : Run) : Option String := if run.job.id = id then some "declined" else none
theorem ending_fails (id : String) (s : State) (member : run ∈ s.runs) : Fails id s (.finish run.id (ending id run)) := by
  intro other listed same its
  rw [s.runs.eq_of_key listed member same] at its
  simp [ending,its]
private theorem fewer_upsert {run' : Run} (member : run ∈ s.runs) (same : run'.id = run.id) (less : remaining run' < remaining run) :
    (s.runs.upsert run').sum remaining < s.runs.sum remaining := by
  have moved := sum_upsert member same remaining
  omega
section
variable (kept : Kept cfg w id s)
include kept
theorem room_turn (placed : Placed cfg w id s a) (turn : Turn cfg w s a u poll) : (u.jobs.rows.length : Int) ≤ (cfg w).maxQueueDepth := by
  have room := kept.room
  cases turn with
  | background effect own =>
    cases effect with
    | @created job new =>
      have few := placed.2
      have more := s.jobs.length_upsert_le job
      dsimp only
      omega
    | started member phase =>
      obtain ⟨job,there,same⟩ := kept.sound.stored _ member
      rw [start_present ⟨job,there,same⟩]
      exact Int.le_trans (Int.ofNat_le.mpr (Nat.le_of_eq (length_upsert there same.symm))) room
    | recorded member phase =>
      obtain ⟨job,there,same⟩ := kept.sound.stored _ member
      rw [record_present ⟨job,there,same⟩]
      exact Int.le_trans (Int.ofNat_le.mpr (Nat.le_of_eq (length_upsert there same.symm))) room
    | quiet | passed | acquired | dispatched | finished | released => exact room
  | deep | polled | ended | tried | picked | fell | nothing | refused | handed | dispatched => exact room
theorem kept_step (ok : Orderly cfg w m id s a) (stepped : step cfg s a = some t) : Kept cfg w id t := by
  have turn := step_turn ok.1.1 stepped
  exact ⟨sound_turn kept.sound turn,budgeted_turn kept.sound kept.budgeted ok turn,room_turn kept ok.2.2 turn⟩
theorem kept_reach (reached : Leads cfg w m id s t) : Kept cfg w id t :=
  reached.invariant kept kept_step
private theorem present_turn (present : Present s.jobs jobID) (turn : Turn cfg w s a u poll) : Present u.jobs jobID := by
  cases turn with
  | background effect own =>
    cases effect with
    | created new => exact present_upsert _ present
    | started member phase =>
      rw [start_present (kept.sound.stored _ member)]
      exact present_upsert _ present
    | recorded member phase =>
      rw [record_present (kept.sound.stored _ member)]
      exact present_upsert _ present
    | quiet | passed | acquired | dispatched | finished | released => exact present
  | deep | polled | ended | tried | picked | fell | nothing | refused | handed | dispatched => exact present
theorem present_reach (present : Present s.jobs jobID) (reached : Leads cfg w m id s t) : Present t.jobs jobID := by
  refine (reached.invariant (I := fun t => Kept cfg w id t ∧ Present t.jobs jobID) ⟨kept,present⟩ ?_).2
  rintro s a t ⟨kept,present⟩ ok stepped
  exact ⟨kept_step kept ok stepped,present_turn kept present (step_turn ok.1.1 stepped)⟩
private theorem goes_on (member : run ∈ s.runs) (phase : run.phase ≠ .queued) :
    ∃ a t, Orderly cfg w m id s a ∧ step cfg s a = some t ∧ t.pollers = s.pollers ∧ t.runs.sum remaining < s.runs.sum remaining := by
  have present := kept.sound.stored run member
  cases at_ : run.phase with
  | queued => exact absurd at_ phase
  | starting =>
    refine ⟨.start run.id,_,⟨⟨trivial,trivial,trivial⟩,trivial,trivial⟩,goroutine_go member at_,rfl,?_⟩
    rw [start_present present]
    exact fewer_upsert member rfl (by simp [remaining,at_])
  | executing =>
    refine ⟨.finish run.id (ending id run),_,⟨⟨trivial,ending_fails id s member,trivial⟩,trivial,trivial⟩,
      @goroutine_go s run .executing (fun s r => finish cfg s r (ending id run)) member at_,rfl,?_⟩
    exact fewer_upsert member rfl (by simp [remaining,at_])
  | recording =>
    refine ⟨.record run.id,_,⟨⟨trivial,trivial,trivial⟩,trivial,trivial⟩,goroutine_go member at_,rfl,?_⟩
    exact fewer_upsert member rfl (by simp [remaining,at_])
  | releasing =>
    refine ⟨.release run.id,_,⟨⟨trivial,trivial,trivial⟩,trivial,trivial⟩,goroutine_go member at_,rfl,?_⟩
    refine Nat.lt_of_add_lt_add_right (lt_of_eq_of_lt (sum_delete member remaining) ?_)
    simp [remaining,at_]
theorem drained : ∃ t, Leads cfg w m id s t ∧ t.pollers = s.pollers ∧ ∀ run ∈ t.runs, run.phase = .queued := by
  induction left : s.runs.sum remaining using Nat.strongRecOn generalizing s with
  | ind n ih =>
    by_cases waiting : ∀ run ∈ s.runs, run.phase = .queued
    · exact ⟨s,.start,rfl,waiting⟩
    · obtain ⟨run,member,phase⟩ : ∃ run ∈ s.runs, run.phase ≠ .queued := by simpa using waiting
      obtain ⟨a,u,ok,stepped,same,fewer⟩ := goes_on (m := m) kept member phase
      obtain ⟨t,reached,same',queued⟩ := ih _ (left ▸ fewer) (kept_step kept ok stepped) rfl
      exact ⟨t,(Reach.start.next ok stepped).trans reached,same'.trans same,queued⟩
end

/-! ### The polling goes on -/

theorem acquireLock_own {locks : String → Option Lock} (own : ∀ lock, locks jobID = some lock → lock.workerID = w) (ttl now : Time) :
    acquireLock locks jobID w ttl now = some ⟨w,now+ttl⟩ := by
  cases held : locks jobID with
  | none => rw [acquireLock,held]
  | some lock =>
    have same := own lock held
    by_cases expired : lock.expiresAt < now
    · simp only [acquireLock,held,if_pos expired]
    · simp only [acquireLock,held,if_neg expired,if_neg (not_not.mpr same)]
theorem dispatch_go (able : Able (cfg w)) (at_ : (s.pollers w).poll = .dispatching i run.id) (member : run ∈ s.runs)
    (queued : ∀ run ∈ s.runs, run.phase = .queued) :
    step cfg s (.dispatch w) = some { s.goto w (.loop (i+1)) with toShared := s.setRun { run with phase := .starting } } := by
  have free : s.runs.rows.filter (fun run => run.worker = w ∧ run.phase ≠ .queued) = [] := by
    refine filter_eq_nil_iff.mpr fun run listed => ?_
    simp [queued run listed]
  have slot := able.slot
  simp only [step,at_,free,length_nil,if_pos (show 0 < (cfg w).maxConcurrency by omega)]
  exact @goroutine_go (s.goto w (.loop (i+1))) run .queued _ member (queued run member)
/-- The polling has come to a pick among the pending jobs, with nothing else changed. -/
def Picks (w : String) (s : Shared) (t : State) : Prop :=
  ∃ i job lane, (t.pollers w).poll = .picked i job ∧ job ∈ JobStore.lane s.jobs s.now lane
theorem firstPending_exists {jobs : Jobs} {now : Time} (occupied : JobStore.lane jobs now lane ≠ []) :
    ∃ job, firstPending jobs now lane job := by
  cases found : (JobStore.lane jobs now lane).argmin Job.scheduledAt with
  | none => exact absurd (argmin_eq_none.mp found) occupied
  | some job => exact ⟨job,argmin_mem found,fun other listed => le_of_mem_argmin listed found⟩

section
variable (clear : s.runs.rows = [])
include clear

theorem falls {lanes : List Priority} (some_ : lanes ≠ []) (at_ : (s.pollers w).poll = .falling i lanes) :
    ∃ t, Leads cfg w m id s t ∧ t.toShared = s.toShared ∧
      (Picks w s.toShared t ∨ (t.pollers w).poll = .idle ∧ ∀ lane ∈ lanes, JobStore.lane s.jobs s.now lane = []) := by
  induction lanes generalizing s with
  | nil => exact absurd rfl some_
  | cons lane rest ih =>
    by_cases empty : JobStore.lane s.jobs s.now lane = []
    · have stepped : step cfg s (.list w none) = some (s.goto w (if rest.isEmpty then .idle else .falling i rest)) := by
        simp [step,at_,Worker.pickHighestPriority,empty]
      have ok : Orderly cfg w m id s (.list w none) := ⟨⟨rfl,trivial,trivial⟩,trivial,trivial⟩
      cases rest with
      | nil => exact ⟨_,Reach.start.next ok stepped,rfl,.inr ⟨goto_poll ..,by simpa using empty⟩⟩
      | cons next rest =>
        obtain ⟨t,reached,same,ends⟩ := @ih (s.goto w (.falling i (next :: rest))) clear (by simp) (goto_poll ..)
        refine ⟨t,(Reach.start.next ok stepped).trans reached,same,ends.imp_right fun fell => ⟨fell.1,?_⟩⟩
        exact forall_mem_cons.mpr ⟨empty,fell.2⟩
    · obtain ⟨job,first⟩ := firstPending_exists empty
      have stepped : step cfg s (.list w (some job)) = some (s.goto w (.picked i job)) := by
        simp [step,at_,Worker.pickHighestPriority,first]
      have ok : Orderly cfg w m id s (.list w (some job)) :=
        ⟨⟨rfl,trivial,trivial⟩,fun _ run member => absurd member (by simp [clear]),trivial⟩
      exact ⟨_,Reach.start.next ok stepped,rfl,.inl ⟨i,job,lane,goto_poll ..,first.1⟩⟩
theorem tries (at_ : (s.pollers w).poll = .trying i lane) : ∃ t, Leads cfg w m id s t ∧ t.toShared = s.toShared ∧
      (Picks w s.toShared t ∨ (t.pollers w).poll = .idle ∧ ∀ lane ∈ laneOrder, JobStore.lane s.jobs s.now lane = []) := by
  by_cases empty : JobStore.lane s.jobs s.now lane = []
  · have stepped : step cfg s (.list w none) = some (s.goto w (.falling i laneOrder)) := by
      simp [step,at_,Worker.tryLane,empty]
    have ok : Orderly cfg w m id s (.list w none) := ⟨⟨rfl,trivial,trivial⟩,trivial,trivial⟩
    obtain ⟨t,reached,ends⟩ := @falls cfg w id m (s.goto w (.falling i laneOrder)) i clear laneOrder (by decide) (goto_poll ..)
    exact ⟨t,(Reach.start.next ok stepped).trans reached,ends⟩
  · obtain ⟨job,first⟩ := firstPending_exists empty
    have ok : Orderly cfg w m id s (.list w (some job)) :=
      ⟨⟨rfl,trivial,trivial⟩,fun _ run member => absurd member (by simp [clear]),trivial⟩
    have stepped : ∃ t, step cfg s (.list w (some job)) = some t ∧ t.toShared = s.toShared ∧ (t.pollers w).poll = .picked i job := by
      simp [step,at_,Worker.tryLane,first]
    obtain ⟨t,stepped,same,picked⟩ := stepped
    exact ⟨t,Reach.start.next ok stepped,same,.inl ⟨i,job,lane,picked,first.1⟩⟩
theorem loops (at_ : (s.pollers w).poll = .loop i) : ∃ t, Leads cfg w m id s t ∧ t.toShared = s.toShared ∧
      (Picks w s.toShared t ∨ (t.pollers w).poll = .idle ∧
        ((i : Int) < (cfg w).batchSize → ∀ lane ∈ laneOrder, JobStore.lane s.jobs s.now lane = [])) := by
  have ok : Orderly cfg w m id s (.next w) := ⟨⟨rfl,trivial,trivial⟩,trivial,trivial⟩
  by_cases within : (i : Int) < (cfg w).batchSize
  · have stepped : ∃ t lane, step cfg s (.next w) = some t ∧ t.toShared = s.toShared ∧ (t.pollers w).poll = .trying i lane := by
      simp [step,at_,Worker.next,within]
    obtain ⟨u,lane,stepped,same,trying⟩ := stepped
    have clear' : u.runs.rows = [] := by
      rw [same]
      exact clear
    obtain ⟨t,reached,same',ends⟩ := @tries cfg w id m u i lane clear' trying
    rw [same] at ends
    exact ⟨t,(Reach.start.next ok stepped).trans reached,same'.trans same,ends.imp_right fun fell => ⟨fell.1,fun _ => fell.2⟩⟩
  · have stepped : step cfg s (.next w) = some (s.goto w .idle) := by
      simp [step,at_,Worker.next,within]
    exact ⟨_,Reach.start.next ok stepped,rfl,.inr ⟨goto_poll ..,fun more => absurd more within⟩⟩

variable (able : Able (cfg w)) (kept : Kept cfg w id s) (listed : lane ∈ laneOrder)
  (occupied : JobStore.lane s.jobs s.now lane ≠ [])
include able kept listed occupied

private theorem idles (at_ : (s.pollers w).poll = .idle) : ∃ t, Leads cfg w m id s t ∧ t.toShared = s.toShared ∧ Picks w s.toShared t := by
  have shallow : ¬ (queueDepth s.jobs s.now : Int) > (cfg w).maxQueueDepth := by
    have few : queueDepth s.jobs s.now ≤ s.jobs.rows.length := length_filter_le ..
    have room := kept.room
    omega
  have stepped : step cfg s (.poll w) = some (s.goto w (.loop 0)) := by
    simp only [step,if_pos at_,if_neg shallow]
  have ok : Orderly cfg w m id s (.poll w) := ⟨⟨rfl,trivial,trivial⟩,trivial,trivial⟩
  obtain ⟨t,reached,same,ends⟩ := @loops cfg w id m (s.goto w (.loop 0)) 0 clear (goto_poll ..)
  refine ⟨t,(Reach.start.next ok stepped).trans reached,same,ends.resolve_right fun fell => ?_⟩
  have batch := able.batch
  exact occupied (fell.2 (by omega) lane listed)
theorem comes_to_pick (before : ∀ i job, (s.pollers w).poll ≠ .picked i job) :
    ∃ t, Leads cfg w m id s t ∧ t.toShared = s.toShared ∧ Picks w s.toShared t := by
  have again : ∀ t, Leads cfg w m id s t → t.toShared = s.toShared →
      (Picks w s.toShared t ∨ (t.pollers w).poll = .idle) →
      ∃ t, Leads cfg w m id s t ∧ t.toShared = s.toShared ∧ Picks w s.toShared t := by
    intro u reached same ends
    obtain picks | idle := ends
    · exact ⟨u,reached,same,picks⟩
    · obtain ⟨t,reached',same',picks⟩ := idles (m := m) (by rw [same]; exact clear) able (kept_reach kept reached) listed
        (by rw [same]; exact occupied) idle
      exact ⟨t,reached.trans reached',same'.trans same,same ▸ picks⟩
  cases at_ : (s.pollers w).poll with
  | idle => exact again s .start rfl (.inr at_)
  | loop i =>
    obtain ⟨t,reached,same,ends⟩ := @loops cfg w id m s i clear at_
    exact again t reached same (ends.imp_right (·.1))
  | trying i lane =>
    obtain ⟨t,reached,same,ends⟩ := @tries cfg w id m s i lane clear at_
    exact again t reached same (ends.imp_right (·.1))
  | falling i lanes =>
    have some_ : lanes ≠ [] := by
      rintro rfl
      exact kept.sound.goes.2 i at_
    obtain ⟨t,reached,same,ends⟩ := @falls cfg w id m s i clear lanes some_ at_
    exact again t reached same (ends.imp_right (·.1))
  | picked i job => exact absurd at_ (before i job)
  | dispatching i n =>
    obtain ⟨run,member,_⟩ := kept.sound.waited i n at_
    have none : run ∈ s.runs.rows := member
    rw [clear] at none
    cases none
  | stopped => exact absurd at_ kept.sound.goes.1
end

theorem mem_only (only : s.runs.rows = [run]) : run ∈ s.runs := by
  rw [mem_def,only]
  exact mem_singleton_self _
private theorem finish_only (only : s.runs.rows = [run]) (phase : run.phase = .executing) :
    ∃ t run', Leads cfg w m id s t ∧ t.pollers = s.pollers ∧ t.runs.rows = [run'] ∧
      run'.phase = .recording ∧ run'.job.id = run.job.id ∧ (run.job.id ≠ id → run'.job.status = .completed) ∧
      t.jobs = s.jobs ∧ t.executions = s.executions := by
  have stepped := @goroutine_go s run .executing (fun s r => finish cfg s r (ending id run)) (mem_only only) phase
  have ok : Orderly cfg w m id s (.finish run.id (ending id run)) := ⟨⟨trivial,ending_fails id s (mem_only only),trivial⟩,trivial,trivial⟩
  refine ⟨_,{ run with job := outcome (cfg run.worker) s.now run.job (ending id run), phase := .recording },Reach.start.next ok stepped,rfl,
    upsert_single only rfl,rfl,outcome_id ..,?_,rfl,rfl⟩
  intro other
  simp [ending,other,outcome]
private theorem release_only (only : s.runs.rows = [run]) (phase : run.phase = .releasing) :
    ∃ t, Leads cfg w m id s t ∧ t.pollers = s.pollers ∧ t.runs.rows = [] ∧ t.jobs = s.jobs ∧ t.executions = s.executions := by
  have stepped : step cfg s (.release run.id) = some { s with toShared := release s.toShared run } := goroutine_go (mem_only only) phase
  have ok : Orderly cfg w m id s (.release run.id) := ⟨⟨trivial,trivial,trivial⟩,trivial,trivial⟩
  refine ⟨_,Reach.start.next ok stepped,rfl,?_,rfl,rfl⟩
  simp [release,delete,only]
section
variable (kept : Kept cfg w id s)
include kept
theorem acquire_go (at_ : (s.pollers w).poll = .picked i job) :
    step cfg s (.acquire w) = some { s.goto w (.dispatching i s.nextRun) with
      toShared := hand s.toShared w job ⟨w,s.now+(cfg w).lockTTL⟩ } := by
  have got := acquireLock_own (kept.sound.owned job.id) (cfg w).lockTTL s.now
  simp only [step,at_,acquire,got]
theorem none_left (queued : ∀ run ∈ s.runs, run.phase = .queued)
    (before : ∀ i n, (s.pollers w).poll ≠ .dispatching i n) : s.runs.rows = [] := by
  refine eq_nil_iff_forall_not_mem.mpr fun run member => ?_
  obtain ⟨i,at_⟩ := kept.sound.queued run member (queued run member)
  exact before i run.id at_
private theorem start_only (only : s.runs.rows = [run]) (phase : run.phase = .starting) :
    ∃ t run' first, Leads cfg w m id s t ∧ t.pollers = s.pollers ∧ t.runs.rows = [run'] ∧
      run'.phase = .executing ∧ run'.job.id = run.job.id ∧ first.id = run.job.id ∧ first.status = .running ∧
      t.jobs = s.jobs.upsert first ∧ t.executions = run.job.id :: s.executions := by
  have stepped : step cfg s (.start run.id) = some { s with toShared := start s.toShared run } := goroutine_go (mem_only only) phase
  rw [start_present (kept.sound.stored run (mem_only only))] at stepped
  have ok : Orderly cfg w m id s (.start run.id) := ⟨⟨trivial,trivial,trivial⟩,trivial,trivial⟩
  exact ⟨_,{ run with job := running s.now run.job, phase := .executing },running s.now run.job,Reach.start.next ok stepped,rfl,
    upsert_single only rfl,rfl,rfl,rfl,rfl,rfl,rfl⟩
private theorem record_only (only : s.runs.rows = [run]) (phase : run.phase = .recording) :
    ∃ t run' last, Leads cfg w m id s t ∧ t.pollers = s.pollers ∧ t.runs.rows = [run'] ∧
      run'.phase = .releasing ∧ last.id = run.job.id ∧ last.status = run.job.status ∧ t.jobs = s.jobs.upsert last ∧
      t.executions = s.executions := by
  have stepped : step cfg s (.record run.id) = some { s with toShared := record s.toShared run } := goroutine_go (mem_only only) phase
  rw [record_present (kept.sound.stored run (mem_only only))] at stepped
  have ok : Orderly cfg w m id s (.record run.id) := ⟨⟨trivial,trivial,trivial⟩,trivial,trivial⟩
  exact ⟨_,{ run with phase := .releasing },{ run.job with updatedAt := s.now },Reach.start.next ok stepped,rfl,
    upsert_single only rfl,rfl,rfl,rfl,rfl,rfl⟩
theorem executes (only : s.runs.rows = [run]) (phase : run.phase = .starting) :
    ∃ t first last, Leads cfg w m id s t ∧ t.pollers = s.pollers ∧ t.runs.rows = [] ∧
      t.executions = run.job.id :: s.executions ∧ first.id = run.job.id ∧ first.status = .running ∧
      last.id = run.job.id ∧ (run.job.id ≠ id → last.status = .completed) ∧ t.jobs = (s.jobs.upsert first).upsert last := by
  obtain ⟨s₁,run₁,first,reached₁,pollers₁,only₁,phase₁,about₁,firstID,running,jobs₁,executions₁⟩ :=
    start_only (m := m) kept only phase
  obtain ⟨s₂,run₂,reached₂,pollers₂,only₂,phase₂,about₂,completed,jobs₂,executions₂⟩ :=
    @finish_only cfg w id m s₁ run₁ only₁ phase₁
  obtain ⟨s₃,run₃,last,reached₃,pollers₃,only₃,phase₃,lastID,status,jobs₃,executions₃⟩ :=
    record_only (m := m) (kept_reach kept (reached₁.trans reached₂)) only₂ phase₂
  obtain ⟨t,reached,pollers,clear,jobs,executions⟩ := @release_only cfg w id m s₃ run₃ only₃ phase₃
  refine ⟨t,first,last,((reached₁.trans reached₂).trans reached₃).trans reached,?_,clear,?_,firstID,running,?_,?_,?_⟩
  · rw [pollers,pollers₃,pollers₂,pollers₁]
  · rw [executions,executions₃,executions₂,executions₁]
  · rw [lastID,about₂,about₁]
  · intro other
    rw [status]
    exact completed (by rw [about₁]; exact other)
  · rw [jobs,jobs₃,jobs₂,jobs₁]
end

/-! ### The job comes to its end -/

def other (id : String) (job : Job) : Nat := if job.id ≠ id ∧ job.status = .pending then 1 else 0

theorem fewer_others {jobs : Jobs} {first last : Job} (member : job ∈ jobs) (pending : job.status = .pending) (different : job.id ≠ id)
    (firstID : first.id = job.id) (lastID : last.id = job.id) (completed : last.status = .completed) :
    ((jobs.upsert first).upsert last).sum (other id) < jobs.sum (other id) := by
  have before := sum_upsert member firstID (other id)
  have there : first ∈ jobs.upsert first := mem_upsert.mpr (.inl rfl)
  have after := sum_upsert there (lastID.trans firstID.symm) (other id)
  have one : other id job = 1 := if_pos ⟨different,pending⟩
  have zero' : other id last = 0 := by simp [other,completed]
  omega

section
variable (able : Able (cfg w)) (kept : Kept cfg w id s)
include able kept

theorem cleared : ∃ t, Leads cfg w m id s t ∧ t.runs.rows = [] ∧
      ((t.pollers w).poll = (s.pollers w).poll ∨ ∃ i, (t.pollers w).poll = .loop i) := by
  obtain ⟨u,reached,same,queued⟩ := drained (m := m) kept
  have kept' := kept_reach kept reached
  by_cases waits : ∃ i n, (u.pollers w).poll = .dispatching i n
  · obtain ⟨i,n,at_⟩ := waits
    obtain ⟨run,member,rfl,_⟩ := kept'.sound.waited i n at_
    have stepped := dispatch_go able at_ member queued
    have ok : Orderly cfg w m id u (.dispatch w) := ⟨⟨rfl,trivial,trivial⟩,trivial,trivial⟩
    obtain ⟨t,reached',same',queued'⟩ := drained (m := m) (kept_step kept' ok stepped)
    have looping : (t.pollers w).poll = .loop (i+1) := by
      rw [same']
      exact goto_poll ..
    have together := (reached.next ok stepped).trans reached'
    refine ⟨t,together,none_left (kept_reach kept together) queued' ?_,.inr ⟨i+1,looping⟩⟩
    simp [looping]
  · refine ⟨u,reached,none_left kept' queued (fun i n at_ => waits ⟨i,n,at_⟩),.inl ?_⟩
    rw [same]
theorem served (clear : s.runs.rows = []) (at_ : (s.pollers w).poll = .picked i job) :
    ∃ t first last, Leads cfg w m id s t ∧ (t.pollers w).poll = .loop (i+1) ∧ t.runs.rows = [] ∧
      t.executions = job.id :: s.executions ∧ first.id = job.id ∧ first.status = .running ∧
      last.id = job.id ∧ (job.id ≠ id → last.status = .completed) ∧ t.jobs = (s.jobs.upsert first).upsert last := by
  have acquired := acquire_go kept at_
  have ok : Orderly cfg w m id s (.acquire w) := ⟨⟨rfl,trivial,trivial⟩,trivial,trivial⟩
  generalize taken : ({ s.goto w (.dispatching i s.nextRun) with
    toShared := hand s.toShared w job ⟨w,s.now+(cfg w).lockTTL⟩ } : State) = u at acquired
  have kept₁ := kept_step kept ok acquired
  have only : u.runs.rows = [⟨s.nextRun,w,job,s.now+(cfg w).lockTTL,.queued⟩] := by
    rw [← taken]
    simp [hand,upsert,clear]
  have waits : (u.pollers w).poll = .dispatching i s.nextRun := by
    rw [← taken]
    exact goto_poll ..
  have queued : ∀ run ∈ u.runs, run.phase = .queued := by
    intro run member
    rw [mem_def,only,mem_singleton] at member
    rw [member]
  have dispatched := dispatch_go able waits (mem_only only) queued
  have ok' : Orderly cfg w m id u (.dispatch w) := ⟨⟨rfl,trivial,trivial⟩,trivial,trivial⟩
  obtain ⟨t,first,last,reached,pollers,clear',executions,rest⟩ :=
    executes (m := m) (kept_step kept₁ ok' dispatched) (upsert_single only rfl) rfl
  refine ⟨t,first,last,((Reach.start.next ok acquired).next ok' dispatched).trans reached,?_,clear',?_,?_⟩
  · rw [pollers]
    exact goto_poll ..
  · rw [executions,← taken]
    rfl
  · rw [← taken] at rest
    exact rest

/-- With nothing in hand, the worker comes to its next pick: it executes the job, or another of which there are fewer then. -/
theorem goes_round (clear : s.runs.rows = [])
    (before : ∀ i job, (s.pollers w).poll ≠ .picked i job) {row : Job} (there : row ∈ s.jobs) (its : row.id = id)
    (pending : row.status = .pending) (listed : row.priority ∈ laneOrder) :
    ∃ t, Leads cfg w m id s t ∧ Present t.jobs id ∧ t.runs.rows = [] ∧
      (∀ i job, (t.pollers w).poll ≠ .picked i job) ∧ (executed id t.toShared = executed id s.toShared+1 ∨
        executed id t.toShared = executed id s.toShared ∧ t.jobs.sum (other id) < s.jobs.sum (other id)) := by
  -- The job is due after a while.
  have ok : Orderly cfg w m id s (.advance (row.scheduledAt-s.now).toNat) := ⟨⟨trivial,trivial,trivial⟩,trivial,trivial⟩
  have passed : step cfg s (.advance (row.scheduledAt-s.now).toNat) =
      some { s with now := s.now+((row.scheduledAt-s.now).toNat : Nat) } := rfl
  have kept₁ := kept_step kept ok passed
  have waits : row ∈ JobStore.lane s.jobs (s.now+((row.scheduledAt-s.now).toNat : Nat)) row.priority :=
    mem_filter.mpr ⟨there,decide_eq_true ⟨rfl,decide_eq_true ⟨pending,le_until⟩⟩⟩
  obtain ⟨u,reached,same,i,job,lane,picked,among⟩ := comes_to_pick (m := m) (by exact clear) able kept₁ listed (ne_nil_of_mem waits) before
  obtain ⟨member,isDue⟩ := mem_filter.mp among
  obtain ⟨t,first,last,reached',looping,clear',executions,firstID,running,lastID,completed,jobs⟩ :=
    served (m := m) able (kept_reach kept₁ reached) (by rw [same]; exact clear) picked
  have sameJobs : u.jobs = s.jobs := by rw [same]
  have sameExecutions : u.executions = s.executions := by rw [same]
  rw [sameExecutions] at executions
  rw [sameJobs] at jobs
  refine ⟨t,((Reach.start.next ok passed).trans reached).trans reached',?_,clear',by simp [looping],?_⟩
  · rw [jobs]
    exact present_upsert _ (present_upsert _ ⟨row,there,its⟩)
  · by_cases own : job.id = id
    · rw [executed,executions,own,count_cons_self,executed]
      omega
    · refine .inr ⟨by rw [executed,executions,count_cons_of_ne own,executed],?_⟩
      rw [jobs]
      exact fewer_others member (of_decide_eq_true (of_decide_eq_true isDue).2).1 own firstID lastID (completed own)
theorem ends_resting (present : Present s.jobs id) (clear : s.runs.rows = []) (before : ∀ i job, (s.pollers w).poll ≠ .picked i job) :
    ∃ t, Leads cfg w m id s t ∧ StoredAs t.jobs id .deadLetter := by
  -- The executions that are left, and then the other jobs that are pending.
  induction left : (max 1 (cfg w).maxAttempts-executed id s.toShared).toNat using Nat.strongRecOn generalizing s with
  | ind n outer =>
    induction others : s.jobs.sum (other id) using Nat.strongRecOn generalizing s with
    | ind k inner =>
      obtain ⟨row,there,its⟩ := present
      have none : ∀ run ∈ s.runs, run.job.id ≠ id := fun run member => absurd member (by rw [mem_def,clear]; simp)
      have settled := kept.budgeted.free none row there its
      obtain ⟨pending,more⟩ | ⟨dead,_⟩ := settled.status
      · obtain ⟨t,reached,present,clear',rest,progress⟩ := goes_round (m := m) able kept clear before there its pending settled.listed
        have kept' := kept_reach kept reached
        have ends : ∃ t', Leads cfg w m id t t' ∧ StoredAs t'.jobs id .deadLetter := by
          obtain again | ⟨equally,fewer⟩ := progress
          · exact outer _ (by omega) kept' present clear' rest rfl
          · exact inner _ (others ▸ fewer) kept' present clear' rest (equally ▸ left) rfl
        obtain ⟨t',reached',dead⟩ := ends
        exact ⟨t',reached.trans reached',dead⟩
      · exact ⟨s,.start,row,there,its,dead⟩
private theorem ends (present : Present s.jobs id) : ∃ t, Leads cfg w m id s t ∧ StoredAs t.jobs id .deadLetter := by
  obtain ⟨u,reached,clear,at_⟩ := cleared (m := m) able kept
  have kept' := kept_reach kept reached
  have present' := present_reach kept present reached
  by_cases picked : ∃ i job, (u.pollers w).poll = .picked i job
  · obtain ⟨i,job,picked⟩ := picked
    obtain ⟨t,first,last,reached',looping,clear',_⟩ := served (m := m) able kept' clear picked
    obtain ⟨t',reached'',dead⟩ := ends_resting (m := m) able (kept_reach kept' reached') (present_reach kept' present' reached') clear'
      (by simp [looping])
    exact ⟨t',(reached.trans reached').trans reached'',dead⟩
  · obtain ⟨t,reached',dead⟩ := ends_resting (m := m) able kept' present' clear (fun i job at_ => picked ⟨i,job,at_⟩)
    exact ⟨t,reached.trans reached',dead⟩
end

/-- The job is executed at most `m` times, is dead-lettered after `m` executions and not before, and comes to that. -/
structure Exact (cfg : String → Config) (ok : State → Action → Prop) (id : String) (m : Int) (s : State) : Prop where
  within : executed id s.toShared ≤ m
  spent : StoredAs s.jobs id .deadLetter → executed id s.toShared = m
  settled : executed id s.toShared = m → (∀ run ∈ s.runs, run.job.id ≠ id) → StoredAs s.jobs id .deadLetter
  ends : ∃ t, Reach (step cfg) ok s t ∧ StoredAs t.jobs id .deadLetter
/-- Every job has its budget, in every run whose steps meet the condition. -/
def Budget (cfg : String → Config) (ok : String → State → Action → Prop) (m : Int) : Prop :=
  ∀ id s, Reach (step cfg) (ok id) init s → Present s.jobs id → Exact cfg (ok id) id m s

private theorem executed_le {N : Int} (budgeted : Budgeted N id u poll) (present : Present u.jobs id) : executed id u ≤ N := by
  have of_settled : ∀ {row}, Settled N id u row → executed id u ≤ N := by
    intro row settled
    obtain ⟨_,less⟩ | ⟨_,equal⟩ := settled.status
    · exact Int.le_of_lt less
    · exact Int.le_of_eq equal
  by_cases none : ∀ run ∈ u.runs, run.job.id ≠ id
  · obtain ⟨row,there,its⟩ := present
    exact of_settled (budgeted.free none row there its)
  · obtain ⟨run,member,its⟩ : ∃ run ∈ u.runs, run.job.id = id := by simpa using none
    have phased := budgeted.runs run member its
    cases phase : run.phase with
    | queued | starting =>
      simp only [AtPhase,phase] at phased
      exact Int.le_of_lt phased.1.left
    | executing =>
      simp only [AtPhase,phase] at phased
      exact phased.1.2.2.1
    | recording =>
      simp only [AtPhase,phase] at phased
      exact of_settled phased.1
    | releasing =>
      simp only [AtPhase,phase] at phased
      obtain ⟨row,_,_,settled⟩ := phased
      exact of_settled settled
theorem executed_eq {N : Int} (budgeted : Budgeted N id u poll) (dead : StoredAs u.jobs id .deadLetter) : executed id u = N := by
  have not : ∀ {status}, StoredAs u.jobs id status → status = .deadLetter := fun stored => storedAs_unique stored dead
  obtain ⟨row,there,its,status⟩ := dead
  have of_settled : Settled N id u row → executed id u = N := by
    intro settled
    obtain ⟨pending,_⟩ | ⟨_,equal⟩ := settled.status
    · rw [status] at pending
      cases pending
    · exact equal
  by_cases none : ∀ run ∈ u.runs, run.job.id ≠ id
  · exact of_settled (budgeted.free none row there its)
  · obtain ⟨run,member,its'⟩ : ∃ run ∈ u.runs, run.job.id = id := by simpa using none
    have phased := budgeted.runs run member its'
    cases phase : run.phase with
    | queued | starting | executing | recording =>
      simp only [AtPhase,phase] at phased
      cases not phased.2
    | releasing =>
      simp only [AtPhase,phase] at phased
      obtain ⟨row',there',about,settled⟩ := phased
      rw [u.jobs.eq_of_key there' there (about.trans its.symm)] at settled
      exact of_settled settled
private theorem exact_kept (able : Able (cfg w)) (kept : Kept cfg w id s) (present : Present s.jobs id) :
    Exact cfg (Orderly cfg w m id) id (max 1 (cfg w).maxAttempts) s where
  within := executed_le kept.budgeted present
  spent := executed_eq kept.budgeted
  settled spent none := by
    obtain ⟨row,there,its⟩ := present
    obtain ⟨_,less⟩ | ⟨dead,_⟩ := (kept.budgeted.free none row there its).status
    · exact absurd spent (Int.ne_of_lt less)
    · exact ⟨row,there,its,dead⟩
  ends := ends able kept present

def charge (m : Int) : Job := jobBase 0 "charge" "sub-1" 0 m priorityHigh
private theorem charge_created (able : Able (cfg w)) (m : Int) : ∃ s, Reach (step cfg) (Orderly cfg w m (charge m).id) init s ∧
    Present s.jobs (charge m).id := by
  have depth := able.depth
  have ok : Orderly cfg w m (charge m).id init (.create (charge m)) := by
    refine ⟨⟨trivial,trivial,fun _ => rfl⟩,trivial,fun _ => (by decide : priorityHigh ∈ laneOrder),?_⟩
    exact (show (0 : Int) < (cfg w).maxQueueDepth by omega)
  refine ⟨{ init with jobs := init.jobs.upsert (charge m) },Reach.start.next ok ?_,charge m,mem_upsert.mpr (.inl rfl),rfl⟩
  have named : generateJobID "charge" 0 ≠ "" := by decide +kernel
  rw [step,if_pos ⟨named,rfl,rfl⟩]
def chargeAgain : Job :=
  { charge 1 with attempts := 1, startedAt := some 0, scheduledAt := 1000000000, lastError := "declined" }
def executedAgain : List Action :=
  [.create (charge 1),.poll "a",.next "a",.list "a" (some (charge 1)),.acquire "a",.dispatch "a",.start 0,.finish 0 (some "declined"),
    .record 0,.release 0,.advance 1000000000,.next "a",.list "a" (some chargeAgain),.acquire "a",.dispatch "a",.start 1]
end Stellabill.WorkerProgress
