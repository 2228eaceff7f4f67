import Stellabill.OutboxWorkers

/-!
No event gets lost between the workers. The status of a claimed event is durable
but the claim is not: a row that is marked as processing is never selected again.
-/
namespace Stellabill.OutboxClaims
open Keyed Transitions Uuid Outbox Program Batches Table
open OutboxWorkers

variable {s t : State} {a : Action}

/-- From some instant on, successive calls of `claimBatch` return the event, however rows of one instant are ordered. -/
def WillReturn (limit : Int) (events : Events) (now : Time) (id : UUID) : Prop :=
  ∃ later, now ≤ later ∧ ∃ calls, ∀ batches,
    Drains (eligible later) Event.occurredAt limit.toNat (processing later) (processing_id later) events batches →
    calls ≤ batches.length → ∃ batch ∈ batches, ∃ row ∈ batch, row.id = id

variable {limit : Int} {events : Events} {row event : Event} {now : Time} {w : OutboxWorker}

theorem willReturn_of_eligible (positive : 0 < limit) (member : row ∈ events) {later : Time} (notBefore : now ≤ later)
    (meets : eligible later row = true) : WillReturn limit events now row.id := by
  refine ⟨later,notBefore,events.rows.countP (eligible later),fun batches drains enough => ?_⟩
  obtain ⟨batch,among,listed⟩ := drains.picks (by omega) (by simp [eligible,processing]) member meets enough
  exact ⟨batch,among,row,listed,rfl⟩
theorem not_willReturn {id : UUID} (never : limit ≤ 0 ∨ ∀ later, ∀ row ∈ events, eligible later row = false) : ¬ WillReturn limit events now id := by
  rintro ⟨later,_,calls,returns⟩
  have nothing : limit.toNat = 0 ∨ ∀ row ∈ events, eligible later row = false :=
    never.imp (fun _ => by omega) (fun none_ => none_ later)
  obtain ⟨batch,among,row,listed,_⟩ := returns (List.replicate calls []) (drains_nothing nothing calls) (by simp)
  rw [List.eq_of_mem_replicate among] at listed
  cases listed

/-- The event is completed, has failed for good, is with a worker that will update it, or will be claimed. -/
def Accounted (s : State) (row : Event) : Prop :=
  row.status = .completed ∨ (row.status = .failed ∧ row.nextRetryAt = none) ∨
    (∃ w ∈ s.workers, row.id ∈ w.phase.held.map Event.id) ∨
    ∀ limit : Int, 0 < limit → WillReturn limit s.db.events s.now row.id

/-- No worker crashes or stops with a claimed event, every update takes effect, and no claim takes effect unanswered. -/
def Handled (s : State) : Action → Prop
  | .crash id => ∀ w ∈ s.workers.rows, w.id = id → w.phase.held = []
  | .publish id _ => ∀ w ∈ s.workers.rows, w.id = id → w.cancelled = false
  | .update _ reply => reply.effective = true
  | .commit _ reply => reply.effective = true → reply.error = none
  | _ => True

instance (s : State) (a : Action) : Decidable (Handled s a) := by
  unfold Handled
  split <;> infer_instance

/-- The invariant: a row is marked as processing only while a worker holds the event. -/
def Owned (s : State) : Prop :=
  ∀ row ∈ s.db.events, row.status = .processing → ∃ w ∈ s.workers, row.id ∈ w.phase.held.map Event.id

theorem owned_set (owned : Owned s) {w' : OutboxWorker} (member : w ∈ s.workers) (same : w'.id = w.id)
    (workers : t.workers = s.workers.upsert w')
    (rows : ∀ row ∈ t.db.events, row.status = .processing → row.id ∈ w'.phase.held.map Event.id ∨
      (row ∈ s.db.events ∧ (row.id ∈ w.phase.held.map Event.id → row.id ∈ w'.phase.held.map Event.id))) : Owned t := by
  have own : w' ∈ t.workers := by rw [workers]; exact mem_upsert.mpr (.inl rfl)
  intro row listed processing
  rcases rows row listed processing with held | ⟨old,still⟩
  · exact ⟨w',own,held⟩
  · obtain ⟨owner,among,held⟩ := owned row old processing
    by_cases equal : owner.id = w.id
    · rw [s.workers.eq_of_key among member equal] at held
      exact ⟨w',own,still held⟩
    · refine ⟨owner,?_,held⟩
      rw [workers]
      exact mem_upsert.mpr (.inr ⟨among,same ▸ equal⟩)
private theorem owned_remove (owned : Owned s) (member : w ∈ s.workers) (nothing : w.phase.held = []) : Owned (s.remove w.id) := by
  intro row listed processing
  obtain ⟨owner,among,held⟩ := owned row listed processing
  refine ⟨owner,mem_delete.mpr ⟨among,?_⟩,held⟩
  have other : owner.id ≠ w.id := by
    intro equal
    rw [s.workers.eq_of_key among member equal,nothing] at held
    cases held
  simpa using other

private theorem owned_store (owned : Owned s) {db : Tables} (new : event.status = .pending ∨ event.status = .failed)
    (accepted : store s.db event = some db) : Owned { s with db } := by
  intro row listed processing
  rcases ((store_some accepted).2.2 row).mp listed with old | rfl
  · exact owned row old processing
  · rcases new with status | status <;> simp [inserted,status] at processing
private theorem owned_settled (owned : Owned s) {rest : List Event} (member : w ∈ s.workers) (held : w.phase.held = event :: rest)
    (workers : t.workers = s.workers.upsert { w with phase := .proceed rest })
    (rows : ∀ row ∈ t.db.events, row.status = .processing → row ∈ s.db.events ∧ row.id ≠ event.id) : Owned t := by
  refine owned_set owned member (by rfl) workers (fun row listed processing => .inr ?_)
  obtain ⟨old,other⟩ := rows row listed processing
  refine ⟨old,?_⟩
  rw [held,held_proceed]
  simp [other]
theorem owned_step (fresh : Fresh s) (owned : Owned s) (handled : Handled s a) (effect : Effect s a t) : Owned t := by
  cases effect with
  | quiet | passed => exact owned
  | stored new accepted => exact owned_store owned new accepted
  | started config =>
    intro row listed processing
    obtain ⟨owner,among,held⟩ := owned row listed processing
    exact ⟨owner,mem_upsert.mpr (.inr ⟨among,(fresh owner among).ne⟩),held⟩
  | stopped member => exact owned_set owned member (by rfl) rfl (fun row listed _ => .inr ⟨listed,fun held => held⟩)
  | exited member idle => exact owned_remove owned member (by rw [idle]; rfl)
  | crashed member => exact owned_remove owned member (handled _ member rfl)
  | selected member idle selects =>
    exact owned_set owned member (by rfl) rfl (fun row listed _ => .inr ⟨listed,fun held => by rw [idle] at held; cases held⟩)
  | @claimed w began events member phase =>
    refine owned_set owned member (show ({ w with phase := .working events } : OutboxWorker).id = w.id from rfl) rfl ?_
    intro row listed processing
    obtain ⟨row',old,rfl⟩ := mem_markProcessing.mp listed
    by_cases hit : row'.id ∈ events.map Event.id
    · simp only [hit,if_true]
      exact .inl hit
    · simp only [hit,if_false]
      exact .inr ⟨old,fun held => by rw [phase] at held; cases held⟩
  | lost member phase => cases handled rfl
  | rolledBack member phase =>
    exact owned_set owned member (by rfl) rfl (fun row listed _ => .inr ⟨listed,fun held => by rw [phase] at held; cases held⟩)
  | returned member phase cancelled =>
    have active := handled _ member rfl
    rw [cancelled] at active
    cases active
  | accepted member phase =>
    exact owned_set owned member (by rfl) rfl (fun row listed _ => .inr ⟨listed,fun held => by rw [phase] at held; exact held⟩)
  | refused member phase =>
    exact owned_set owned member (by rfl) rfl (fun row listed _ => .inr ⟨listed,fun held => by rw [phase] at held; exact held⟩)
  | unrecorded member settling failed =>
    have effective : _ = true := handled
    rw [failed] at effective
    cases effective
  | @completed w event rest reply member phase =>
    refine owned_settled owned member (by rw [phase]; rfl) rfl (fun row listed processing => ?_)
    obtain ⟨row',old,rfl⟩ := mem_markCompleted.mp listed
    by_cases hit : row'.id = event.id
    · simp [hit] at processing
    · simpa [hit] using old
  | @failed w event message rest reply member phase =>
    refine owned_settled owned member (by rw [phase]; rfl) rfl (fun row listed processing => ?_)
    obtain ⟨row',old,rfl⟩ := mem_handleFailure.mp listed
    by_cases hit : row'.id = event.id
    · simp [hit] at processing
    · simpa [hit] using old

private theorem owned_init : Owned init := forall_mem_empty

theorem owned_run {ok : State → Action → Prop} (weaker : ∀ s a, ok s a → Handled s a) (run : Reach step ok init s) : Owned s := by
  have invariant := run.invariant (I := fun s => Fresh s ∧ Owned s) ⟨fresh_init,owned_init⟩
    (fun ⟨fresh,owned⟩ allowed stepped =>
      ⟨fresh_step fresh (step_effect stepped),owned_step fresh owned (weaker _ _ allowed) (step_effect stepped)⟩)
  exact invariant.2
theorem accounted_of_owned (owned : Owned s) (member : row ∈ s.db.events) : Accounted s row := by
  cases status : row.status with
  | completed => exact .inl status
  | processing => exact .inr (.inr (.inl (owned row member status)))
  | pending =>
    have meets : eligible s.now row = true := by simp [eligible,status]
    exact .inr (.inr (.inr (fun limit positive => willReturn_of_eligible positive member (Int.le_refl _) meets)))
  | failed =>
    cases retry : row.nextRetryAt with
    | none => exact .inr (.inl ⟨status,retry⟩)
    | some due =>
      have meets : eligible (max s.now due) row = true := by simp [eligible,status,retry]
      exact .inr (.inr (.inr (fun limit positive => willReturn_of_eligible positive member (Int.le_max_left ..) meets)))

/-- In every run whose steps are handled, each stored event is accounted for. -/
theorem events_accounted {s : State} (run : Reach step Handled init s) : ∀ row ∈ s.db.events, Accounted s row :=
  fun _ member => accounted_of_owned (owned_run (fun _ _ handled => handled) run) member

def defaults : Config := { batchSize := 10, maxRetries := 3, retryBackoffBase := 1000000000 }
def created : Event := newEvent 1 0 "user.created" "" none none
def crashing : List Action :=
  [.store created,.start defaults,.select 0 [created],.commit 0 .done,.crash 0]
theorem event_stranded : ¬ ∀ s, Reach step Any init s → ∀ row ∈ s.db.events, Accounted s row := by
  intro claim
  obtain ⟨s,ran,⟨row,member,_⟩,processing,gone⟩ := run_seen step init crashing
    (fun s => (∃ row ∈ s.db.events.rows, row.id = 1) ∧ (∀ row ∈ s.db.events.rows, row.status = .processing) ∧ s.workers.rows = [])
    (by decide +kernel)
  rcases claim s (run_any ran) row member with completed | failed | ⟨w,holder,_⟩ | returned
  · simp [processing row member] at completed
  · simp [processing row member] at failed
  · rw [mem_def,gone] at holder
    cases holder
  · exact not_willReturn (.inr (fun later row member => by simp [eligible,processing row member])) (returned 10 (by decide))
def retrying : List Action :=
  [.store created,.start defaults,.select 0 [created],.commit 0 .done,.publish 0 (some "unreachable"),.update 0 .done]
theorem events_accounted_retrying : ∃ s, Reach step Handled init s ∧ s.published = [1] ∧ ∀ row ∈ s.db.events, Accounted s row :=
  reach_seen retrying (by decide +kernel) (by decide +kernel) (fun _ run _ => events_accounted run)

end Stellabill.OutboxClaims
