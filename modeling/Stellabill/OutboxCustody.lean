import Stellabill.OutboxWorkers

/-!
No two workers have the same event: in every run, the rows of claimed events are marked
as processing, and a worker's copy of an event agrees with its row.
-/
namespace Stellabill.OutboxCustody
open Keyed Transitions Uuid Outbox Program Batches Table List
open OutboxWorkers

variable {s t : State} {a : Action}

/-- The events that a worker has locked or claimed. -/
def hands (phase : Phase) : List UUID := (phase.locks ++ phase.held).map Event.id
/-- The row of a claimed event agrees with the copy. -/
structure Claimed (row event : Event) : Prop where
  id : row.id = event.id
  status : row.status = .processing
  retryCount : row.retryCount = event.retryCount
  maxRetries : row.maxRetries = event.maxRetries
  nextRetryAt : row.nextRetryAt = event.nextRetryAt

/-- No event is in two hands, and the copies are those of the rows. -/
structure Custody (s : State) : Prop where
  distinct : ∀ w ∈ s.workers, (hands w.phase).Nodup
  apart : ∀ w ∈ s.workers, ∀ w' ∈ s.workers, ∀ id ∈ hands w.phase, id ∈ hands w'.phase → w = w'
  locked : ∀ w ∈ s.workers, ∀ event ∈ w.phase.locks, ∃ row ∈ s.db.events, scanOutboxEvent row = event ∧ eligible s.now row = true
  held : ∀ w ∈ s.workers, ∀ event ∈ w.phase.held, ∃ row ∈ s.db.events, Claimed row event

variable {phase : Phase} {event : Event} {w' w : OutboxWorker} {rest : List Event}

private theorem mem_hands_of_locks (member : event ∈ phase.locks) : event.id ∈ hands phase :=
  mem_map_of_mem (mem_append_left _ member)
theorem mem_hands_of_held (member : event ∈ phase.held) : event.id ∈ hands phase :=
  mem_map_of_mem (mem_append_right _ member)
private theorem mem_hands {id : UUID} (member : id ∈ hands phase) :
    (∃ event ∈ phase.locks, event.id = id) ∨ ∃ event ∈ phase.held, event.id = id := by
  obtain ⟨event,listed,same⟩ := mem_map.mp member
  rcases mem_append.mp listed with locks | held
  · exact .inl ⟨event,locks,same⟩
  · exact .inr ⟨event,held,same⟩
theorem eligible_later {now later : Time} (notBefore : now ≤ later) {row : Event} (meets : eligible now row = true) :
    eligible later row = true := by
  simp only [eligible,decide_eq_true_eq] at meets ⊢
  rcases meets with pending | ⟨failed,due⟩
  · exact .inl pending
  · obtain ⟨at_,retry,past⟩ := (Option.any_eq_true ..).mp due
    refine .inr ⟨failed,(Option.any_eq_true ..).mpr ⟨at_,retry,?_⟩⟩
    simp only [decide_eq_true_eq] at past ⊢
    exact Int.le_trans past notBefore

theorem held_of_settling (settling : phase.settling ≠ []) : ∃ event, phase.held = event :: phase.due := by
  cases phase with
  | completing event rest | failing event message rest => exact ⟨event,rfl⟩
  | idle | claiming began events | working events => cases settling rfl
section
variable (custody : Custody s)
include custody
section
variable (workers : t.workers = s.workers.upsert w') (now : t.now = s.now)
    (locks : ∀ event ∈ w'.phase.locks, ∃ row ∈ t.db.events, scanOutboxEvent row = event ∧ eligible s.now row = true)
    (held : ∀ event ∈ w'.phase.held, ∃ row ∈ t.db.events, Claimed row event)
include workers now locks held
/-- A worker may take what no other has, if the others' rows stay. -/
theorem custody_upsert (distinct : (hands w'.phase).Nodup)
    (free : ∀ o ∈ s.workers, o.id ≠ w'.id → ∀ id ∈ hands o.phase, id ∉ hands w'.phase)
    (frame : ∀ o ∈ s.workers, o.id ≠ w'.id → ∀ row ∈ s.db.events, row.id ∈ hands o.phase → row ∈ t.db.events) : Custody t := by
  refine ⟨?_,?_,?_,?_⟩ <;> rw [workers]
  · intro o listed
    rcases mem_upsert.mp listed with rfl | ⟨old,_⟩
    · exact distinct
    · exact custody.distinct o old
  · intro o listed o' listed' id among among'
    rcases mem_upsert.mp listed with rfl | ⟨old,different⟩ <;>
      rcases mem_upsert.mp listed' with rfl | ⟨old',different'⟩
    · rfl
    · exact absurd among (free o' old' different' id among')
    · exact absurd among' (free o old different id among)
    · exact custody.apart o old o' old' id among among'
  · intro o listed event among
    rw [now]
    rcases mem_upsert.mp listed with rfl | ⟨old,different⟩
    · exact locks event among
    · obtain ⟨row,stored,copy,meets⟩ := custody.locked o old event among
      have own := mem_hands_of_locks among
      rw [← copy] at own
      exact ⟨row,frame o old different row stored own,copy,meets⟩
  · intro o listed event among
    rcases mem_upsert.mp listed with rfl | ⟨old,different⟩
    · exact held event among
    · obtain ⟨row,stored,claimed⟩ := custody.held o old event among
      have own := mem_hands_of_held among
      rw [← claimed.id] at own
      exact ⟨row,frame o old different row stored own,claimed⟩
/-- A worker may give up events, if the rows of the others stay. -/
theorem custody_set (member : w ∈ s.workers) (same : w'.id = w.id)
    (fewer : (hands w'.phase).Sublist (hands w.phase)) (frame : ∀ row ∈ s.db.events, row.id ∉ hands w.phase → row ∈ t.db.events) : Custody t := by
  have other : ∀ o ∈ s.workers, o.id ≠ w'.id → ∀ id ∈ hands o.phase, id ∉ hands w.phase := by
    intro o among different id listed listed'
    exact different (same ▸ congrArg OutboxWorker.id (custody.apart o among w member id listed listed'))
  refine custody_upsert custody workers now locks held (fewer.nodup (custody.distinct w member)) ?_ ?_
  · intro o among different id listed listed'
    exact other o among different id listed (fewer.subset listed')
  · intro o among different row stored own
    exact frame row stored (other o among different row.id own)
end
/-- No worker has a row that can be claimed. -/
theorem claimable_free {row : Event} (stored : row ∈ s.db.events) (free : claimable s row = true)
    (member : w ∈ s.workers) : row.id ∉ hands w.phase := by
  simp only [claimable,decide_eq_true_eq] at free
  obtain ⟨meets,unlocked⟩ := free
  intro listed
  rcases mem_hands listed with ⟨event,locks,same⟩ | ⟨event,held,same⟩
  · exact unlocked w member (same ▸ mem_map_of_mem locks)
  · obtain ⟨row',stored',claimed⟩ := custody.held w member event held
    rw [s.db.events.eq_of_key stored' stored (claimed.id.trans same)] at claimed
    simp [eligible,claimed.status] at meets
theorem custody_select (w : OutboxWorker) {rows : List Event} {limit : Nat}
    (selects : Selects s.db.events (claimable s) Event.occurredAt limit rows) :
    Custody (s.set { w with phase := .claiming s.now (rows.map scanOutboxEvent) }) := by
  have ids : hands (.claiming s.now (rows.map scanOutboxEvent)) = rows.map Event.id := by
    simp [hands,Phase.locks,Phase.held,Phase.settling,Phase.due,Function.comp_def,scanOutboxEvent]
  have free : ∀ id ∈ rows.map Event.id, ∀ o ∈ s.workers, id ∉ hands o.phase := by
    intro id listed o among
    obtain ⟨row,picked,rfl⟩ := mem_map.mp listed
    exact claimable_free custody (selects.2.1 row picked).1 (selects.2.1 row picked).2 among
  refine custody_upsert custody rfl rfl ?_ ?_ (by rw [ids]; exact selects.1) ?_ (fun _ _ _ _ stored _ => stored)
  · intro event among
    obtain ⟨row,picked,rfl⟩ := mem_map.mp among
    obtain ⟨stored,claims⟩ := selects.2.1 row picked
    simp only [claimable,decide_eq_true_eq] at claims
    exact ⟨row,stored,rfl,claims.1⟩
  · exact forall_mem_nil _
  · intro o among _ id listed listed'
    rw [ids] at listed'
    exact free id listed' o among listed
theorem custody_remove (id : Nat) : Custody (s.remove id) := by
  have among : ∀ w ∈ (s.remove id).workers, w ∈ s.workers := fun w listed => (mem_delete.mp listed).1
  exact ⟨fun w listed => custody.distinct w (among w listed),
    fun w listed w' listed' => custody.apart w (among w listed) w' (among w' listed'),
    fun w listed => custody.locked w (among w listed),fun w listed => custody.held w (among w listed)⟩
private theorem custody_stored {db : Tables} (accepted : store s.db event = some db) :
    Custody { s with db } := by
  have kept : ∀ row ∈ s.db.events, row ∈ db.events := fun row stored => ((store_some accepted).2.2 row).mpr (.inl stored)
  refine ⟨custody.distinct,custody.apart,?_,?_⟩
  · intro w member event among
    obtain ⟨row,stored,copy⟩ := custody.locked w member event among
    exact ⟨row,kept row stored,copy⟩
  · intro w member event among
    obtain ⟨row,stored,claimed⟩ := custody.held w member event among
    exact ⟨row,kept row stored,claimed⟩
section
variable (member : w ∈ s.workers)
include member
section
variable (holds : w.phase.held = event :: rest)
include holds
theorem rest_free : event.id ∉ rest.map Event.id := by
  have distinct := custody.distinct w member
  rw [hands,holds,map_append] at distinct
  exact (nodup_cons.mp (nodup_append.mp distinct).2.1).1
theorem other_free {o : OutboxWorker} (among : o ∈ s.workers) (different : o.id ≠ w.id) : event.id ∉ hands o.phase := by
  have own : event.id ∈ hands w.phase := mem_hands_of_held (by rw [holds]; exact mem_cons_self)
  exact fun listed => different (congrArg OutboxWorker.id (custody.apart o among w member event.id listed own))
/-- A worker is done with its first event and changes no other row. -/
theorem custody_settled
    (workers : t.workers = s.workers.upsert { w with phase := .proceed rest }) (now : t.now = s.now)
    (frame : ∀ row ∈ s.db.events, row.id ≠ event.id → row ∈ t.db.events) : Custody t := by
  have own : hands w.phase = w.phase.locks.map Event.id ++ event.id :: rest.map Event.id := by simp [hands,holds]
  have after : hands (.proceed rest) = rest.map Event.id := by simp [hands,held_proceed,locks_proceed]
  have same : ({ w with phase := .proceed rest } : OutboxWorker).id = w.id := rfl
  refine custody_set custody workers now ?_ ?_ member same ?_ ?_
  · intro other listed
    simp only [locks_proceed] at listed
    cases listed
  · intro other listed
    simp only [held_proceed] at listed
    obtain ⟨row,stored,claimed⟩ := custody.held w member other (by rw [holds]; exact mem_cons_of_mem _ listed)
    have different : row.id ≠ event.id := by
      intro equal
      rw [claimed.id] at equal
      exact rest_free custody member holds (equal ▸ mem_map_of_mem listed)
    exact ⟨row,frame row stored different,claimed⟩
  · rw [own,after]
    exact (sublist_cons_self ..).trans (sublist_append_right ..)
  · intro row stored outside
    exact frame row stored (fun equal => outside (by rw [own,equal]; simp))
end
private theorem custody_idle (workers : t.workers = s.workers.upsert { w with phase := .idle })
    (now : t.now = s.now) (frame : ∀ row ∈ s.db.events, row.id ∉ hands w.phase → row ∈ t.db.events) : Custody t := by
  have same : ({ w with phase := .idle } : OutboxWorker).id = w.id := rfl
  exact custody_set custody workers now (forall_mem_nil _) (forall_mem_nil _)
    member same (nil_sublist _) frame
private theorem custody_keep (same : w'.id = w.id) (workers : t.workers = s.workers.upsert w')
    (now : t.now = s.now) (events : t.db.events = s.db.events) (locks : w'.phase.locks = w.phase.locks)
    (held : w'.phase.held = w.phase.held) : Custody t := by
  refine custody_set custody workers now ?_ ?_ member same ?_ ?_
  · rw [locks,events]
    exact custody.locked w member
  · rw [held,events]
    exact custody.held w member
  · rw [hands,hands,locks,held]
  · intro row stored _
    rw [events]
    exact stored
/-- The locked rows are marked and become the worker's copies. -/
theorem custody_claimed {began : Time} {events : List Event}
    (phase : w.phase = .claiming began events) (workers : t.workers = s.workers.upsert { w with phase := .working events })
    (now : t.now = s.now) (rows : t.db.events = markProcessing s.db.events (events.map Event.id) began) : Custody t := by
  have own : hands w.phase = events.map Event.id := by simp [hands,phase,Phase.locks,Phase.held,Phase.settling,Phase.due]
  have same : ({ w with phase := .working events } : OutboxWorker).id = w.id := rfl
  refine custody_set custody workers now ?_ ?_ member same ?_ ?_
  · exact forall_mem_nil _
  · intro event listed
    obtain ⟨row,stored,rfl,_⟩ := custody.locked w member event (by rw [phase]; exact listed)
    have hit : row.id ∈ events.map Event.id := mem_map.mpr ⟨_,listed,rfl⟩
    rw [rows]
    exact ⟨_,mem_markProcessing.mpr ⟨row,stored,rfl⟩,by rw [if_pos hit]; exact ⟨rfl,rfl,rfl,rfl,rfl⟩⟩
  · rw [own]
    exact .refl _
  · intro row stored outside
    rw [own] at outside
    rw [rows]
    exact (mem_markProcessing_of_miss outside).mpr stored
end
private theorem custody_start (config : Config) :
    Custody { s.set ⟨s.nextWorker,config,false,.idle⟩ with nextWorker := s.nextWorker+1 } :=
  custody_upsert custody rfl rfl (forall_mem_nil _) (forall_mem_nil _)
    nodup_nil (fun _ _ _ _ _ => not_mem_nil) (fun _ _ _ _ stored _ => stored)
/-- Every step keeps the custody. -/
theorem custody_step (effect : Effect s a t) : Custody t := by
  cases effect with
  | quiet => exact custody
  | stored new accepted => exact custody_stored custody accepted
  | passed elapsed =>
    refine ⟨custody.distinct,custody.apart,?_,custody.held⟩
    intro w member event among
    obtain ⟨row,stored,copy,meets⟩ := custody.locked w member event among
    exact ⟨row,stored,copy,eligible_later (le_later s.now elapsed) meets⟩
  | started config => exact custody_start custody config
  | stopped member => exact custody_keep custody member (by rfl) rfl rfl rfl rfl rfl
  | exited member | crashed member => exact custody_remove custody _
  | selected member idle selects => exact custody_select custody _ selects
  | claimed member phase => exact custody_claimed custody member phase rfl rfl rfl
  | @lost w began events message member phase =>
    refine custody_idle custody member rfl rfl (fun row stored outside => ?_)
    have miss : row.id ∉ events.map Event.id := by
      simpa [hands,phase,Phase.locks,Phase.held,Phase.settling,Phase.due] using outside
    exact (mem_markProcessing_of_miss miss).mpr stored
  | rolledBack member | returned member => exact custody_idle custody member rfl rfl (fun _ stored _ => stored)
  | accepted member phase => exact custody_keep custody member (by rfl) rfl rfl rfl (by rw [phase]; rfl) (by rw [phase]; rfl)
  | refused member phase => exact custody_keep custody member (by rfl) rfl rfl rfl (by rw [phase]; rfl) (by rw [phase]; rfl)
  | unrecorded member settling failed =>
    obtain ⟨event,holds⟩ := held_of_settling settling
    exact custody_settled custody member holds rfl rfl (fun _ stored _ => stored)
  | completed member phase =>
    exact custody_settled custody member (by rw [phase]; rfl) rfl rfl
      (fun _ stored other => (mem_markCompleted_of_miss other).mpr stored)
  | failed member phase =>
    exact custody_settled custody member (by rw [phase]; rfl) rfl rfl
      (fun _ stored other => (mem_handleFailure_of_miss other).mpr stored)
end

theorem custody_init : Custody init :=
  ⟨forall_mem_empty,forall_mem_empty,forall_mem_empty,forall_mem_empty⟩
/-- In every run, whatever fails, an event is with at most one worker, whose copy is the row's. -/
theorem custody_run {ok : State → Action → Prop} (run : Reach step ok init s) : Custody s :=
  run.invariant custody_init (fun custody _ stepped => custody_step custody (step_effect stepped))
theorem custody_run_two : ∃ s, Reach step Any init s ∧ s.workers.rows.map (fun w => hands w.phase) = [[],[1]] ∧ Custody s := by
  let event := newEvent 1 0 "" "" none none
  exact reach_seen [.store event,.start ⟨10,3,0⟩,.start ⟨10,3,0⟩,.select 1 [event],.commit 1 .done] (by decide +kernel) (along_any ..)
    (fun _ run _ => custody_run run)

end Stellabill.OutboxCustody
