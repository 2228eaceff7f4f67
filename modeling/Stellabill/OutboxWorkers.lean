import Stellabill.Batches
import Stellabill.Outbox
import Stellabill.Program

/-!
Outbox workers on one `outbox_events` table. A worker claims a batch in a transaction
that locks the rows and marks them as processing, publishes the events one by one and
records each outcome. The statements of all workers interleave, and any may crash.
-/
namespace Stellabill.OutboxWorkers
open Keyed Transitions Uuid Outbox Program Batches Table

structure Config where
  batchSize : Int
  maxRetries : Int
  retryBackoffBase : Time
  deriving DecidableEq, Repr

/-- Where `poll` stands: not polling, before the commit of a claim, before the next event, before the update after a publish. -/
inductive Phase
  | idle
  | claiming (began : Time) (events : List Event)
  | working (events : List Event)
  | completing (event : Event) (rest : List Event)
  | failing (event : Event) (message : String) (rest : List Event)
  deriving DecidableEq
structure OutboxWorker where
  id : Nat
  config : Config
  cancelled : Bool
  phase : Phase
  deriving DecidableEq

/-- The clock, the tables, the workers, and the IDs returned by `claimBatch`, passed to `Publish` and dead-lettered. -/
structure State where
  now : Time
  db : Tables
  workers : Table OutboxWorker.id
  nextWorker : Nat
  claimed : List UUID
  published : List UUID
  deadLettered : List UUID

def init : State := ⟨0,.empty,.empty,0,[],[],[]⟩

inductive Action
  | store (event : Event)
  | advance (elapsed : Nat)
  | start (config : Config)
  | stop (worker : Nat)
  | exit (worker : Nat)
  | crash (worker : Nat)
  | select (worker : Nat) (rows : List Event)
  | commit (worker : Nat) (reply : Reply)
  | publish (worker : Nat) (error : Option String)
  | update (worker : Nat) (reply : Reply)
  deriving DecidableEq

def Phase.proceed : List Event → Phase
  | [] => .idle
  | events => .working events
def Phase.locks : Phase → List Event
  | .claiming _ events => events
  | _ => []
def Phase.due : Phase → List Event
  | .working events => events
  | .completing _ rest | .failing _ _ rest => rest
  | _ => []
/-- The published event whose outcome the worker has yet to record. -/
def Phase.settling : Phase → List Event
  | .completing event _ | .failing event _ _ => [event]
  | _ => []
/-- The claimed events that the worker is not done with. -/
def Phase.held (phase : Phase) : List Event := phase.settling ++ phase.due

def State.set (s : State) (w : OutboxWorker) : State := { s with workers := s.workers.upsert w }
def State.remove (s : State) (id : Nat) : State := { s with workers := s.workers.delete (fun w => w.id = id) }

def scanOutboxEvent (row : Event) : Event := { row with tenantID := "", deduplicationID := none, partition := 0 }
def eligible (now : Time) (row : Event) : Bool :=
  row.status = .pending ∨ (row.status = .failed ∧ row.nextRetryAt.any (fun due => due ≤ now))
/-- SKIP LOCKED: a row that no other claim has locked. -/
def claimable (s : State) (row : Event) : Bool :=
  eligible s.now row ∧ ∀ w ∈ s.workers.rows, row.id ∉ w.phase.locks.map Event.id
/-- A row as a claim marks it, with the instant at which its transaction began. -/
def processing (began : Time) (row : Event) : Event := { row with status := .processing, updatedAt := began }
theorem processing_id (began : Time) (row : Event) : (processing began row).id = row.id := rfl
def markProcessing (events : Events) (ids : List UUID) (began : Time) : Events :=
  mark events ids (processing began) (processing_id began)
section
variable (s : State) (w : OutboxWorker)
def select (rows : List Event) : State :=
  if rows.isEmpty then s else s.set { w with phase := .claiming s.now (rows.map scanOutboxEvent) }
/-- The rest of `claimBatch`. The transaction of a cancelled context is rolled back. -/
def commit (began : Time) (events : List Event) (reply : Reply) : State :=
  let ids := events.map Event.id
  if w.cancelled then s.set { w with phase := .idle }
  else match reply with
    | .done =>
      { s.set { w with phase := .working events } with
        db := { s.db with events := markProcessing s.db.events ids began }
        claimed := ids ++ s.claimed }
    | .lost _ =>
      { s.set { w with phase := .idle } with db := { s.db with events := markProcessing s.db.events ids began } }
    | .failed _ => s.set { w with phase := .idle }

/-- The next event of the batch is published, unless the context is cancelled. -/
def publish (event : Event) (rest : List Event) (error : Option String) : State :=
  if w.cancelled then s.set { w with phase := .idle }
  else
    let phase := match error with
      | none => .completing event rest
      | some message => .failing event message rest
    { s.set { w with phase } with published := event.id :: s.published }
def markCompleted (events : Events) (event : Event) (now : Time) : Events :=
  events.update (fun row => row.id = event.id) (fun row => { row with status := .completed, updatedAt := now }) (fun _ => rfl)

/-- `time.Duration(math.Pow(2, float64(exponent)))`; on amd64 too large a float converts to the least int64. -/
def powDuration (exponent : Int) : Time :=
  if exponent < 0 then 0 else if exponent < 63 then 2^exponent.toNat else -2^63
/-- The wait before the next retry, with the overflow of the product. -/
def backoff (cfg : Config) (retryCount : Int) : Time := (cfg.retryBackoffBase * powDuration (retryCount-1)).bmod (2^64)
def exhausted (cfg : Config) (event : Event) : Bool :=
  event.retryCount+1 ≥ event.maxRetries ∨ event.retryCount+1 ≥ cfg.maxRetries
/-- The UPDATE of `handleFailure`: a dead letter keeps the `next_retry_at` of its row. -/
def handleFailure (cfg : Config) (events : Events) (event : Event) (message : String) (now : Time) : Events :=
  let retryCount := event.retryCount+1
  if exhausted cfg event then
    -- `next_retry_at` is not in the SET clause.
    events.update (fun row => row.id = event.id)
      (fun row => { row with status := .failed, retryCount, errorMessage := some message, updatedAt := now }) (fun _ => rfl)
  else
    events.update (fun row => row.id = event.id)
      (fun row => { row with
        status := .failed
        retryCount
        nextRetryAt := some (now + backoff cfg retryCount)
        errorMessage := some message
        updatedAt := now }) (fun _ => rfl)

def complete (event : Event) (rest : List Event) (reply : Reply) : State :=
  let s := s.set { w with phase := .proceed rest }
  if reply.effective then { s with db := { s.db with events := markCompleted s.db.events event s.now } } else s
def fail (event : Event) (message : String) (rest : List Event) (reply : Reply) : State :=
  let s := s.set { w with phase := .proceed rest }
  if reply.effective then
    { s with
      db := { s.db with events := handleFailure w.config s.db.events event message s.now }
      deadLettered := if exhausted w.config event then event.id :: s.deadLettered else s.deadLettered }
  else s
end

/-- One step; none where the code cannot take it. A refused INSERT leaves the tables as they are. -/
def step (s : State) : Action → Option State
  | .store event =>
    if event.status = .pending ∨ event.status = .failed then some { s with db := (store s.db event).getD s.db } else none
  | .advance elapsed => some { s with now := s.now+elapsed }
  | .start config => some { s.set ⟨s.nextWorker,config,false,.idle⟩ with nextWorker := s.nextWorker+1 }
  | .stop id => (s.workers.find id).map (fun w => s.set { w with cancelled := true })
  | .exit id => (s.workers.find id).bind (fun w => if w.phase = .idle ∧ w.cancelled then some (s.remove id) else none)
  | .crash id => (s.workers.find id).map (fun _ => s.remove id)
  | .select id rows =>
    (s.workers.find id).bind (fun w =>
      if w.phase = .idle ∧ w.cancelled = false ∧
          Selects s.db.events (claimable s) Event.occurredAt w.config.batchSize.toNat rows then
        some (select s w rows)
      else none)
  | .commit id reply =>
    (s.workers.find id).bind (fun w =>
      match w.phase with
      | .claiming began events => some (commit s w began events reply)
      | _ => none)
  | .publish id error =>
    (s.workers.find id).bind (fun w =>
      match w.phase with
      | .working (event :: rest) => some (publish s w event rest error)
      | _ => none)
  | .update id reply =>
    (s.workers.find id).bind (fun w =>
      match w.phase with
      | .completing event rest => some (complete s w event rest reply)
      | .failing event message rest => some (fail s w event message rest reply)
      | _ => none)

/-! ### What the statements do to the rows -/

theorem held_proceed (events : List Event) : (Phase.proceed events).held = events := by
  cases events <;> rfl
theorem locks_proceed (events : List Event) : (Phase.proceed events).locks = [] := by
  cases events <;> rfl

variable {events : Events} {began now : Time} {row event : Event} {message : String} {s : State} {w : OutboxWorker} {rest : List Event}
  {ids : List UUID} {cfg : Config} {t : State} {a : Action}

theorem mem_markProcessing :
    row ∈ markProcessing events ids began ↔
      ∃ row' ∈ events, row = if row'.id ∈ ids then processing began row' else row' :=
  mem_mark
theorem mem_markCompleted :
    row ∈ markCompleted events event now ↔
      ∃ row' ∈ events, row = if row'.id = event.id then { row' with status := .completed, updatedAt := now } else row' := by
  rw [markCompleted,mem_update]
  simp only [decide_eq_true_eq]
theorem mem_handleFailure :
    row ∈ handleFailure cfg events event message now ↔
      ∃ row' ∈ events, row = if row'.id = event.id then
        { row' with
          status := .failed
          retryCount := event.retryCount+1
          nextRetryAt := if exhausted cfg event then row'.nextRetryAt else some (now + backoff cfg (event.retryCount+1))
          errorMessage := some message
          updatedAt := now }
        else row' := by
  unfold handleFailure
  split
  · rw [mem_update]
    simp only [decide_eq_true_eq]
  · rw [mem_update]
    simp only [decide_eq_true_eq]

theorem mem_markProcessing_of_miss (miss : row.id ∉ ids) : row ∈ markProcessing events ids began ↔ row ∈ events := by
  unfold markProcessing mark
  exact mem_update_of_miss (fun row' same => by simp [same,miss])
theorem mem_markCompleted_of_miss (miss : row.id ≠ event.id) : row ∈ markCompleted events event now ↔ row ∈ events :=
  mem_update_of_miss (fun row' same => by simp [same,miss])
theorem mem_handleFailure_of_miss (miss : row.id ≠ event.id) : row ∈ handleFailure cfg events event message now ↔ row ∈ events := by
  unfold handleFailure
  split
  · exact mem_update_of_miss (fun row' same => by simp [same,miss])
  · exact mem_update_of_miss (fun row' same => by simp [same,miss])

inductive Effect (s : State) : Action → State → Prop
  | quiet {a : Action} : Effect s a s
  | stored {event : Event} {db : Tables} (new : event.status = .pending ∨ event.status = .failed)
    (accepted : store s.db event = some db) : Effect s (.store event) { s with db }
  | passed (elapsed : Nat) : Effect s (.advance elapsed) { s with now := s.now+elapsed }
  | started (config : Config) :
    Effect s (.start config) { s.set ⟨s.nextWorker,config,false,.idle⟩ with nextWorker := s.nextWorker+1 }
  | stopped {w : OutboxWorker} (member : w ∈ s.workers) : Effect s (.stop w.id) (s.set { w with cancelled := true })
  | exited {w : OutboxWorker} (member : w ∈ s.workers) (idle : w.phase = .idle) : Effect s (.exit w.id) (s.remove w.id)
  | crashed {w : OutboxWorker} (member : w ∈ s.workers) : Effect s (.crash w.id) (s.remove w.id)
  | selected {w : OutboxWorker} {rows : List Event} (member : w ∈ s.workers) (idle : w.phase = .idle)
    (selects : Selects s.db.events (claimable s) Event.occurredAt w.config.batchSize.toNat rows) :
    Effect s (.select w.id rows) (s.set { w with phase := .claiming s.now (rows.map scanOutboxEvent) })
  | claimed {w : OutboxWorker} {began : Time} {events : List Event} (member : w ∈ s.workers)
    (phase : w.phase = .claiming began events) :
    Effect s (.commit w.id .done) { s.set { w with phase := .working events } with
      db := { s.db with events := markProcessing s.db.events (events.map Event.id) began }
      claimed := events.map Event.id ++ s.claimed }
  | lost {w : OutboxWorker} {began : Time} {events : List Event} {message : String} (member : w ∈ s.workers)
    (phase : w.phase = .claiming began events) :
    Effect s (.commit w.id (.lost message)) { s.set { w with phase := .idle } with
      db := { s.db with events := markProcessing s.db.events (events.map Event.id) began } }
  | rolledBack {w : OutboxWorker} {began : Time} {events : List Event} {reply : Reply} (member : w ∈ s.workers)
    (phase : w.phase = .claiming began events) : Effect s (.commit w.id reply) (s.set { w with phase := .idle })
  | returned {w : OutboxWorker} {events : List Event} {error : Option String} (member : w ∈ s.workers)
    (phase : w.phase = .working events) (cancelled : w.cancelled = true) :
    Effect s (.publish w.id error) (s.set { w with phase := .idle })
  | accepted {w : OutboxWorker} {event : Event} {rest : List Event} (member : w ∈ s.workers)
    (phase : w.phase = .working (event :: rest)) :
    Effect s (.publish w.id none) { s.set { w with phase := .completing event rest } with published := event.id :: s.published }
  | refused {w : OutboxWorker} {event : Event} {rest : List Event} {message : String} (member : w ∈ s.workers)
    (phase : w.phase = .working (event :: rest)) :
    Effect s (.publish w.id (some message)) { s.set { w with phase := .failing event message rest } with
      published := event.id :: s.published }
  | unrecorded {w : OutboxWorker} {reply : Reply} (member : w ∈ s.workers) (settling : w.phase.settling ≠ [])
    (failed : reply.effective = false) :
    Effect s (.update w.id reply) (s.set { w with phase := .proceed w.phase.due })
  | completed {w : OutboxWorker} {event : Event} {rest : List Event} {reply : Reply} (member : w ∈ s.workers)
    (phase : w.phase = .completing event rest) :
    Effect s (.update w.id reply) { s.set { w with phase := .proceed rest } with
      db := { s.db with events := markCompleted s.db.events event s.now } }
  | failed {w : OutboxWorker} {event : Event} {message : String} {rest : List Event} {reply : Reply} (member : w ∈ s.workers)
    (phase : w.phase = .failing event message rest) :
    Effect s (.update w.id reply) { s.set { w with phase := .proceed rest } with
      db := { s.db with events := handleFailure w.config s.db.events event message s.now }
      deadLettered := if exhausted w.config event then event.id :: s.deadLettered else s.deadLettered }

section
variable (member : w ∈ s.workers)
include member
theorem commit_effect {events : List Event} (reply : Reply) (phase : w.phase = .claiming began events) :
    Effect s (.commit w.id reply) (commit s w began events reply) := by
  unfold commit
  split
  · exact .rolledBack member phase
  · cases reply with
    | done => exact .claimed member phase
    | failed message => exact .rolledBack member phase
    | lost message => exact .lost member phase
theorem publish_effect (error : Option String) (phase : w.phase = .working (event :: rest)) :
    Effect s (.publish w.id error) (publish s w event rest error) := by
  unfold publish
  split
  · next cancelled => exact .returned member phase cancelled
  · cases error with
    | none => exact .accepted member phase
    | some message => exact .refused member phase
private theorem complete_effect (reply : Reply) (phase : w.phase = .completing event rest) :
    Effect s (.update w.id reply) (complete s w event rest reply) := by
  cases effective : reply.effective with
  | true => simp only [complete,effective,if_true]; exact .completed member phase
  | false =>
    have unrecorded := Effect.unrecorded member (by simp [phase,Phase.settling]) effective
    simpa [complete,effective,phase,Phase.due] using unrecorded
private theorem fail_effect (reply : Reply) (phase : w.phase = .failing event message rest) :
    Effect s (.update w.id reply) (fail s w event message rest reply) := by
  cases effective : reply.effective with
  | true => simp only [fail,effective,if_true]; exact .failed member phase
  | false =>
    have unrecorded := Effect.unrecorded member (by simp [phase,Phase.settling]) effective
    simpa [fail,effective,phase,Phase.due] using unrecorded
end
theorem step_effect (stepped : step s a = some t) : Effect s a t := by
  cases a with
  | store event =>
    obtain ⟨new,rfl⟩ := guarded stepped
    cases accepted : store s.db event with
    | none => exact .quiet
    | some db => exact .stored new accepted
  | advance elapsed => cases stepped; exact .passed elapsed
  | start config => cases stepped; exact .started config
  | stop id =>
    obtain ⟨w,found,rfl⟩ := Option.map_eq_some_iff.mp stepped
    obtain ⟨member,rfl⟩ := s.workers.find_some.mp found
    exact .stopped member
  | exit id =>
    obtain ⟨w,member,rfl,took⟩ := s.workers.find_bind stepped
    obtain ⟨ends,rfl⟩ := guarded took
    exact .exited member ends.1
  | crash id =>
    obtain ⟨w,found,rfl⟩ := Option.map_eq_some_iff.mp stepped
    obtain ⟨member,rfl⟩ := s.workers.find_some.mp found
    exact .crashed member
  | select id rows =>
    obtain ⟨w,member,rfl,took⟩ := s.workers.find_bind stepped
    obtain ⟨may,rfl⟩ := guarded took
    unfold select
    split
    · exact .quiet
    · exact .selected member may.1 may.2.2
  | commit id reply =>
    obtain ⟨w,member,rfl,took⟩ := s.workers.find_bind stepped
    split at took <;> cases took
    next phase => exact commit_effect member reply phase
  | publish id error =>
    obtain ⟨w,member,rfl,took⟩ := s.workers.find_bind stepped
    split at took <;> cases took
    next phase => exact publish_effect member error phase
  | update id reply =>
    obtain ⟨w,member,rfl,took⟩ := s.workers.find_bind stepped
    split at took
    · next phase => cases took; exact complete_effect member reply phase
    · next phase => cases took; exact fail_effect member reply phase
    · cases took

def Fresh (s : State) : Prop := ∀ w ∈ s.workers, w.id < s.nextWorker

theorem fresh_init : Fresh init := forall_mem_empty
private theorem fresh_set (fresh : Fresh s) {w' : OutboxWorker} (member : w ∈ s.workers) (same : w'.id = w.id) :
    ∀ other ∈ s.workers.upsert w', other.id < s.nextWorker := by
  intro other listed
  rcases mem_upsert.mp listed with rfl | ⟨old,_⟩
  · exact same ▸ fresh w member
  · exact fresh other old
theorem fresh_step (fresh : Fresh s) (effect : Effect s a t) : Fresh t := by
  cases effect with
  | quiet | stored | passed => exact fresh
  | started config =>
    intro w listed
    rcases mem_upsert.mp listed with rfl | ⟨old,_⟩
    · exact Nat.lt_succ_self _
    · exact Nat.lt_succ_of_lt (fresh w old)
  | exited member | crashed member => exact fun other listed => fresh other (mem_delete.mp listed).1
  | stopped member | selected member | claimed member | lost member | rolledBack member | returned member | accepted member
  | refused member | unrecorded member | completed member | failed member => exact fresh_set fresh member rfl

end Stellabill.OutboxWorkers
