import Stellabill.Keyed
import Stellabill.Transitions
import Stellabill.Uuid
import Mathlib.Data.List.Sort

/-!
The outbox tables and the statements of the PostgreSQL repository on them. Each
repository call is one statement or one transaction, so it is one function of
the tables.
-/
namespace Stellabill.Outbox
open Keyed Transitions Uuid

inductive Status
  | pending | processing | completed | failed
  deriving DecidableEq, Repr

structure Event where
  id : UUID
  tenantID : String
  eventType : String
  eventData : String
  aggregateID : Option String
  aggregateType : Option String
  occurredAt : Time
  status : Status
  retryCount : Int
  maxRetries : Int
  nextRetryAt : Option Time
  errorMessage : Option String
  createdAt : Time
  updatedAt : Time
  version : Int
  deduplicationID : Option String
  partition : Int
  deriving DecidableEq

/-- `NewEventWithDeduplication`, with the ID and the instant it draws and the encoded payload. -/
def newEventWithDeduplication (id : UUID) (now : Time) (eventType eventData : String)
    (aggregateID aggregateType deduplicationID : Option String) : Event where
  id := id
  tenantID := ""
  eventType := eventType
  eventData := eventData
  aggregateID := aggregateID
  aggregateType := aggregateType
  occurredAt := now
  status := .pending
  retryCount := 0
  maxRetries := 3
  nextRetryAt := none
  errorMessage := none
  createdAt := now
  updatedAt := now
  version := 1
  deduplicationID := deduplicationID
  partition := 0
def newEvent (id : UUID) (now : Time) (eventType eventData : String) (aggregateID aggregateType : Option String) : Event :=
  newEventWithDeduplication id now eventType eventData aggregateID aggregateType none

abbrev Events := Table Event.id

/-- `outbox_events` and `outbox_publisher_progress`, with at most one `last_event_id` for a publisher. -/
structure Tables where
  events : Events
  progress : String → Option UUID

def Tables.empty : Tables := ⟨.empty,fun _ => none⟩

/-- The columns the INSERT of `Store` writes: `partition` keeps its column default. -/
def inserted (event : Event) : Event := { event with partition := 0 }
section
variable (db : Tables)
/-- `Store`: refused on a taken ID and on a taken deduplication ID. -/
def store (event : Event) : Option Tables :=
  if event.deduplicationID.isSome ∧ ∃ row ∈ db.events.rows, row.deduplicationID = event.deduplicationID then none
  else (db.events.insert (inserted event)).map (fun events => { db with events })

/-- `scanEvent`: the selected columns of a row, which leave out `partition`. -/
def scanEvent (row : Event) : Event := { row with partition := 0 }
def pendingFor (publisher : String) (now : Time) (row : Event) : Bool :=
  (row.status = .pending ∨ (row.status = .failed ∧ row.nextRetryAt.any (fun due => due ≤ now))) ∧
    (db.progress publisher).all (fun last => last < row.id)
/-- `GetPendingEventsForPublisher`: the events above the mark, by ID; a negative LIMIT is refused. -/
def getPendingEventsForPublisher (publisher : String) (now : Time) (limit : Int) : Option (List Event) :=
  if limit < 0 then none
  else some ((((db.events.rows.filter (pendingFor db publisher now)).insertionSort (fun a b => a.id ≤ b.id)).take
    limit.toNat).map scanEvent)

def updateStatus (id : UUID) (status : Status) (errorMessage : Option String) (now : Time) : Tables :=
  { db with
    events := db.events.update (fun row => row.id = id)
      (fun row => { row with status, errorMessage, updatedAt := now }) (fun _ => rfl) }
/-- `RequeueEvent`: back to pending, if the event is failed. The table's trigger sets `updated_at`. -/
def requeueEvent (id : UUID) (now : Time) : Tables :=
  { db with
    events := db.events.update (fun row => row.id = id ∧ row.status = .failed)
      (fun row => { row with status := .pending, retryCount := 0, nextRetryAt := none, errorMessage := none, updatedAt := now })
      (fun _ => rfl) }
def deleteCompletedEvents (olderThan : Time) : Tables :=
  { db with events := db.events.delete (fun row => row.status = .completed ∧ row.updatedAt < olderThan) }

/-- `upsertPublisherProgress`: the mark moves up, never down. -/
def upsertPublisherProgress (publisher : String) (id : UUID) : Tables :=
  { db with
    progress := Function.update db.progress publisher
      (match db.progress publisher with
      | none => some id
      | some last => if last < id then some id else some last) }
/-- `publisherProgressReached`: every publisher's mark is at or above the event,
    compared by text. -/
def publisherProgressReached (id : UUID) (publishers : List String) : Bool :=
  publishers.all (fun publisher =>
    match db.progress publisher with
    | none => false
    | some last => ¬ string last < string id)
/-- `markPublished`, the body of the transaction of `MarkPublished`. -/
def markPublished (publisher : String) (event : Event) (publishers : List String) (now : Time) : Tables :=
  let db := upsertPublisherProgress db publisher event.id
  if publisherProgressReached db event.id publishers then updateStatus db event.id .completed none now else db

/-! ### What the statements do to the marks and the rows -/

/-- The publisher's mark is at or above the event. -/
def Passed (publisher : String) (id : UUID) : Prop := ∃ last ∈ db.progress publisher, id ≤ last
instance (publisher : String) (id : UUID) : Decidable (Passed db publisher id) :=
  decidable_of_iff ((db.progress publisher).any (fun last => id ≤ last)) (by
    cases mark : db.progress publisher <;> simp [Passed,mark])
def Stored (id : UUID) : Prop := ∃ row ∈ db.events, row.id = id
  deriving Decidable
def HasStatus (id : UUID) (status : Status) : Prop := ∃ row ∈ db.events, row.id = id ∧ row.status = status
  deriving Decidable

end

variable {db : Tables} {x : UUID} {y : Status} {now : Time} {db' : Tables} {event : Event} {id : UUID} {olderThan : Time}
  {status : Status} {message : Option String} {row : Event} {publisher other : String} {publishers : List String}

theorem not_passed_iff : ¬ Passed db publisher id ↔ ∀ last ∈ db.progress publisher, last < id := by
  simp [Passed]
theorem passed_upsert_iff : Passed (upsertPublisherProgress db publisher id) other x ↔ Passed db other x ∨ (other = publisher ∧ x ≤ id) := by
  by_cases same : other = publisher
  · subst same
    cases mark : db.progress other with
    | none => simp [Passed,upsertPublisherProgress,mark]
    | some last =>
      by_cases below : last < id
      · simp only [Passed,upsertPublisherProgress,mark,Function.update_self,below,if_true,Option.mem_def,Option.some.injEq,
          exists_eq_left',true_and]
        constructor
        · exact .inr
        · rintro (le | le)
          · exact le.trans below.le
          · exact le
      · simp only [Passed,upsertPublisherProgress,mark,Function.update_self,below,if_false,Option.mem_def,Option.some.injEq,
          exists_eq_left',true_and]
        constructor
        · exact .inl
        · rintro (le | le)
          · exact le
          · exact le.trans (not_lt.mp below)
  · simp [Passed,upsertPublisherProgress,same]
theorem reached_iff : publisherProgressReached db id publishers = true ↔ ∀ publisher ∈ publishers, Passed db publisher id := by
  simp only [publisherProgressReached,List.all_eq_true,Passed]
  refine forall₂_congr (fun publisher _ => ?_)
  cases db.progress publisher with
  | none => simp
  | some last => simp [string_lt_iff]

theorem store_some (stored : store db event = some db') :
    ¬ Stored db event.id ∧ db'.progress = db.progress ∧ ∀ row, row ∈ db'.events ↔ row ∈ db.events ∨ row = inserted event := by
  unfold store at stored
  split at stored
  · cases stored
  · obtain ⟨events,insertion,rfl⟩ := Option.map_eq_some_iff.mp stored
    obtain ⟨free,rows⟩ := Table.insert_some insertion
    exact ⟨fun ⟨row,member,same⟩ => free row member same,rfl,rows⟩
theorem mem_updateStatus : row ∈ (updateStatus db id status message now).events ↔
      ∃ row' ∈ db.events, row = if row'.id = id then { row' with status, errorMessage := message, updatedAt := now } else row' := by
  rw [updateStatus,Table.mem_update]
  simp only [decide_eq_true_eq]
theorem mem_requeueEvent : row ∈ (requeueEvent db id now).events ↔
      ∃ row' ∈ db.events, row = if row'.id = id ∧ row'.status = .failed then
        { row' with status := .pending, retryCount := 0, nextRetryAt := none, errorMessage := none, updatedAt := now }
        else row' := by
  rw [requeueEvent,Table.mem_update]
  simp only [decide_eq_true_eq]
theorem stored_update {cond : Event → Prop} [DecidablePred cond] {f : Event → Event}
    (update : ∀ row, row ∈ db'.events ↔ ∃ row' ∈ db.events, row = if cond row' then f row' else row') (keeps : ∀ row, (f row).id = row.id)
    (x : UUID) : Stored db' x ↔ Stored db x := by
  have same : ∀ row, (if cond row then f row else row).id = row.id := by
    intro row
    split
    · exact keeps row
    · rfl
  simp only [Stored,update]
  constructor
  · rintro ⟨row,⟨row',member,rfl⟩,rfl⟩
    exact ⟨row',member,(same row').symm⟩
  · rintro ⟨row,member,rfl⟩
    exact ⟨_,⟨row,member,rfl⟩,same row⟩
theorem stored_updateStatus : Stored (updateStatus db id status message now) x ↔ Stored db x :=
  stored_update (fun _ => mem_updateStatus) (fun _ => rfl) x
theorem stored_requeueEvent : Stored (requeueEvent db id now) x ↔ Stored db x :=
  stored_update (fun _ => mem_requeueEvent) (fun _ => rfl) x
theorem hasStatus_updateStatus (has : HasStatus (updateStatus db id status message now) x y) :
    HasStatus db x y ∨ (x = id ∧ y = status) := by
  obtain ⟨row,member,rfl,rfl⟩ := has
  obtain ⟨row',member',rfl⟩ := mem_updateStatus.mp member
  by_cases hit : row'.id = id
  · exact .inr (by simp [hit])
  · exact .inl ⟨row',member',by simp [hit],by simp [hit]⟩
theorem hasStatus_requeueEvent (has : HasStatus (requeueEvent db id now) x y) : HasStatus db x y ∨ y = .pending := by
  obtain ⟨row,member,rfl,rfl⟩ := has
  obtain ⟨row',member',rfl⟩ := mem_requeueEvent.mp member
  by_cases hit : row'.id = id ∧ row'.status = .failed
  · exact .inr (by simp [hit])
  · exact .inl ⟨row',member',by simp [hit],by simp [hit]⟩
theorem hasStatus_deleteCompletedEvents (has : HasStatus (deleteCompletedEvents db olderThan) x y) : HasStatus db x y := by
  obtain ⟨row,member,same⟩ := has
  exact ⟨row,(Table.mem_delete.mp member).1,same⟩
theorem stored_deleteCompletedEvents (stored : Stored (deleteCompletedEvents db olderThan) x) : Stored db x := by
  obtain ⟨row,member,same⟩ := stored
  exact ⟨row,(Table.mem_delete.mp member).1,same⟩
theorem passed_markPublished_iff : Passed (markPublished db publisher event publishers now) other x ↔
      Passed db other x ∨ (other = publisher ∧ x ≤ event.id) := by
  rw [← passed_upsert_iff,markPublished]
  split <;> rfl
theorem stored_markPublished : Stored (markPublished db publisher event publishers now) x ↔ Stored db x := by
  rw [markPublished]
  split
  · rw [stored_updateStatus]; rfl
  · rfl
theorem hasStatus_markPublished (has : HasStatus (markPublished db publisher event publishers now) x y) :
    HasStatus db x y ∨ (x = event.id ∧ y = .completed ∧
      ∀ other ∈ publishers, Passed db other x ∨ (other = publisher ∧ x ≤ event.id)) := by
  rw [markPublished] at has
  split at has
  · next reached =>
    rcases hasStatus_updateStatus has with before | ⟨rfl,rfl⟩
    · exact .inl before
    · refine .inr ⟨rfl,rfl,fun other listed => ?_⟩
      exact passed_upsert_iff.mp (reached_iff.mp reached other listed)
  · exact .inl has

/-- With a large enough limit the query returns a stored event exactly when it meets the WHERE clause. -/
theorem returned_iff (db : Tables) (publisher : String) (now : Time) {row : Event} (member : row ∈ db.events) :
    (∃ N : Int, ∀ n ≥ N, ∃ batch, getPendingEventsForPublisher db publisher now n = some batch ∧ scanEvent row ∈ batch) ↔
      pendingFor db publisher now row = true := by
  constructor
  · rintro ⟨N,returned⟩
    obtain ⟨batch,query,listed⟩ := returned N le_rfl
    unfold getPendingEventsForPublisher at query
    split at query <;> cases query
    obtain ⟨row',taken,same⟩ := List.mem_map.mp listed
    have chosen := (List.mem_insertionSort _).mp (List.mem_of_mem_take taken)
    rw [List.mem_filter] at chosen
    have equal : row' = row := db.events.eq_of_key chosen.1 member
      (show (scanEvent row').id = (scanEvent row).id by rw [same])
    rw [← equal]
    exact chosen.2
  · intro due
    let found := (db.events.rows.filter (pendingFor db publisher now)).insertionSort (fun a b => a.id ≤ b.id)
    refine ⟨found.length,fun n large => ⟨found.map scanEvent,?_,?_⟩⟩
    · rw [getPendingEventsForPublisher,if_neg (by omega),List.take_of_length_le (show found.length ≤ n.toNat by omega)]
    · exact List.mem_map_of_mem ((List.mem_insertionSort _).mpr (List.mem_filter.mpr ⟨member,due⟩))

end Stellabill.Outbox
