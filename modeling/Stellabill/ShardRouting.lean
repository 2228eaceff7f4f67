import Stellabill.HashRing
import Stellabill.OutboxService

/-!
How events get from a sharded service to the instance that owns their shard. Both
repositories have to carry the tenant's partition through the `partition` column.
-/
namespace Stellabill.ShardRouting
open Keyed Transitions Uuid Outbox Transaction List
open HashRing OutboxService
open Program (Reply)
universe u

/-- The two implementations of the repository: on `database/sql` and on pgx. -/
inductive Repository
  | postgres | pgx
  deriving DecidableEq, Repr

/-- A row as `scanEvent` of the repository reads it: the first one does not select `partition`. -/
def Repository.read : Repository → Event → Event
  | .postgres, row => scanEvent row
  | .pgx, row => row

def pending (now : Time) (row : Event) : Bool :=
  row.status = .pending ∨ (row.status = .failed ∧ row.nextRetryAt.any (fun due => due ≤ now))
/-- The rows that meet the condition, by `occurred_at`. PostgreSQL refuses a negative LIMIT. -/
def select (db : Tables) (cond : Event → Bool) (limit : Int) : Option (List Event) :=
  if limit < 0 then none
  else some (((db.events.rows.filter cond).insertionSort (fun a b => a.occurredAt ≤ b.occurredAt)).take limit.toNat)
def Repository.getPendingEvents (repository : Repository) (db : Tables) (now : Time) (limit : Int) : Option (List Event) :=
  (select db (pending now) limit).map (List.map repository.read)
/-- `GetPendingEventsForShards`, which only the second repository has. -/
def getPendingEventsForShards (db : Tables) (shards : List Int) (now : Time) (limit : Int) : Option (List Event) :=
  if shards.isEmpty then Repository.pgx.getPendingEvents db now limit
  else select db (fun row => row.partition ∈ shards ∧ pending now row) limit

def filterShards (batchSize : Int) (shards : List Int) : List Event → List Event → List Event
  | filtered, [] => filtered
  | filtered, e :: rest =>
    let filtered := if e.partition ∈ shards then filtered ++ [e] else filtered
    if filtered.length ≥ batchSize then filtered else filterShards batchSize shards filtered rest
def Repository.fetchEvents (repository : Repository) (batchSize : Int) (db : Tables) (shards : List Int) (now : Time) :
    Option (List Event) :=
  match repository with
  | .pgx => getPendingEventsForShards db shards now batchSize
  | .postgres =>
    (Repository.postgres.getPendingEvents db now (batchSize*shards.length)).map (filterShards batchSize shards [])

/-- The ring that `NewService` makes for a positive number of shards. -/
def serviceRing (shardCount : Int) : Option ConsistentHashRing :=
  if shardCount > 0 then some (newConsistentHashRing fnv32a shardCount 150) else none
/-- The partition of the tenant, for a service with that many shards. -/
def partitionOf (shardCount : Int) (tenantID : String) : Int :=
  (newConsistentHashRing fnv32a shardCount 150).getPartition fnv32a tenantID
def withPartition (ring : Option ConsistentHashRing) (event : Event) : Event :=
  match ring with
  | some r => if event.tenantID ≠ "" then { event with partition := r.getPartition fnv32a event.tenantID } else event
  | none => event

variable {Business : Type u}

def publishEvent (shardCount : Int) (db : Database (Tables × Business)) (request : Request) (begins inserts commits : Reply) :
    Ended Business :=
  match buildEvent request none with
  | .error message => ⟨some ("failed to create event: " ++ message),none,db⟩
  | .ok event =>
    let ended := newService.storeEventInTransaction db (withPartition (serviceRing shardCount) event) begins inserts commits
    { ended with error := ended.error.map (fun message => "failed to store event: " ++ message) }

section
variable (repository : Repository)
/-- With a large enough batch size the event is among those that `fetchEvents` returns. -/
def Fetched (db : Tables) (shards : List Int) (now : Time) (id : UUID) : Prop :=
  ∃ N : Int, ∀ n ≥ N, ∃ batch, repository.fetchEvents n db shards now = some batch ∧ ∃ e ∈ batch, e.id = id

private theorem select_large (db : Tables) (cond : Event → Bool) {limit : Int} (large : db.events.rows.length ≤ limit) :
    ∃ rows, select db cond limit = some rows ∧ rows.length ≤ db.events.rows.length ∧
      ∀ row, row ∈ rows ↔ row ∈ db.events ∧ cond row = true := by
  let found := (db.events.rows.filter cond).insertionSort (fun a b => a.occurredAt ≤ b.occurredAt)
  have short : found.length ≤ db.events.rows.length := by
    rw [length_insertionSort]
    exact length_filter_le ..
  refine ⟨found,?_,short,?_⟩
  · rw [select,if_neg (by omega),take_of_length_le (show found.length ≤ limit.toNat by omega)]
  · intro row
    rw [mem_insertionSort,mem_filter]
    rfl
private theorem filterShards_large {batchSize : Int} (shards : List Int) (events : List Event) : ∀ filtered : List Event,
    filtered.length+events.length < batchSize →
    filterShards batchSize shards filtered events = filtered ++ events.filter (fun e => e.partition ∈ shards) := by
  induction events with
  | nil => simp [filterShards]
  | cons e rest ih =>
    intro filtered large
    rw [length_cons] at large
    simp only [filterShards]
    by_cases owned : e.partition ∈ shards
    · rw [if_pos owned,if_neg (by simp only [length_append,length_singleton]; omega),
        ih _ (by simp only [length_append,length_singleton]; omega)]
      simp [owned]
    · rw [if_neg owned,if_neg (by omega),ih _ (by omega)]
      simp [owned]
theorem fetchEvents_large (db : Tables) (shards : List Int) (now : Time) {n : Int}
    (large : db.events.rows.length < n) : ∃ batch, repository.fetchEvents n db shards now = some batch ∧
      ∀ e, e ∈ batch ↔ ∃ row ∈ db.events, pending now row = true ∧ e = repository.read row ∧
        (e.partition ∈ shards ∨ (repository = .pgx ∧ shards = [])) := by
  cases repository with
  | pgx =>
    cases shards with
    | nil =>
      obtain ⟨rows,selected,_,members⟩ := select_large db (pending now) large.le
      refine ⟨rows,?_,?_⟩
      · show (select db (pending now) n).map (List.map Repository.pgx.read) = some rows
        rw [selected]
        exact congrArg some (map_id rows)
      · simp [members,Repository.read]
    | cons shard others =>
      obtain ⟨rows,selected,_,members⟩ :=
        select_large db (fun row => row.partition ∈ shard :: others ∧ pending now row) large.le
      refine ⟨rows,by exact selected,?_⟩
      intro e
      rw [members]
      simp only [Repository.read,decide_eq_true_eq]
      constructor
      · rintro ⟨member,owned,due⟩
        exact ⟨e,member,due,rfl,.inl owned⟩
      · rintro ⟨row,member,due,rfl,owned | ⟨_,impossible⟩⟩
        · exact ⟨member,owned,due⟩
        · cases impossible
  | postgres =>
    cases shards with
    | nil =>
      simp [Repository.fetchEvents,Repository.getPendingEvents,select,filterShards]
    | cons shard others =>
      have more : (db.events.rows.length : Int) ≤ n*((shard :: others).length : Int) := by
        rw [length_cons,Nat.cast_succ,mul_add]
        have : 0 ≤ n*(others.length : Int) := mul_nonneg (by omega) (by omega)
        omega
      obtain ⟨rows,selected,short,members⟩ := select_large db (pending now) more
      refine ⟨filterShards n (shard :: others) [] (rows.map scanEvent),?_,?_⟩
      · simp only [Repository.fetchEvents,Repository.getPendingEvents]
        rw [selected]
        rfl
      · intro e
        rw [filterShards_large _ _ _ (by simp only [length_nil,length_map]; omega),nil_append,mem_filter,mem_map]
        constructor
        · rintro ⟨⟨row,member,rfl⟩,owned⟩
          exact ⟨row,((members row).mp member).1,((members row).mp member).2,rfl,.inl (by simpa using owned)⟩
        · rintro ⟨row,member,due,rfl,owned | ⟨impossible,_⟩⟩
          · exact ⟨⟨row,(members row).mpr ⟨member,due⟩,rfl⟩,by simpa using owned⟩
          · cases impossible
theorem read_id (row : Event) : (repository.read row).id = row.id := by
  cases repository <;> rfl
end

variable {db : Tables} {event : Event} {request : Request}

section
variable (repository : Repository) (shards : List Int)
/-- A stored event is fetched when it is due and the partition read for it is one of the shards. -/
theorem fetched_iff (now : Time) {row : Event} (member : row ∈ db.events) : Fetched repository db shards now row.id ↔
      pending now row = true ∧ ((repository.read row).partition ∈ shards ∨ (repository = .pgx ∧ shards = [])) := by
  constructor
  · rintro ⟨N,returned⟩
    obtain ⟨batch,fetched,e,listed,same⟩ := returned (max N (db.events.rows.length+1)) (le_max_left ..)
    obtain ⟨batch',fetched',members⟩ := fetchEvents_large repository db shards now
      (show (db.events.rows.length : Int) < max N (db.events.rows.length+1) by omega)
    rw [fetched] at fetched'
    cases fetched'
    obtain ⟨row',member',due,rfl,owned⟩ := (members e).mp listed
    rw [read_id] at same
    obtain rfl : row' = row := db.events.eq_of_key member' member same
    exact ⟨due,owned⟩
  · rintro ⟨due,owned⟩
    refine ⟨db.events.rows.length+1,fun n large => ?_⟩
    obtain ⟨batch,fetched,members⟩ := fetchEvents_large repository db shards now (show (db.events.rows.length : Int) < n by omega)
    exact ⟨batch,fetched,_,(members _).mpr ⟨row,member,due,rfl,owned⟩,read_id repository row⟩

/-! ### Publishing -/

theorem store_row {db : Database (Tables × Business)} {reply : Reply} (silent : (newService.store db event reply).1 = none) :
    inserted event ∈ (newService.store db event reply).2.durable.1.events := by
  have effective := ((store_error db event reply).mp silent).1.1
  obtain ⟨tables,insertion⟩ := Option.isSome_iff_exists.mp ((store_error db event reply).mp silent).1.2
  have rows := (store_some insertion).2.2
  simpa [newService,Service.store,exec,insertEvent,effective,insertion] using (rows (inserted event)).mpr (.inr rfl)
theorem storeEventInTransaction_row {db : Database (Tables × Business)} {begins inserts commits : Reply}
    (silent : (newService.storeEventInTransaction db event begins inserts commits).error = none) :
    inserted event ∈ (newService.storeEventInTransaction db event begins inserts commits).db.durable.1.events := by
  cases opening : begin db begins with
  | mk result opened =>
    cases result with
    | error message => simp [Service.storeEventInTransaction,opening] at silent
    | ok id =>
      obtain ⟨_,_,_,here,_⟩ := begin_ok opening
      have stored := @store_row _ event opened inserts
      have txs := store_txs opened event inserts
      simp only [Service.storeEventInTransaction,opening] at silent ⊢
      generalize newService.store opened event inserts = outcome at stored txs silent ⊢
      obtain ⟨failure,between⟩ := outcome
      cases failure with
      | some message => cases silent
      | none =>
        have kept := (commit_idle (txs ▸ here) commits).1
        dsimp only at silent ⊢
        generalize commit between id commits = outcome at kept silent ⊢
        obtain ⟨failure,closed⟩ := outcome
        cases failure with
        | some message => cases silent
        | none =>
          show inserted event ∈ closed.durable.1.events
          rw [show closed.durable = between.durable from kept]
          exact stored rfl

/-- A new event is due exactly when it is pending: one that is built as failed has no retry time. -/
theorem built_pending (built : buildEvent request none = .ok event) (now : Time) :
    pending now event = true ↔ event.status = .pending := by
  unfold buildEvent at built
  split at built <;> cases built <;> simp [pending,newEventWithDeduplication]
theorem withPartition_row (ring : Option ConsistentHashRing) (event : Event) : inserted (withPartition ring event) = inserted event := by
  unfold withPartition
  split
  · split <;> rfl
  · rfl
/-- The row is pending, and shard 0 is owned; the query of the second repository for no shards returns everything. -/
def FetchedBy (event : Event) : Prop :=
  event.status = .pending ∧ (0 ∈ shards ∨ (repository = .pgx ∧ shards = []))

theorem fetched_inserted (now : Time) (built : buildEvent request none = .ok event) (member : inserted event ∈ db.events) :
    Fetched repository db shards now event.id ↔ FetchedBy repository shards event := by
  have due : pending now (inserted event) = true ↔ event.status = .pending := built_pending built now
  have zero : (repository.read (inserted event)).partition = 0 := by cases repository <;> rfl
  rw [show event.id = (inserted event).id from rfl,fetched_iff repository shards now member,due,zero,FetchedBy]
end

/-- An event published for a tenant is fetched exactly by the owners of the tenant's partition if and only if these own
    shard 0, where the event ends up; one that was built as failed is fetched nowhere. -/
theorem fetched_iff_owned (shardCount : Int) (repository : Repository) (shards : List Int) (now : Time)
    (db : Database (Tables × Business)) {request : Request} {event : Event} (built : buildEvent request none = .ok event) :
    (∀ begins inserts commits : Reply,
      let ended := publishEvent shardCount db request begins inserts commits
      ended.error = none →
        ((Fetched repository ended.db.durable.1 shards now event.id ↔ partitionOf shardCount event.tenantID ∈ shards) ↔
          (FetchedBy repository shards event ↔ partitionOf shardCount event.tenantID ∈ shards))) ∧
    ∀ (tx : Nat) (reply : Reply),
      let published := newService.publishEventWithTx db tx request reply
      published.1.toOption.isSome →
        ((Fetched repository published.2.durable.1 shards now event.id ↔ partitionOf shardCount event.tenantID ∈ shards) ↔
          (FetchedBy repository shards event ↔ partitionOf shardCount event.tenantID ∈ shards)) := by
  constructor
  · intro begins inserts commits ended silent
    simp only [ended,publishEvent,built] at silent ⊢
    have member := storeEventInTransaction_row (Option.map_eq_none_iff.mp silent)
    rw [withPartition_row] at member
    rw [fetched_inserted repository shards now built member]
  · intro tx reply published succeeded
    have member : inserted event ∈ published.2.durable.1.events := by
      simp only [published,Service.publishEventWithTx,built] at succeeded ⊢
      cases stored : newService.store db event reply with
      | mk failure after =>
        cases failure with
        | some message => simp [stored,Except.toOption] at succeeded
        | none =>
          have row := @store_row _ event db reply (by rw [stored])
          rw [stored] at row
          exact row
    rw [fetched_inserted repository shards now built member]

def acmeCreated : Request := { userCreated with tenantID := some "acme" }
def acmeEvent : Event := { newEvent 1 0 "user.created" "" none none with tenantID := "acme" }
theorem acme_partition : partitionOf 2 "acme" = 1 := by decide +kernel
theorem fetched_elsewhere : ¬ ∀ (shardCount : Int) (shards : List Int) (now : Time) (db : Database (Tables × Unit))
    (request : Request) (event : Event) (begins inserts commits : Reply), 0 < shardCount → event.tenantID ≠ "" →
    buildEvent request none = .ok event → (publishEvent shardCount db request begins inserts commits).error = none →
    (Fetched .postgres (publishEvent shardCount db request begins inserts commits).db.durable.1 shards now event.id ↔
      partitionOf shardCount event.tenantID ∈ shards) := by
  intro claim
  have fetched := (claim 2 [1] 0 emptyDatabase acmeCreated acmeEvent .done .done .done (by decide) (by decide) rfl rfl).mpr
    (by rw [show acmeEvent.tenantID = "acme" from rfl,acme_partition]; decide)
  have member : inserted acmeEvent ∈ (publishEvent 2 emptyDatabase acmeCreated .done .done .done).db.durable.1.events := by
    rw [← withPartition_row (serviceRing 2) acmeEvent]
    exact storeEventInTransaction_row rfl
  have owned := ((fetched_inserted .postgres [1] 0 (show buildEvent acmeCreated none = .ok acmeEvent from rfl) member).mp fetched).2
  simp at owned
theorem fetched_iff_owned_both :
    Fetched .postgres (publishEvent 2 emptyDatabase acmeCreated .done .done .done).db.durable.1 [0,1] 0 acmeEvent.id ∧
    Fetched .postgres (newService.publishEventWithTx emptyDatabase 0 acmeCreated .done).2.durable.1 [0,1] 0 acmeEvent.id := by
  have both := fetched_iff_owned 2 .postgres [0,1] 0 emptyDatabase (show buildEvent acmeCreated none = .ok acmeEvent from rfl)
  have owned : partitionOf 2 acmeEvent.tenantID ∈ ([0,1] : List Int) := by
    rw [show acmeEvent.tenantID = "acme" from rfl,acme_partition]
    decide
  have reached : FetchedBy .postgres [0,1] acmeEvent ↔ partitionOf 2 acmeEvent.tenantID ∈ ([0,1] : List Int) :=
    ⟨fun _ => owned,fun _ => ⟨rfl,.inl (by decide)⟩⟩
  exact ⟨((both.1 .done .done .done rfl).mpr reached).mpr owned,((both.2 0 .done rfl).mpr reached).mpr owned⟩

end Stellabill.ShardRouting
