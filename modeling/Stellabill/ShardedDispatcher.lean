import Stellabill.Dispatcher
import Stellabill.ShardRouting

/-!
The sharded dispatcher: one drain loop for every publisher, each taking the pending
events of the shards that the instance owns. An event is handed out until it is completed,
which takes the acknowledgement of every publisher.
-/
namespace Stellabill.ShardedDispatcher
open Keyed Transitions Uuid Outbox ShardRouting Function List
open Dispatcher (Loop Outcome publisherNames retryLater)

structure Config extends Dispatcher.Config where
  repository : Repository

/-- The tables and the state of the dispatcher, with the shards that it owns. -/
structure State extends Dispatcher.State where
  ownedShards : List Int

def started (cfg : Config) (db : Tables) (shards : List Int) : State :=
  { Dispatcher.init cfg.toConfig with db, ownedShards := shards }

/-- The steps from `Start` to `Stop`. A heartbeat whose ping fails gives up all shards. -/
inductive Action
  | store (event : Event)
  | requeue (id : UUID) (now : Time)
  | cleanup (olderThan : Time)
  | tick (name : String) (reads : Bool) (now : Time)
  | publish (name : String) (outcome : Outcome) (now : Time)
  | acknowledge (name : String) (commits : Bool) (now : Time)
  | fail (name : String) (updates : Bool) (now : Time)
  | orphan (name : String) (id : UUID) (succeeds : Bool)
  | heartbeat (pings : Bool)
  | exit (name : String)
  | stop
  deriving DecidableEq

def State.on (s : State) (t : Dispatcher.State) : State := { s with toState := t }

def fetch (cfg : Config) (s : State) (name : String) (reads : Bool) (now : Time) : State :=
  if ∃ at_ ∈ s.publisherNextAttempt name, now < at_ then s
  else if s.ownedShards.isEmpty then s
  else if reads then
    match cfg.repository.fetchEvents cfg.batchSize s.db s.ownedShards now with
    | none => s
    | some events => s.on (s.toState.goto name (.proceed events))
  else s

/-- One event of the batch. A timeout is only logged. -/
def publish (cfg : Config) (s : Dispatcher.State) (name : String) (event : Event) (rest : List Event) (outcome : Outcome)
    (now : Time) : Dispatcher.State :=
  match outcome with
  | .success =>
    { s with
      published := (name,event.id) :: s.published
      publisherFailCount := update s.publisherFailCount name 0
      publisherNextAttempt := update s.publisherNextAttempt name none
      loops := update s.loops name (.acking event rest) }
  | .permanent message => s.goto name (.failing event message rest)
  | .transient message => retryLater cfg.toConfig s name event rest message now
  | .timeout => { s with orphans := (name,event.id) :: s.orphans }.goto name (.proceed rest)

/-- `MarkPublished` of the repository; that of the second one does nothing. -/
def markPublished (repository : Repository) (db : Tables) (name : String) (event : Event) (publishers : List String)
    (now : Time) : Tables :=
  match repository with
  | .postgres => Outbox.markPublished db name event publishers now
  | .pgx => db

/-- One step, `none` where the code cannot take it; a refused INSERT and a failed call leave the tables as they are. -/
def step (cfg : Config) (s : State) : Action → Option State
  | .store event =>
    if event.status = .pending ∨ event.status = .failed then
      some (s.on { s.toState with db := (store s.db event).getD s.db })
    else none
  | .requeue id now => some (s.on { s.toState with db := requeueEvent s.db id now })
  | .cleanup olderThan => some (s.on { s.toState with db := deleteCompletedEvents s.db olderThan })
  | .tick name reads now => if s.loops name = .idle then some (fetch cfg s name reads now) else none
  | .publish name outcome now =>
    match s.loops name with
    | .draining event rest => some (s.on (publish cfg s.toState name event rest outcome now))
    | _ => none
  | .acknowledge name commits now =>
    match s.loops name with
    | .acking event rest =>
      let db := if commits then markPublished cfg.repository s.db name event (publisherNames cfg.toConfig) now else s.db
      some (s.on ({ s.toState with db }.goto name (.proceed rest)))
    | _ => none
  | .fail name updates now =>
    match s.loops name with
    | .failing event message rest =>
      let db := if updates then updateStatus s.db event.id .failed (some message) now else s.db
      some (s.on ({ s.toState with db }.goto name (.proceed rest)))
    | _ => none
  | .orphan name id succeeds =>
    if s.orphans.contains (name,id) then
      some (s.on { s.toState with
        orphans := s.orphans.erase (name,id)
        published := if succeeds then (name,id) :: s.published else s.published })
    else none
  | .heartbeat pings => some (if pings then s else { s with ownedShards := [] })
  | .exit name => if s.loops name = .idle ∧ s.cancelled then some (s.on (s.toState.goto name .stopped)) else none
  | .stop => if s.cancelled then none else some (s.on { s.toState with cancelled := true })

/-- Every `Publish` and every `MarkPublished` succeeds, and a new event has an ID of its own. -/
def Succeeds (s : State) : Action → Prop
  | .publish _ outcome _ => outcome = .success
  | .acknowledge _ commits _ => commits = true
  | .store event => ∀ done ∈ s.published, done.2 ≠ event.id
  | _ => True

instance (s : State) (a : Action) : Decidable (Succeeds s a) := by
  unfold Succeeds
  split <;> infer_instance

/-- No publisher fetches events while one that it has published is still pending. -/
def Rested (s : State) : Action → Prop
  | .tick name true now => ∀ row ∈ s.db.events.rows, s.published.contains (name,row.id) → pending now row = false
  | _ => True

instance (s : State) (a : Action) : Decidable (Rested s a) := by
  unfold Rested
  split <;> infer_instance

variable {db : Tables} {now : Time} {batch rest : List Event} {loop : Loop} {event : Event}

private theorem select_rows {cond : Event → Bool} {limit : Int} {rows : List Event} (selected : select db cond limit = some rows) :
    (rows.map Event.id).Nodup ∧ ∀ row ∈ rows, row ∈ db.events ∧ cond row = true := by
  unfold select at selected
  split at selected <;> cases selected
  constructor
  · refine (((take_sublist ..).map Event.id).nodup ?_)
    refine ((perm_insertionSort ..).map Event.id).nodup_iff.mpr ?_
    exact (filter_sublist.map Event.id).nodup db.events.unique
  · intro row member
    have found := (mem_insertionSort _).mp (mem_of_mem_take member)
    exact mem_filter.mp found
private theorem filterShards_sublist (batchSize : Int) (shards : List Int) (events : List Event) : ∀ filtered : List Event,
    (filterShards batchSize shards filtered events).Sublist (filtered ++ events) := by
  induction events with
  | nil => simp [filterShards]
  | cons e rest ih =>
    intro filtered
    have shorter : (if e.partition ∈ shards then filtered ++ [e] else filtered).Sublist (filtered ++ [e]) := by
      split
      · exact .refl _
      · exact sublist_append_left ..
    have whole : filtered ++ e :: rest = (filtered ++ [e]) ++ rest := by simp
    simp only [filterShards]
    rw [whole]
    generalize (if e.partition ∈ shards then filtered ++ [e] else filtered) = kept at shorter ⊢
    split
    · exact shorter.trans (sublist_append_left ..)
    · exact (ih _).trans (shorter.append_right rest)
theorem fetchEvents_rows {repository : Repository} {n : Int} {shards : List Int}
    (fetched : repository.fetchEvents n db shards now = some batch) :
    (batch.map Event.id).Nodup ∧ ∀ e ∈ batch, ∃ row ∈ db.events, row.id = e.id ∧ pending now row = true := by
  have read : ∀ {repository : Repository} {limit : Int} {events : List Event},
      repository.getPendingEvents db now limit = some events →
      (events.map Event.id).Nodup ∧ ∀ e ∈ events, ∃ row ∈ db.events, row.id = e.id ∧ pending now row = true := by
    intro repository limit events got
    obtain ⟨rows,selected,rfl⟩ := Option.map_eq_some_iff.mp got
    obtain ⟨unique,due⟩ := select_rows selected
    constructor
    · rwa [map_map,show Event.id ∘ repository.read = Event.id from funext (read_id repository)]
    · intro e listed
      obtain ⟨row,member,rfl⟩ := mem_map.mp listed
      exact ⟨row,(due row member).1,(read_id repository row).symm,(due row member).2⟩
  cases repository with
  | pgx =>
    simp only [Repository.fetchEvents,getPendingEventsForShards] at fetched
    split at fetched
    · exact read fetched
    · obtain ⟨unique,due⟩ := select_rows fetched
      refine ⟨unique,fun e listed => ⟨e,(due e listed).1,rfl,?_⟩⟩
      have both := (due e listed).2
      simp only [decide_eq_true_eq] at both
      exact both.2
  | postgres =>
    obtain ⟨events,got,rfl⟩ := Option.map_eq_some_iff.mp fetched
    obtain ⟨unique,due⟩ := read got
    have some_ := filterShards_sublist n shards events []
    exact ⟨(some_.map Event.id).nodup unique,fun e listed => due e (some_.subset listed)⟩

/-! ### Publishing once -/

def inHand : Loop → List Event
  | .draining event rest => event :: rest
  | .acking _ rest | .failing _ _ rest => rest
  | .idle | .stopped => []

/-- The loop has nothing to mark failed, and in hand different events that the publisher has not published. -/
structure Fits (published : List (String × UUID)) (name : String) (loop : Loop) : Prop where
  going : ∀ event message rest, loop ≠ .failing event message rest
  hands : ((inHand loop).map Event.id).Nodup
  unpublished : ∀ e ∈ inHand loop, (name,e.id) ∉ published

/-- The invariant of runs in which everything succeeds and no publisher fetches events too early. -/
structure Once (s : Dispatcher.State) : Prop where
  nodup : s.published.Nodup
  orphans : s.orphans = []
  loops : ∀ name, Fits s.published name (s.loops name)

variable {cfg : Config} {s : Dispatcher.State} {name : String} {published : List (String × UUID)}

theorem fits_empty (empty : inHand loop = []) (going : ∀ event message rest, loop ≠ .failing event message rest) :
    Fits published name loop := ⟨going,by simp [empty],by simp [empty]⟩
theorem fits_proceed (unique : (batch.map Event.id).Nodup) (unpublished : ∀ e ∈ batch, (name,e.id) ∉ published) :
    Fits published name (.proceed batch) := by
  have hand : inHand (.proceed batch) = batch := by cases batch <;> rfl
  refine ⟨?_,by rwa [hand],by rwa [hand]⟩
  cases batch <;> simp [Loop.proceed]
theorem fits_update {loops : String → Loop} (fits : ∀ other ≠ name, Fits published other (loops other))
    (new : Fits published name loop) (other : String) : Fits published other (update loops name loop other) := by
  by_cases here : other = name
  · subst here
    rwa [update_self]
  · rw [update_of_ne here]
    exact fits other here
theorem once_started (cfg : Config) (db : Tables) (shards : List Int) : Once (started cfg db shards).toState where
  nodup := .nil
  orphans := rfl
  loops other := by
    simp only [started,Dispatcher.init]
    split <;> exact fits_empty rfl (by simp)
theorem Once.goto (once : Once s) (fits : Fits s.published name loop) : Once (s.goto name loop) :=
  ⟨once.nodup,once.orphans,fits_update (fun other _ => once.loops other) fits⟩

private theorem once_fetch {s : State} {reads : Bool} (once : Once s.toState) (rested : Rested s (.tick name reads now)) :
    Once (fetch cfg s name reads now).toState := by
  unfold fetch
  split
  · exact once
  · split
    · exact once
    · split
      · next reading =>
        subst reading
        split
        · exact once
        · next events fetched =>
          obtain ⟨unique,due⟩ := fetchEvents_rows fetched
          refine once.goto (fits_proceed unique ?_)
          intro e member published
          -- An event that the publisher has published is not pending, so the query does not return it.
          obtain ⟨row,stored,same,isDue⟩ := due e member
          have settled := rested row stored (same ▸ (contains_iff_mem.mpr published))
          simp [settled] at isDue
      · exact once
private theorem once_publish (cfg : Config) (once : Once s) (at_ : s.loops name = .draining event rest) (now : Time) :
    Once (publish cfg s name event rest .success now) := by
  obtain ⟨_,hands,unpublished⟩ := at_ ▸ once.loops name
  simp only [inHand,map_cons,nodup_cons] at hands unpublished
  have new := unpublished event mem_cons_self
  refine ⟨nodup_cons.mpr ⟨new,once.nodup⟩,once.orphans,fits_update ?_ ?_⟩
  · intro other different
    have fits := once.loops other
    refine ⟨fits.going,fits.hands,fun e member published => ?_⟩
    rcases mem_cons.mp published with same | before
    · exact different (congrArg Prod.fst same)
    · exact fits.unpublished e member before
  · refine ⟨by simp,hands.2,fun e member published => ?_⟩
    rcases mem_cons.mp published with same | before
    · exact hands.1 (mem_map.mpr ⟨e,member,congrArg Prod.snd same⟩)
    · exact unpublished e (mem_cons_of_mem event member) before

theorem once_step {s t : State} {a : Action} (once : Once s.toState) (allowed : Succeeds s a ∧ Rested s a)
    (stepped : step cfg s a = some t) : Once t.toState := by
  obtain ⟨succeeds,rested⟩ := allowed
  have kept (db : Tables) : Once { s.toState with db } := ⟨once.nodup,once.orphans,once.loops⟩
  cases a with
  | store event =>
    obtain ⟨_,rfl⟩ := guarded stepped
    exact kept _
  | requeue id now | cleanup olderThan =>
    cases stepped
    exact kept _
  | tick name reads now =>
    obtain ⟨_,rfl⟩ := guarded stepped
    exact once_fetch once rested
  | publish name outcome now =>
    obtain rfl : outcome = .success := succeeds
    simp only [step] at stepped
    split at stepped
    · next at_ =>
      cases stepped
      exact once_publish cfg once at_ now
    · cases stepped
  | acknowledge name commits now =>
    simp only [step] at stepped
    split at stepped
    · next at_ =>
      cases stepped
      obtain ⟨_,hands,unpublished⟩ := at_ ▸ once.loops name
      exact (kept _).goto (fits_proceed hands unpublished)
    · cases stepped
  | fail name updates now =>
    simp only [step] at stepped
    split at stepped
    · next event message rest at_ => exact absurd at_ ((once.loops name).going event message rest)
    · cases stepped
  | orphan name id succeeds => simp [step,once.orphans] at stepped
  | heartbeat pings =>
    cases stepped
    cases pings <;> exact once
  | exit name =>
    obtain ⟨_,rfl⟩ := guarded stepped
    exact once.goto (fits_empty rfl (by simp))
  | stop =>
    simp only [step] at stepped
    split at stepped <;> cases stepped
    exact ⟨once.nodup,once.orphans,once.loops⟩

/-- For any publishers and either repository: as long as publishes and acknowledgements succeed and no publisher fetches
    while one that it has published is pending, it publishes every event at most once. -/
theorem published_once (cfg : Config) (db : Tables) (shards : List Int) {s : State}
    (run : Reach (step cfg) (fun s a => Succeeds s a ∧ Rested s a) (started cfg db shards) s) (name : String) (x : UUID) :
    s.published.count (name,x) ≤ 1 :=
  nodup_iff_count_le_one.mp (run.invariant (I := fun s => Once s.toState) (once_started cfg db shards) once_step).nodup (name,x)

private theorem oneEvent_unique : ([newEvent 1 0 "user.created" "" none none].map Event.id).Nodup := nodup_singleton _
def oneEvent : Tables := ⟨⟨[newEvent 1 0 "user.created" "" none none],oneEvent_unique⟩,fun _ => none⟩
def withPublishers (publisher : Dispatcher.Publisher) : Config :=
  { publisher, batchSize := 10, maxRetries := 3, pow := fun _ => 2, repository := .postgres }
/-- A publisher takes the batch that is pending, publishes its event and acknowledges it. -/
def drained (name : String) (now : Time) : List Action :=
  [.tick name true now,.publish name .success now,.acknowledge name true now]
theorem published_twice : ¬ ∀ (cfg : Config) (db : Tables) (shards : List Int) (s : State),
    Reach (step cfg) Succeeds (started cfg db shards) s → ∀ name x, s.published.count (name,x) ≤ 1 := by
  intro claim
  obtain ⟨s,ran,twice⟩ := run_seen (step (withPublishers (.multi 2))) (started (withPublishers (.multi 2)) oneEvent [0])
    (drained "publisher-0" 1 ++ drained "publisher-0" 2) (fun s => s.published.count ("publisher-0",1) = 2) (by decide +kernel)
  have reached := claim (withPublishers (.multi 2)) oneEvent [0] s (run_reach ran (by decide +kernel)) "publisher-0" 1
  omega
/-- Two publishers take turns, and the first fetches again once both have acknowledged. -/
theorem published_once_each : ∃ s, Reach (step (withPublishers (.multi 2))) (fun s a => Succeeds s a ∧ Rested s a)
    (started (withPublishers (.multi 2)) oneEvent [0]) s ∧ s.published = [("publisher-1",1),("publisher-0",1)] ∧
    s.published.count ("publisher-0",1) ≤ 1 :=
  reach_seen (drained "publisher-0" 1 ++ drained "publisher-1" 2 ++ [.tick "publisher-0" true 3])
    (by decide +kernel) (by decide +kernel)
    (fun _ reached _ => published_once (withPublishers (.multi 2)) oneEvent [0] reached "publisher-0" 1)

end Stellabill.ShardedDispatcher
