import Stellabill.Dispatcher

/-!
How far the publishers of a dispatcher are isolated from one another. Two runs that differ
in the outcomes of one publisher are compared. The publishers share the `status` column, so
that a failure recorded for one of them takes the event from all.
-/
namespace Stellabill.PublisherIsolation
open Keyed Transitions Uuid Outbox Dispatcher List

/-- What comes of a `Publish` call, by publisher, event and instant. -/
abbrev Outcomes := String → UUID → Time → Outcome

/-- A turn from `Start` to `Stop`: a drain loop takes its next step, its repository call failing or not, or something
    happens around. -/
inductive Turn
  | loop (name : String) (answers : Bool) (now : Time)
  | store (event : Event)
  | requeue (id : UUID) (now : Time)
  | cleanup (olderThan : Time)
  | orphan (name : String) (id : UUID) (succeeds : Bool)
  | exit (name : String)
  | stop
  deriving DecidableEq

def Turn.action (outcomes : Outcomes) (s : State) : Turn → Option Action
  | .loop name answers now =>
    match s.loops name with
    | .idle => some (.tick name answers now)
    | .draining event _ => some (.publish name (outcomes name event.id now) now)
    | .acking .. => some (.acknowledge name answers now)
    | .failing .. => some (.fail name answers now)
    | .stopped => none
  | .store event => some (.store event)
  | .requeue id now => some (.requeue id now)
  | .cleanup olderThan => some (.cleanup olderThan)
  | .orphan name id succeeds => some (.orphan name id succeeds)
  | .exit name => some (.exit name)
  | .stop => some .stop

def turn (cfg : Config) (outcomes : Outcomes) (s : State) (τ : Turn) : State :=
  ((τ.action outcomes s).bind (step cfg s)).getD s
def started (cfg : Config) (events : Events) : State := { init cfg with db := ⟨events,fun _ => none⟩ }
def drained (cfg : Config) (outcomes : Outcomes) (s : State) (turns : List Turn) : State := turns.foldl (turn cfg outcomes) s

section
variable (cfg : Config) (faulty : String)

/-- A publisher other than `faulty` has not passed the event. -/
def awaited (db : Tables) (row : Event) : Bool :=
  (publisherNames cfg).any (fun name => name ≠ faulty ∧ ¬ Passed db name row.id)

/-- The other publishers have the same marks and find the same rows above them. -/
structure SameTables (db₁ db₂ : Tables) : Prop where
  marks : ∀ name ≠ faulty, db₁.progress name = db₂.progress name
  rows : db₁.events.rows.filter (awaited cfg faulty db₁) = db₂.events.rows.filter (awaited cfg faulty db₂)
end

variable {cfg : Config} {faulty : String} {db db₁ db₂ db₃ : Tables}

theorem SameTables.refl : SameTables cfg faulty db db := ⟨fun _ _ => rfl,rfl⟩
theorem awaited_iff {row : Event} :
    awaited cfg faulty db row = true ↔ ∃ name ∈ publisherNames cfg, name ≠ faulty ∧ ¬ Passed db name row.id := by
  simp [awaited]
theorem awaited_congr (marks : ∀ name ≠ faulty, db₁.progress name = db₂.progress name) :
    awaited cfg faulty db₁ = awaited cfg faulty db₂ := by
  funext row
  rw [Bool.eq_iff_iff,awaited_iff,awaited_iff]
  refine exists_congr (fun name => and_congr_right (fun _ => and_congr_right (fun other => ?_)))
  rw [Passed,Passed,marks name other]
theorem filter_update (t : Events) (p : Event → Bool) (cond : Event → Bool) (set : Event → Event)
    (keeps : ∀ row, (set row).id = row.id) (byID : ∀ row row', row.id = row'.id → p row = p row') :
    (t.update cond set keeps).rows.filter p = (t.rows.filter p).map (fun row => if cond row then set row else row) := by
  rw [Table.update,filter_map]
  congr 1
  apply filter_congr
  intro row _
  apply byID
  by_cases hit : cond row <;> simp [hit,keeps]
theorem awaited_byID (db : Tables) (row row' : Event) (same : row.id = row'.id) :
    awaited cfg faulty db row = awaited cfg faulty db row' := by
  rw [awaited,awaited,same]
theorem sameTables_upsert (id : UUID) : SameTables cfg faulty db (upsertPublisherProgress db faulty id) := by
  have marks : ∀ name ≠ faulty, db.progress name = (upsertPublisherProgress db faulty id).progress name := by
    intro name other
    simp [upsertPublisherProgress,other]
  exact ⟨marks,by rw [awaited_congr marks]; rfl⟩
section
variable (same : SameTables cfg faulty db₁ db₂)
include same
theorem SameTables.symm : SameTables cfg faulty db₂ db₁ :=
  ⟨fun name other => (same.marks name other).symm,same.rows.symm⟩
theorem SameTables.trans (same' : SameTables cfg faulty db₂ db₃) : SameTables cfg faulty db₁ db₃ :=
  ⟨fun name other => (same.marks name other).trans (same'.marks name other),same.rows.trans same'.rows⟩
theorem SameTables.upsert {name : String} (other : name ≠ faulty) (id : UUID) :
    SameTables cfg faulty (upsertPublisherProgress db₁ name id) (upsertPublisherProgress db₂ name id) := by
  have marks : ∀ name' ≠ faulty, (upsertPublisherProgress db₁ name id).progress name' =
      (upsertPublisherProgress db₂ name id).progress name' := by
    intro name' other'
    simp only [upsertPublisherProgress,same.marks name other]
    by_cases here : name' = name
    · simp [here]
    · simp [here,same.marks name' other']
  refine ⟨marks,?_⟩
  -- Marks only move up: what is awaited afterwards was awaited before.
  have fewer : ∀ db : Tables, (upsertPublisherProgress db name id).events.rows.filter
      (awaited cfg faulty (upsertPublisherProgress db name id)) =
      (db.events.rows.filter (awaited cfg faulty db)).filter (awaited cfg faulty (upsertPublisherProgress db name id)) := by
    intro db
    rw [filter_filter]
    apply filter_congr
    intro row _
    rw [Bool.eq_iff_iff,Bool.and_eq_true]
    refine ⟨fun later => ⟨later,?_⟩,fun both => both.1⟩
    obtain ⟨name',listed,other',below⟩ := awaited_iff.mp later
    exact awaited_iff.mpr ⟨name',listed,other',fun passed => below (passed_upsert_iff.mpr (.inl passed))⟩
  rw [fewer db₁,fewer db₂,same.rows,awaited_congr marks]
end
private theorem filter_update_unseen (t : Events) (p : Event → Bool) (cond : Event → Bool) (set : Event → Event)
    (keeps : ∀ row, (set row).id = row.id) (byID : ∀ row row', row.id = row'.id → p row = p row')
    (unseen : ∀ row, cond row = true → p row = false) : (t.update cond set keeps).rows.filter p = t.rows.filter p := by
  rw [filter_update t p cond set keeps byID]
  refine (map_congr_left (fun row member => ?_)).trans (map_id' _)
  have seen := (mem_filter.mp member).2
  have miss : cond row = false := by
    by_contra hit
    rw [unseen row (by simpa using hit)] at seen
    cases seen
  simp [miss]
theorem sameTables_passed {id : UUID} (status : Status) (message : Option String) (now : Time)
    (passed : ∀ name ∈ publisherNames cfg, name ≠ faulty → Passed db name id) :
    SameTables cfg faulty db (updateStatus db id status message now) := by
  refine ⟨fun _ _ => rfl,Eq.symm (filter_update_unseen db.events (awaited cfg faulty db) (fun row => row.id = id)
    (fun row => { row with status, errorMessage := message, updatedAt := now }) (fun _ => rfl) (awaited_byID db) ?_)⟩
  intro row hit
  rw [Bool.eq_false_iff,Ne,awaited_iff]
  rintro ⟨name,listed,other,below⟩
  have here : row.id = id := by simpa using hit
  exact below (here ▸ passed name listed other)
theorem sameTables_completed (db : Tables) (publisher : String) (event : Event) (now : Time) :
    SameTables cfg faulty (upsertPublisherProgress db publisher event.id)
      (markPublished db publisher event (publisherNames cfg) now) := by
  rw [markPublished]
  split
  · next reached =>
    exact sameTables_passed .completed none now (fun name listed _ => reached_iff.mp reached name listed)
  · exact .refl
theorem sameTables_acknowledged (event : Event) (now : Time) :
    SameTables cfg faulty db (markPublished db faulty event (publisherNames cfg) now) :=
  (sameTables_upsert event.id).trans (sameTables_completed db faulty event now)
section
variable (same : SameTables cfg faulty db₁ db₂)
include same
theorem SameTables.markPublished {name : String} (other : name ≠ faulty) (event : Event)
    (now : Time) : SameTables cfg faulty (markPublished db₁ name event (publisherNames cfg) now)
      (markPublished db₂ name event (publisherNames cfg) now) :=
  (sameTables_completed db₁ name event now).symm.trans
    ((same.upsert other event.id).trans (sameTables_completed db₂ name event now))
theorem SameTables.update (cond : Event → Bool) (set : Event → Event)
    (keeps : ∀ row, (set row).id = row.id) :
    SameTables cfg faulty { db₁ with events := db₁.events.update cond set keeps }
      { db₂ with events := db₂.events.update cond set keeps } := by
  refine ⟨same.marks,?_⟩
  rw [filter_update _ _ _ _ _ (awaited_byID _),filter_update _ _ _ _ _ (awaited_byID _)]
  exact congrArg _ same.rows
theorem SameTables.delete (cond : Event → Bool) :
    SameTables cfg faulty { db₁ with events := db₁.events.delete cond } { db₂ with events := db₂.events.delete cond } := by
  refine ⟨same.marks,?_⟩
  simp only [Table.delete]
  rw [filter_comm,filter_comm (l := db₂.events.rows)]
  exact congrArg _ same.rows
end

variable {event : Event} {rest : List Event}

private theorem store_rows (stored : store db event = some db₁) :
    db₁.progress = db.progress ∧ db₁.events.rows = db.events.rows ++ [inserted event] := by
  unfold store at stored
  split at stored
  · cases stored
  · obtain ⟨events,insertion,rfl⟩ := Option.map_eq_some_iff.mp stored
    unfold Table.insert at insertion
    split at insertion <;> cases insertion
    exact ⟨rfl,rfl⟩
theorem SameTables.store (same : SameTables cfg faulty db₁ db₂) (alike : (store db₁ event).isSome = (store db₂ event).isSome) :
    SameTables cfg faulty ((store db₁ event).getD db₁) ((store db₂ event).getD db₂) := by
  cases stored₁ : Outbox.store db₁ event with
  | none =>
    have refused : Outbox.store db₂ event = none := by simpa [stored₁] using alike.symm
    simpa [refused] using same
  | some after₁ =>
    obtain ⟨after₂,stored₂⟩ := Option.isSome_iff_exists.mp (show (Outbox.store db₂ event).isSome by rw [← alike,stored₁]; rfl)
    obtain ⟨marks₁,rows₁⟩ := store_rows stored₁
    obtain ⟨marks₂,rows₂⟩ := store_rows stored₂
    have kept₁ : awaited cfg faulty after₁ = awaited cfg faulty db₁ := awaited_congr (fun name _ => by rw [marks₁])
    have kept₂ : awaited cfg faulty after₂ = awaited cfg faulty db₂ := awaited_congr (fun name _ => by rw [marks₂])
    simp only [stored₂,Option.getD_some]
    refine ⟨fun name other => by rw [marks₁,marks₂]; exact same.marks name other,?_⟩
    rw [kept₁,kept₂,rows₁,rows₂,filter_append,filter_append,same.rows,awaited_congr same.marks]
theorem SameTables.query (same : SameTables cfg faulty db₁ db₂) {name : String} (listed : name ∈ publisherNames cfg)
    (other : name ≠ faulty) (now : Time) (limit : Int) :
    getPendingEventsForPublisher db₁ name now limit = getPendingEventsForPublisher db₂ name now limit := by
  have through : ∀ db : Tables, db.events.rows.filter (pendingFor db name now) =
      (db.events.rows.filter (awaited cfg faulty db)).filter (pendingFor db name now) := by
    intro db
    rw [filter_filter]
    apply filter_congr
    intro row _
    rw [Bool.eq_iff_iff,Bool.and_eq_true]
    refine ⟨fun pending => ⟨pending,awaited_iff.mpr ⟨name,listed,other,?_⟩⟩,fun both => both.1⟩
    rw [not_passed_iff]
    intro last mark
    have above : (db.progress name).all (fun last => decide (last < row.id)) = true := by
      simp only [pendingFor,Bool.decide_and,Bool.and_eq_true,decide_eq_true_eq] at pending
      exact pending.2
    rw [show db.progress name = some last from mark] at above
    simpa using above
  have pending : pendingFor db₁ name now = pendingFor db₂ name now := by
    funext row
    rw [pendingFor,pendingFor,same.marks name other]
  rw [getPendingEventsForPublisher,getPendingEventsForPublisher,through db₁,through db₂,same.rows,pending]

/-! ### What a loop changes -/

/-- What belongs to one publisher alone. -/
structure Own where
  loop : Loop
  failCount : Int
  nextAttempt : Option Time

def own (s : State) (name : String) : Own := ⟨s.loops name,s.publisherFailCount name,s.publisherNextAttempt name⟩
/-- The publisher's part is replaced, with more publishes that outlived their timeout or succeeded. -/
def put (s : State) (name : String) (part : Own) (orphaned published : List UUID) : State :=
  { s with
    loops := Function.update s.loops name part.loop
    publisherFailCount := Function.update s.publisherFailCount name part.failCount
    publisherNextAttempt := Function.update s.publisherNextAttempt name part.nextAttempt
    orphans := orphaned.map (Prod.mk name) ++ s.orphans
    published := published.map (Prod.mk name) ++ s.published }

variable {s s₁ s₂ : State} {name : String}

private theorem put_own : put s name (own s name) [] [] = s := by
  simp [put,own]
theorem goto_put (loop : Loop) : s.goto name loop = put s name { own s name with loop } [] [] := by
  simp [put,own,State.goto]
section
variable (cfg : Config) (name : String) (part : Own)
private theorem retryLater_put (event : Event) (rest : List Event) (message : String) (now : Time) :
    ∃ part', ∀ s : State, own s name = part → retryLater cfg s name event rest message now = put s name part' [] [] := by
  by_cases final : part.failCount+1 ≥ cfg.maxRetries
  · refine ⟨⟨.failing event message rest,0,none⟩,?_⟩
    rintro s rfl
    simp only [retryLater,own] at final ⊢
    rw [if_pos final]
    rfl
  · refine ⟨⟨.proceed rest,part.failCount+1,some (now+backoff cfg (part.failCount+1))⟩,?_⟩
    rintro s rfl
    simp only [retryLater,own] at final ⊢
    rw [if_neg final]
    rfl
theorem publish_put (cancelled : Bool) (event : Event) (rest : List Event)
    (outcome : Outcome) (now : Time) : ∃ part' orphaned published, ∀ s : State, own s name = part → s.cancelled = cancelled →
      publish cfg s name event rest outcome now = put s name part' orphaned published := by
  cases outcome with
  | success => exact ⟨⟨.acking event rest,0,none⟩,[],[event.id],fun s _ _ => rfl⟩
  | permanent message =>
    refine ⟨{ part with loop := if cancelled then .idle else .failing event message rest },[],[],?_⟩
    rintro s rfl rfl
    simp only [publish]
    split
    · next stopping => simp [goto_put]
    · next going => simp [goto_put]
  | transient message =>
    obtain ⟨later,retried⟩ := retryLater_put cfg name part event rest message now
    refine ⟨if cancelled then { part with loop := .idle } else later,[],[],?_⟩
    rintro s same rfl
    simp only [publish]
    split
    · next stopping => simp [goto_put,same]
    · next going => simp [retried s same]
  | timeout =>
    obtain ⟨later,retried⟩ := retryLater_put cfg name part event rest "processing timeout" now
    refine ⟨if cancelled then { part with loop := .idle } else later,[event.id],[],?_⟩
    rintro s same rfl
    simp only [publish]
    split
    · next stopping => simp [put,own,State.goto,stopping,← same]
    · next going => rw [retried { s with orphans := (name,event.id) :: s.orphans } same]; simp [put,going]
theorem fetch_put (batch : Option (List Event)) (reads : Bool) (now : Time) :
    ∃ part', ∀ s : State, own s name = part → getPendingEventsForPublisher s.db name now cfg.batchSize = batch →
      fetch cfg s name reads now = put s name part' [] [] := by
  by_cases waits : ∃ at_ ∈ part.nextAttempt, now < at_
  · refine ⟨part,?_⟩
    rintro s rfl _
    simp only [own] at waits
    rw [fetch,if_pos waits,put_own]
  · cases reads with
    | false =>
      refine ⟨part,?_⟩
      rintro s rfl _
      simp only [own] at waits
      rw [fetch,if_neg waits,put_own]
      rfl
    | true =>
      cases batch with
      | none =>
        refine ⟨part,?_⟩
        rintro s rfl read
        rw [fetch,put_own]
        simp [read]
      | some events =>
        refine ⟨{ part with loop := .proceed events },?_⟩
        rintro s rfl read
        simp only [own] at waits
        rw [fetch,if_neg waits]
        simp [read,goto_put]
end

/-- The other publishers stand at the same place in both runs, with the same publishes behind them. -/
structure Alike (cfg : Config) (faulty : String) (s₁ s₂ : State) : Prop where
  tables : SameTables cfg faulty s₁.db s₂.db
  cancelled : s₁.cancelled = s₂.cancelled
  parts : ∀ name ≠ faulty, own s₁ name = own s₂ name
  orphans : s₁.orphans.filter (fun o => o.1 ≠ faulty) = s₂.orphans.filter (fun o => o.1 ≠ faulty)
  published : s₁.published.filter (fun o => o.1 ≠ faulty) = s₂.published.filter (fun o => o.1 ≠ faulty)

theorem Alike.refl : Alike cfg faulty s s := ⟨.refl,rfl,fun _ _ => rfl,rfl,rfl⟩
theorem own_put_other {other : String} (different : other ≠ name) (part : Own) (orphaned published : List UUID) :
    own (put s name part orphaned published) other = own s other := by
  simp [own,put,different]
private theorem own_put_same (part : Own) (orphaned published : List UUID) : own (put s name part orphaned published) name = part := by
  simp [own,put]
section
variable (alike : Alike cfg faulty s₁ s₂)
include alike
theorem Alike.symm : Alike cfg faulty s₂ s₁ where
  tables := alike.tables.symm
  cancelled := alike.cancelled.symm
  parts name other := (alike.parts name other).symm
  orphans := alike.orphans.symm
  published := alike.published.symm
theorem Alike.trans {s₃ : State} (alike' : Alike cfg faulty s₂ s₃) : Alike cfg faulty s₁ s₃ where
  tables := alike.tables.trans alike'.tables
  cancelled := alike.cancelled.trans alike'.cancelled
  parts name other := (alike.parts name other).trans (alike'.parts name other)
  orphans := alike.orphans.trans alike'.orphans
  published := alike.published.trans alike'.published
theorem Alike.withTables (same : SameTables cfg faulty db₁ db₂) :
    Alike cfg faulty { s₁ with db := db₁ } { s₂ with db := db₂ } :=
  ⟨same,alike.cancelled,alike.parts,alike.orphans,alike.published⟩
theorem Alike.put (name : String) (part : Own) (orphaned published : List UUID) :
    Alike cfg faulty (put s₁ name part orphaned published) (put s₂ name part orphaned published) where
  tables := alike.tables
  cancelled := alike.cancelled
  parts name' other' := by
    by_cases here : name' = name
    · rw [here,own_put_same,own_put_same]
    · rw [own_put_other here,own_put_other here,alike.parts name' other']
  orphans := by
    simp only [PublisherIsolation.put,filter_append]
    rw [alike.orphans]
  published := by
    simp only [PublisherIsolation.put,filter_append]
    rw [alike.published]
end
theorem alike_put {part : Own} {orphaned published : List UUID} : Alike cfg faulty s (put s faulty part orphaned published) where
  tables := .refl
  cancelled := rfl
  parts name other := (own_put_other other part orphaned published).symm
  orphans := by simp [put,filter_map]
  published := by simp [put,filter_map]

/-! ### One turn -/

def failing (s : State) (name : String) : Option Event :=
  match s.loops name with
  | .failing event .. => some event
  | _ => none
section
variable (cfg : Config) (faulty : String)
/-- The faulty publisher marks an event failed only when every other publisher has passed it. -/
def Harmless (s : State) : Turn → Prop
  | .loop name true _ => name = faulty → ∀ event ∈ failing s faulty, ∀ other ∈ publisherNames cfg, other ≠ faulty →
      Passed s.db other event.id
  | _ => True
/-- An INSERT of the turn is accepted in both runs or refused in both. -/
def SameAnswer (db₁ db₂ : Tables) : Turn → Prop
  | .store event => (store db₁ event).isSome = (store db₂ event).isSome
  | _ => True
def Clean (pair : State × State) (τ : Turn) : Prop :=
  Harmless cfg faulty pair.1 τ ∧ Harmless cfg faulty pair.2 τ ∧ SameAnswer pair.1.db pair.2.db τ
instance (s : State) (τ : Turn) : Decidable (Harmless cfg faulty s τ) := by
  unfold Harmless
  split <;> infer_instance
instance (db₁ db₂ : Tables) (τ : Turn) : Decidable (SameAnswer db₁ db₂ τ) := by
  unfold SameAnswer
  split <;> infer_instance
instance (pair : State × State) (τ : Turn) : Decidable (Clean cfg faulty pair τ) :=
  inferInstanceAs (Decidable (_ ∧ _ ∧ _))
end
section
variable (outcomes : Outcomes)
include outcomes
section
variable (answers : Bool)
include answers
variable (now : Time)
theorem turn_idle (at_ : s.loops name = .idle) : turn cfg outcomes s (.loop name answers now) = fetch cfg s name answers now := by
  simp [turn,Turn.action,at_,step]
theorem turn_draining (at_ : s.loops name = .draining event rest) :
    turn cfg outcomes s (.loop name answers now) = publish cfg s name event rest (outcomes name event.id now) now := by
  simp [turn,Turn.action,at_,step]
theorem turn_acking (at_ : s.loops name = .acking event rest) :
    turn cfg outcomes s (.loop name answers now) =
      put { s with db := if answers then markPublished s.db name event (publisherNames cfg) now else s.db } name
        { own s name with loop := .proceed rest } [] [] := by
  simp [turn,Turn.action,at_,step,goto_put,own]
theorem turn_failing {message : String}
    (at_ : s.loops name = .failing event message rest) :
    turn cfg outcomes s (.loop name answers now) =
      put { s with db := if answers then updateStatus s.db event.id .failed (some message) now else s.db } name
        { own s name with loop := .proceed rest } [] [] := by
  simp [turn,Turn.action,at_,step,goto_put,own]
theorem turn_stopped (at_ : s.loops name = .stopped) : turn cfg outcomes s (.loop name answers now) = s := by
  simp [turn,Turn.action,at_]
theorem alike_loop (harmless : Harmless cfg faulty s (.loop faulty answers now)) :
    Alike cfg faulty s (turn cfg outcomes s (.loop faulty answers now)) := by
  cases at_ : s.loops faulty with
  | idle =>
    obtain ⟨part,fetched⟩ := fetch_put cfg faulty (own s faulty)
      (getPendingEventsForPublisher s.db faulty now cfg.batchSize) answers now
    rw [turn_idle outcomes answers now at_,fetched s rfl rfl]
    exact alike_put
  | draining event rest =>
    obtain ⟨part,orphaned,published,done⟩ := publish_put cfg faulty (own s faulty) s.cancelled event rest
      (outcomes faulty event.id now) now
    rw [turn_draining outcomes answers now at_,done s rfl rfl]
    exact alike_put
  | acking event rest =>
    rw [turn_acking outcomes answers now at_]
    refine Alike.trans (Alike.refl.withTables ?_) alike_put
    cases answers with
    | false => exact .refl
    | true => exact sameTables_acknowledged event now
  | failing event message rest =>
    rw [turn_failing outcomes answers now at_]
    refine Alike.trans (Alike.refl.withTables ?_) alike_put
    cases answers with
    | false => exact .refl
    | true => exact sameTables_passed .failed (some message) now (harmless rfl event (by simp [PublisherIsolation.failing,at_]))
  | stopped => rw [turn_stopped outcomes answers now at_]; exact .refl
end
theorem turn_store : turn cfg outcomes s (.store event) =
    if event.status = .pending ∨ event.status = .failed then { s with db := (store s.db event).getD s.db } else s := by
  by_cases fresh : event.status = .pending ∨ event.status = .failed <;> simp [turn,Turn.action,step,fresh]
theorem turn_stop : turn cfg outcomes s .stop = { s with cancelled := true } := by
  cases stopping : s.cancelled with
  | false => simp [turn,Turn.action,step,stopping]
  | true =>
    have same : { s with cancelled := true } = s := by rw [← stopping]
    rw [same]
    simp [turn,Turn.action,step,stopping]
theorem turn_orphan (id : UUID) (succeeds : Bool) :
    turn cfg outcomes s (.orphan name id succeeds) = if (name,id) ∈ s.orphans then
      { s with
        orphans := s.orphans.erase (name,id)
        published := if succeeds then (name,id) :: s.published else s.published } else s := by
  by_cases waiting : (name,id) ∈ s.orphans <;> simp [turn,Turn.action,step,waiting]
theorem turn_exit : turn cfg outcomes s (.exit name) =
    if s.loops name = .idle ∧ s.cancelled then s.goto name .stopped else s := by
  by_cases ends : s.loops name = .idle ∧ s.cancelled = true <;> simp [turn,Turn.action,step,ends]
theorem alike_orphan (id : UUID) (succeeds : Bool) : Alike cfg faulty s (turn cfg outcomes s (.orphan faulty id succeeds)) := by
  rw [turn_orphan]
  split
  · refine ⟨.refl,rfl,fun _ _ => rfl,?_,?_⟩
    · rw [← erase_filter,erase_of_not_mem (by simp)]
    · cases succeeds <;> simp
  · exact .refl
theorem alike_exit : Alike cfg faulty s (turn cfg outcomes s (.exit faulty)) := by
  rw [turn_exit]
  split
  · rw [goto_put]; exact alike_put
  · exact .refl
end
section
variable (alike : Alike cfg faulty s₁ s₂) (other : name ≠ faulty)
include alike other
theorem Alike.loop (known : s₁.loops name ≠ .stopped → name ∈ publisherNames cfg) {o₁ o₂ : Outcomes} (agree : o₁ name = o₂ name)
    (answers : Bool) (now : Time) :
    Alike cfg faulty (turn cfg o₁ s₁ (.loop name answers now)) (turn cfg o₂ s₂ (.loop name answers now)) := by
  have same := alike.parts name other
  have loops : s₁.loops name = s₂.loops name := congrArg Own.loop same
  cases at_ : s₁.loops name with
  | idle =>
    have listed := known (by simp [at_])
    obtain ⟨part,fetched⟩ := fetch_put cfg name (own s₁ name)
      (getPendingEventsForPublisher s₁.db name now cfg.batchSize) answers now
    rw [turn_idle o₁ answers now at_,turn_idle o₂ answers now (loops ▸ at_),fetched s₁ rfl rfl,
      fetched s₂ same.symm (alike.tables.query listed other now cfg.batchSize).symm]
    exact alike.put name ..
  | draining event rest =>
    obtain ⟨part,orphaned,published,done⟩ := publish_put cfg name (own s₁ name) s₁.cancelled event rest
      (o₁ name event.id now) now
    rw [turn_draining o₁ answers now at_,turn_draining o₂ answers now (loops ▸ at_),← agree,done s₁ rfl rfl,
      done s₂ same.symm alike.cancelled.symm]
    exact alike.put name ..
  | acking event rest =>
    rw [turn_acking o₁ answers now at_,turn_acking o₂ answers now (loops ▸ at_),same]
    refine Alike.put (alike.withTables ?_) name ..
    cases answers with
    | false => exact alike.tables
    | true => exact alike.tables.markPublished other event now
  | failing event message rest =>
    rw [turn_failing o₁ answers now at_,turn_failing o₂ answers now (loops ▸ at_),same]
    refine Alike.put (alike.withTables ?_) name ..
    cases answers with
    | false => exact alike.tables
    | true => exact alike.tables.update ..
  | stopped =>
    rw [turn_stopped o₁ answers now at_,turn_stopped o₂ answers now (loops ▸ at_)]
    exact alike
theorem Alike.orphan (o₁ o₂ : Outcomes) (id : UUID) (succeeds : Bool) :
    Alike cfg faulty (turn cfg o₁ s₁ (.orphan name id succeeds)) (turn cfg o₂ s₂ (.orphan name id succeeds)) := by
  have listed : ∀ s : State, (name,id) ∈ s.orphans ↔ (name,id) ∈ s.orphans.filter (fun o => o.1 ≠ faulty) := by
    simp [other]
  have same : (name,id) ∈ s₁.orphans ↔ (name,id) ∈ s₂.orphans := by rw [listed s₁,listed s₂,alike.orphans]
  rw [turn_orphan,turn_orphan]
  by_cases waiting : (name,id) ∈ s₁.orphans
  · rw [if_pos waiting,if_pos (same.mp waiting)]
    refine ⟨alike.tables,alike.cancelled,alike.parts,?_,?_⟩
    · rw [← erase_filter,← erase_filter,alike.orphans]
    · cases succeeds with
      | false => exact alike.published
      | true => simp only [if_true,filter_cons,alike.published]
  · rw [if_neg waiting,if_neg (fun waiting' => waiting (same.mpr waiting'))]
    exact alike
theorem Alike.exit (o₁ o₂ : Outcomes) : Alike cfg faulty (turn cfg o₁ s₁ (.exit name)) (turn cfg o₂ s₂ (.exit name)) := by
  have same := alike.parts name other
  have loops : s₁.loops name = s₂.loops name := congrArg Own.loop same
  rw [turn_exit,turn_exit,loops,alike.cancelled]
  split
  · rw [goto_put,goto_put,same]; exact alike.put name ..
  · exact alike
end

/-- A loop that has not ended belongs to a configured publisher. -/
def Known (cfg : Config) (s : State) : Prop := ∀ name, s.loops name ≠ .stopped → name ∈ publisherNames cfg

theorem known_put (known : Known cfg s) (name : String) (going : s.loops name ≠ .stopped) (part : Own) (orphaned published : List UUID) :
    Known cfg (put s name part orphaned published) := by
  intro other
  by_cases here : other = name
  · subst here
    exact fun _ => known other going
  · simpa [put,here] using known other
theorem known_turn (outcomes : Outcomes) (known : Known cfg s) (τ : Turn) : Known cfg (turn cfg outcomes s τ) := by
  cases τ with
  | loop name answers now =>
    cases at_ : s.loops name with
    | idle =>
      obtain ⟨part,fetched⟩ := fetch_put cfg name (own s name) _ answers now
      rw [turn_idle outcomes answers now at_,fetched s rfl rfl]
      exact known_put known name (by simp [at_]) _ _ _
    | draining event rest =>
      obtain ⟨part,orphaned,published,done⟩ := publish_put cfg name (own s name) s.cancelled event rest
        (outcomes name event.id now) now
      rw [turn_draining outcomes answers now at_,done s rfl rfl]
      exact known_put known name (by simp [at_]) _ _ _
    | acking event rest =>
      rw [turn_acking outcomes answers now at_]
      exact known_put known name (by simp [at_]) _ [] []
    | failing event message rest =>
      rw [turn_failing outcomes answers now at_]
      exact known_put known name (by simp [at_]) _ [] []
    | stopped => rw [turn_stopped outcomes answers now at_]; exact known
  | store event => rw [turn_store]; split <;> exact known
  | requeue | cleanup => exact known
  | orphan name key succeeds => rw [turn_orphan]; split <;> exact known
  | exit name =>
    rw [turn_exit]
    split
    · next ends => rw [goto_put]; exact known_put known name (by simp [ends.1]) _ _ _
    · exact known
  | stop => rw [turn_stop]; exact known
private theorem known_started (cfg : Config) (events : Events) : Known cfg (started cfg events) := by
  intro name going
  by_contra unlisted
  exact going (by simp [started,init,unlisted])

private theorem alike_turn {o₁ o₂ : Outcomes} (agree : ∀ other ≠ faulty, o₁ other = o₂ other) (alike : Alike cfg faulty s₁ s₂)
    (known : Known cfg s₁) {τ : Turn} (clean : Clean cfg faulty (s₁,s₂) τ) : Alike cfg faulty (turn cfg o₁ s₁ τ) (turn cfg o₂ s₂ τ) := by
  obtain ⟨harmless₁,harmless₂,answer⟩ := clean
  cases τ with
  | loop name answers now =>
    by_cases its : name = faulty
    · subst its
      exact (alike_loop o₁ answers now harmless₁).symm.trans (alike.trans (alike_loop o₂ answers now harmless₂))
    · exact alike.loop its (known name) (agree name its) answers now
  | store event =>
    rw [turn_store,turn_store]
    split
    · exact alike.withTables (alike.tables.store answer)
    · exact alike
  | requeue key now => exact alike.withTables (alike.tables.update ..)
  | cleanup olderThan => exact alike.withTables (alike.tables.delete _)
  | orphan name key succeeds =>
    by_cases its : name = faulty
    · subst its
      exact (alike_orphan o₁ key succeeds).symm.trans (alike.trans (alike_orphan o₂ key succeeds))
    · exact alike.orphan its o₁ o₂ key succeeds
  | exit name =>
    by_cases its : name = faulty
    · subst its
      exact (alike_exit o₁).symm.trans (alike.trans (alike_exit o₂))
    · exact alike.exit its o₁ o₂
  | stop =>
    rw [turn_stop,turn_stop]
    exact ⟨alike.tables,rfl,alike.parts,alike.orphans,alike.published⟩

def sideBySide (cfg : Config) (o₁ o₂ : Outcomes) (pair : State × State) (τ : Turn) : Option (State × State) :=
  some (turn cfg o₁ pair.1 τ,turn cfg o₂ pair.2 τ)
private theorem run_sideBySide (o₁ o₂ : Outcomes) (turns : List Turn) : ∀ s₁ s₂ : State,
    run (sideBySide cfg o₁ o₂) (s₁,s₂) turns = some (drained cfg o₁ s₁ turns,drained cfg o₂ s₂ turns) := by
  induction turns with
  | nil => exact fun _ _ => rfl
  | cons τ rest ih => exact fun s₁ s₂ => ih (turn cfg o₁ s₁ τ) (turn cfg o₂ s₂ τ)

/-- Of two runs with the same events and turns, whose outcomes differ for one publisher only: as long as that marks
    failed only what the others have passed, and an INSERT meets the same answer in both, every other publisher
    publishes the same in both. -/
theorem published_isolated (cfg : Config) (events : Events) {faulty name : String} (other : name ≠ faulty) {o₁ o₂ : Outcomes}
    (agree : ∀ other ≠ faulty, o₁ other = o₂ other) (turns : List Turn)
    (clean : Along (sideBySide cfg o₁ o₂) (Clean cfg faulty) (started cfg events,started cfg events) turns) (x : UUID) :
    (name,x) ∈ (drained cfg o₁ (started cfg events) turns).published ↔
      (name,x) ∈ (drained cfg o₂ (started cfg events) turns).published := by
  have reached := run_reach (run_sideBySide o₁ o₂ turns (started cfg events) (started cfg events)) clean
  have kept := reached.invariant (I := fun pair => Alike cfg faulty pair.1 pair.2 ∧ Known cfg pair.1)
    ⟨.refl,known_started cfg events⟩ (by
      rintro ⟨s₁,s₂⟩ τ pair ⟨alike,known⟩ allowed stepped
      cases stepped
      exact ⟨alike_turn agree alike known allowed,known_turn o₁ known τ⟩)
  have listed : ∀ s : State, (name,x) ∈ s.published ↔ (name,x) ∈ s.published.filter (fun o => o.1 ≠ faulty) := by
    intro s
    simp [other]
  rw [listed,listed,kept.1.published]

/-- Two publishers and one event. The first publisher has its turns before the second. -/
def twoPublishers : Config := { publisher := .multi 2, batchSize := 10, maxRetries := 3, pow := fun _ => 2 }
def oneEvent : Events := ⟨[newEvent 1 0 "user.created" "" none none],by simp⟩
def oneAfterTheOther : List Turn :=
  [.loop "publisher-0" true 1,.loop "publisher-0" true 1,.loop "publisher-0" true 1,
    .loop "publisher-1" true 2,.loop "publisher-1" true 2]
def firstEnds (outcome : Outcome) : Outcomes := fun name _ _ => if name = "publisher-0" then outcome else .success

theorem firstEnds_agree (outcome outcome' : Outcome) : ∀ other ≠ "publisher-0", firstEnds outcome other = firstEnds outcome' other := by
  intro other different
  funext x now
  simp [firstEnds,different]
theorem published_starved : ¬ ∀ (cfg : Config) (events : Events) (faulty name : String) (o₁ o₂ : Outcomes) (turns : List Turn),
    name ≠ faulty → (∀ other ≠ faulty, o₁ other = o₂ other) → ∀ x, (name,x) ∈ (drained cfg o₁ (started cfg events) turns).published ↔
      (name,x) ∈ (drained cfg o₂ (started cfg events) turns).published := by
  intro claim
  have same := claim twoPublishers oneEvent "publisher-0" "publisher-1" (firstEnds .success)
    (firstEnds (.permanent "rejected")) oneAfterTheOther (by decide) (firstEnds_agree _ _) 1
  have published : ("publisher-1",1) ∈ (drained twoPublishers (firstEnds .success) (started twoPublishers oneEvent)
      oneAfterTheOther).published := by decide +kernel
  have starved : ("publisher-1",1) ∉ (drained twoPublishers (firstEnds (.permanent "rejected"))
      (started twoPublishers oneEvent) oneAfterTheOther).published := by decide +kernel
  exact starved (same.mp published)
theorem published_isolated_transient :
    ("publisher-1",1) ∈ (drained twoPublishers (firstEnds .success) (started twoPublishers oneEvent) oneAfterTheOther).published ∧
    ("publisher-1",1) ∈ (drained twoPublishers (firstEnds (.transient "unreachable")) (started twoPublishers oneEvent)
      oneAfterTheOther).published := by
  have published : ("publisher-1",1) ∈ (drained twoPublishers (firstEnds .success) (started twoPublishers oneEvent)
      oneAfterTheOther).published := by decide +kernel
  refine ⟨published,(published_isolated twoPublishers oneEvent (show "publisher-1" ≠ "publisher-0" by decide)
    (firstEnds_agree _ _) oneAfterTheOther ?_ 1).mp published⟩
  decide +kernel

end Stellabill.PublisherIsolation
