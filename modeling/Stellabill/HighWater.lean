import Stellabill.Dispatcher

/-!
What the high-water marks of the dispatcher guarantee. A mark stands for "every
event at or below it is published", which the code assumes and does not keep: a loop
may skip a failed event, and an event may be stored below a mark.
-/
namespace Stellabill.HighWater
open Keyed Transitions Uuid Outbox Dispatcher Function

variable {cfg : Config} {s t : State} {a : Action}

def stores : Action → Option Event
  | .store event => some event
  | _ => none
/-- The `MarkPublished` that takes effect in the step: a caller's own, or the acknowledgement of a drain loop. -/
def marked (cfg : Config) (s : State) : Action → Option (String × Event × List String × Time)
  | .markPublished name event publishers now => some (name,event,publishers,now)
  | .acknowledge name true now =>
    match s.loops name with
    | .acking event _ => some (name,event,publisherNames cfg,now)
    | _ => none
  | _ => none

/-- The step leaves the event at or below the mark of a publisher that has not published it. -/
def Overtakes (cfg : Config) (name : String) (x : UUID) (s : State) (a : Action) : Prop :=
  (∃ event ∈ stores a, event.id = x ∧ (store s.db event).isSome ∧ Passed s.db name x) ∨
    ∃ transaction ∈ marked cfg s a, transaction.1 = name ∧ x < transaction.2.1.id ∧ Stored s.db x ∧ (name,x) ∉ s.published
  deriving Decidable

variable {name : String} {event : Event} {publishers : List String} {now : Time} {x : UUID}

theorem marked_cases (marks : marked cfg s a = some (name,event,publishers,now)) : a = .markPublished name event publishers now ∨
      (a = .acknowledge name true now ∧ publishers = publisherNames cfg ∧ ∃ rest, s.loops name = .acking event rest) := by
  unfold marked at marks
  split at marks
  · cases marks; exact .inl rfl
  · split at marks <;> cases marks
    next rest at_ack => exact .inr ⟨rfl,rfl,rest,at_ack⟩
  · cases marks

structure Quiet (s t : State) : Prop where
  marks : t.db.progress = s.db.progress
  stored : ∀ x, Stored t.db x → Stored s.db x
  completed : ∀ x, HasStatus t.db x .completed → HasStatus s.db x .completed
  published : s.published ⊆ t.published

theorem quiet_of_db (same : t.db = s.db) (published : s.published ⊆ t.published) : Quiet s t := by
  refine ⟨by rw [same],?_,?_,published⟩
  · intro x stored; rwa [same] at stored
  · intro x has; rwa [same] at has
private theorem quiet_fetch {reads : Bool} : Quiet s (fetch cfg s name reads now) := by
  unfold fetch
  split_ifs
  · exact quiet_of_db rfl (fun _ => id)
  · split <;> exact quiet_of_db rfl (fun _ => id)
  · exact quiet_of_db rfl (fun _ => id)
private theorem quiet_publish {rest : List Event} {outcome : Outcome} : Quiet s (publish cfg s name event rest outcome now) := by
  simp only [publish,retryLater]
  split
  · exact quiet_of_db rfl (List.subset_cons_self ..)
  all_goals split_ifs <;> exact quiet_of_db rfl (fun _ => id)

def Acked (s : State) : Prop := ∀ name event rest, s.loops name = .acking event rest → (name,event.id) ∈ s.published
section
variable (stepped : step cfg s a = some t)
include stepped
/-- A step inserts an event, is a `MarkPublished` transaction, or changes neither tables nor publishes. -/
theorem step_effect : (∃ event, a = .store event ∧ (event.status = .pending ∨ event.status = .failed) ∧ store s.db event = some t.db ∧
      t.published = s.published) ∨ (∃ name event publishers now, marked cfg s a = some (name,event,publishers,now) ∧
      t.db = markPublished s.db name event publishers now ∧ s.published ⊆ t.published) ∨ Quiet s t := by
  cases a with
  | store event =>
    obtain ⟨fresh,rfl⟩ := guarded stepped
    cases insertion : store s.db event with
    | none => exact .inr (.inr (quiet_of_db rfl (fun _ => id)))
    | some db => exact .inl ⟨event,rfl,fresh,by simp [insertion],rfl⟩
  | requeue =>
    cases stepped
    refine .inr (.inr ⟨rfl,fun x => stored_requeueEvent.mp,fun x has => ?_,fun _ => id⟩)
    rcases hasStatus_requeueEvent has with before | impossible
    · exact before
    · cases impossible
  | markPublished =>
    cases stepped
    exact .inr (.inl ⟨_,_,_,_,rfl,rfl,List.subset_cons_self ..⟩)
  | cleanup olderThan =>
    cases stepped
    exact .inr (.inr ⟨rfl,fun x => stored_deleteCompletedEvents,fun x => hasStatus_deleteCompletedEvents,fun _ => id⟩)
  | tick =>
    obtain ⟨_,rfl⟩ := guarded stepped
    exact .inr (.inr quiet_fetch)
  | publish =>
    simp only [step] at stepped
    split at stepped <;> cases stepped
    exact .inr (.inr quiet_publish)
  | acknowledge name commits now =>
    simp only [step] at stepped
    split at stepped <;> cases stepped
    next event rest at_ack =>
    cases commits with
    | true => exact .inr (.inl ⟨name,event,publisherNames cfg,now,by simp [marked,at_ack],rfl,fun _ => id⟩)
    | false => exact .inr (.inr (quiet_of_db rfl (fun _ => id)))
  | fail name updates now =>
    simp only [step] at stepped
    split at stepped <;> cases stepped
    refine .inr (.inr ?_)
    cases updates with
    | true =>
      refine ⟨rfl,fun x => stored_updateStatus.mp,fun x has => ?_,fun _ => id⟩
      rcases hasStatus_updateStatus has with before | ⟨_,impossible⟩
      · exact before
      · cases impossible
    | false => exact quiet_of_db rfl (fun _ => id)
  | orphan _ _ succeeds =>
    obtain ⟨_,rfl⟩ := guarded stepped
    refine .inr (.inr (quiet_of_db rfl ?_))
    cases succeeds with
    | true => exact List.subset_cons_self ..
    | false => exact fun _ => id
  | exit | start =>
    obtain ⟨_,rfl⟩ := guarded stepped
    exact .inr (.inr (quiet_of_db rfl (fun _ => id)))
  | stop =>
    simp only [step] at stepped
    split at stepped <;> cases stepped
    exact .inr (.inr (quiet_of_db rfl (fun _ => id)))
/-- Once overtaken, an event stays overtaken: no step lowers a mark. -/
theorem passed_step (passed : Passed s.db name x) : Passed t.db name x := by
  rcases step_effect stepped with ⟨event,_,_,insertion,_⟩ | ⟨other,event,publishers,now,_,db,_⟩ | quiet
  · rw [Passed,(store_some insertion).2.1]; exact passed
  · rw [db,passed_markPublished_iff]; exact .inl passed
  · rw [Passed,quiet.marks]; exact passed
theorem published_step : s.published ⊆ t.published := by
  rcases step_effect stepped with ⟨_,_,_,_,same⟩ | ⟨_,_,_,_,_,_,grows⟩ | quiet
  · rw [same]; exact fun _ => id
  · exact grows
  · exact quiet.published
theorem marked_db (marks : marked cfg s a = some (name,event,publishers,now)) : t.db = markPublished s.db name event publishers now := by
  rcases marked_cases marks with rfl | ⟨rfl,rfl,rest,at_ack⟩
  · cases stepped; rfl
  · simp only [step,at_ack] at stepped
    cases stepped; rfl
theorem overtakes_passed (overtakes : Overtakes cfg name x s a) : Passed t.db name x := by
  rcases overtakes with ⟨event,_,_,_,passed⟩ | ⟨⟨other,event,publishers,now⟩,marks,rfl,above,_,_⟩
  · exact passed_step stepped passed
  · rw [marked_db stepped marks,passed_markPublished_iff]
    exact .inr ⟨rfl,above.le⟩
end
/-- The publisher of a `MarkPublished` transaction has published its event. -/
theorem marked_published (acked : Acked s) (stepped : step cfg s a = some t) (marks : marked cfg s a = some (name,event,publishers,now)) :
    (name,event.id) ∈ t.published := by
  rcases marked_cases marks with rfl | ⟨_,_,rest,at_ack⟩
  · cases stepped; exact List.mem_cons_self
  · exact published_step stepped (acked name event rest at_ack)

/-- Where no step overtakes the event, it is published or above the mark as long as it is stored. -/
theorem ahead_step (stepped : step cfg s a = some t) (clean : ¬ Overtakes cfg name x s a)
    (ahead : Stored s.db x → (name,x) ∈ s.published ∨ ¬ Passed s.db name x) (acked : Acked s) :
    Stored t.db x → (name,x) ∈ t.published ∨ ¬ Passed t.db name x := by
  intro stored
  have grows := published_step stepped
  rcases step_effect stepped with ⟨event,rfl,_,insertion,_⟩ | ⟨other,event,publishers,now,marks,db,_⟩ | quiet
  · obtain ⟨_,progress,rows⟩ := store_some insertion
    have before : Passed t.db name x ↔ Passed s.db name x := by rw [Passed,Passed,progress]
    rw [before]
    obtain ⟨row,member,rfl⟩ := stored
    rcases (rows row).mp member with old | rfl
    · exact (ahead ⟨row,old,rfl⟩).imp_left (fun published => grows published)
    · exact .inr (fun passed => clean (.inl ⟨event,rfl,rfl,by simp [insertion],passed⟩))
  · rw [db,stored_markPublished] at stored
    rw [db,passed_markPublished_iff]
    rcases ahead stored with published | below
    · exact .inl (grows published)
    · by_cases here : name = other ∧ x ≤ event.id
      · obtain ⟨rfl,le⟩ := here
        rcases le.lt_or_eq with above | rfl
        · refine .inl (grows ?_)
          by_contra missing
          exact clean (.inr ⟨_,marks,rfl,above,stored,missing⟩)
        · exact .inl (marked_published acked stepped marks)
      · exact .inr (by tauto)
  · have before : Passed t.db name x ↔ Passed s.db name x := by rw [Passed,Passed,quiet.marks]
    rw [before]
    exact (ahead (quiet.stored x stored)).imp_left (fun published => grows published)

def permanent : Outcome → Bool
  | .permanent _ => true
  | _ => false
inductive Goes (cfg : Config) (s : State) (name : String) : Action → Loop → Prop
  | stays {a : Action} : Goes cfg s name a (s.loops name)
  | rests {a : Action} : Goes cfg s name a .idle
  | ends {a : Action} : Goes cfg s name a .stopped
  | fetched {reads now batch} : getPendingEventsForPublisher s.db name now cfg.batchSize = some batch →
      Goes cfg s name (.tick name reads now) (.proceed batch)
  | published {event rest now} : s.loops name = .draining event rest → Goes cfg s name (.publish name .success now) (.acking event rest)
  | failed {event rest outcome message now} : s.loops name = .draining event rest →
      permanent outcome = true ∨ (outcome ≠ .success ∧ cfg.maxRetries ≤ s.publisherFailCount name+1) →
      Goes cfg s name (.publish name outcome now) (.failing event message rest)
  | later {event rest outcome now} : s.loops name = .draining event rest → Goes cfg s name (.publish name outcome now) (.proceed rest)
  | acknowledged {event rest commits now} : s.loops name = .acking event rest →
      Goes cfg s name (.acknowledge name commits now) (.proceed rest)
  | marked {event message rest updates now} : s.loops name = .failing event message rest →
      Goes cfg s name (.fail name updates now) (.proceed rest)

variable {loop : Loop} {rest : List Event}

theorem goes_update {other : String} {loop : Loop} (goes : Goes cfg s other a loop) :
    Goes cfg s name a (update s.loops other loop name) := by
  by_cases same : name = other
  · rw [same,update_self]
    exact same ▸ goes
  · rw [update_of_ne same]
    exact .stays
theorem publish_goes (cfg : Config) {event : Event} {rest : List Event} {outcome : Outcome} {now : Time} (draining : s.loops name = .draining event rest) :
    ∃ loop, (publish cfg s name event rest outcome now).loops = update s.loops name loop ∧
      Goes cfg s name (.publish name outcome now) loop := by
  have retried : ∀ orphans message, outcome ≠ .success → ∃ loop,
      (retryLater cfg { s with orphans } name event rest message now).loops = update s.loops name loop ∧
        Goes cfg s name (.publish name outcome now) loop := by
    intro orphans message fails
    simp only [retryLater]
    split
    · next limit => exact ⟨_,rfl,.failed draining (.inr ⟨fails,limit⟩)⟩
    · exact ⟨_,rfl,.later draining⟩
  cases outcome with
  | success => exact ⟨_,rfl,.published draining⟩
  | permanent message =>
    simp only [publish]
    split
    · exact ⟨_,rfl,.rests⟩
    · exact ⟨_,rfl,.failed draining (.inl rfl)⟩
  | transient message =>
    simp only [publish]
    split
    · exact ⟨_,rfl,.rests⟩
    · exact retried s.orphans message nofun
  | timeout =>
    simp only [publish]
    split
    · exact ⟨_,rfl,.rests⟩
    · exact retried _ _ nofun
theorem proceed_not_acking (batch : List Event) (event : Event) (rest : List Event) : Loop.proceed batch ≠ .acking event rest := by
  cases batch <;> simp [Loop.proceed]
def KeepsAcks (s t : State) : Prop := ∀ name event rest, t.loops name = .acking event rest → s.loops name = .acking event rest
section
variable (stepped : step cfg s a = some t)
include stepped
theorem step_goes : Goes cfg s name a (t.loops name) := by
  cases a with
  | requeue | markPublished | cleanup =>
    cases stepped
    exact .stays
  | store | orphan =>
    obtain ⟨_,rfl⟩ := guarded stepped
    exact .stays
  | tick other reads now =>
    obtain ⟨_,rfl⟩ := guarded stepped
    unfold fetch
    split
    · exact .stays
    · split
      · split
        · exact .stays
        · next query => exact goes_update (.fetched query)
      · exact .stays
  | publish =>
    simp only [step] at stepped
    split at stepped <;> cases stepped
    next draining =>
    obtain ⟨loop,moved,goes⟩ := publish_goes cfg draining
    exact moved ▸ goes_update goes
  | acknowledge =>
    simp only [step] at stepped
    split at stepped <;> cases stepped
    next acking => exact goes_update (.acknowledged acking)
  | fail =>
    simp only [step] at stepped
    split at stepped <;> cases stepped
    next failing => exact goes_update (.marked failing)
  | exit =>
    obtain ⟨_,rfl⟩ := guarded stepped
    exact goes_update .ends
  | stop =>
    simp only [step] at stepped
    split at stepped <;> cases stepped
    exact .stays
  | start =>
    obtain ⟨_,rfl⟩ := guarded stepped
    simp only [init]
    split
    · exact .rests
    · exact .ends
private theorem keepsAcks_step (unpublished : ∀ name now, a ≠ .publish name .success now) : KeepsAcks s t := by
  intro name event rest at_ack
  have goes : Goes cfg s name a (t.loops name) := step_goes stepped
  generalize t.loops name = loop at goes at_ack
  cases goes with
  | stays => exact at_ack
  | rests | ends | failed _ _ => cases at_ack
  | fetched _ | later _ | acknowledged _ | marked _ => exact absurd at_ack (proceed_not_acking _ _ _)
  | published _ => exact absurd rfl (unpublished name _)
/-- A loop gets to an acknowledgement only by a publish that succeeds. -/
theorem step_acking (at_ack : t.loops name = .acking event rest) : s.loops name = .acking event rest ∨ (name,event.id) ∈ t.published := by
  by_cases publishes : ∃ other now, a = .publish other .success now
  · obtain ⟨other,now,rfl⟩ := publishes
    simp only [step] at stepped
    split at stepped <;> cases stepped
    by_cases same : name = other
    · subst same
      simp only [publish,update_self,Loop.acking.injEq] at at_ack
      exact .inr (at_ack.1 ▸ List.mem_cons_self)
    · simp only [publish,update_of_ne same] at at_ack
      exact .inl at_ack
  · exact .inl (keepsAcks_step stepped (fun other now same => publishes ⟨other,now,same⟩) name event rest at_ack)
theorem acked_step (acked : Acked s) : Acked t := by
  intro name event rest at_ack
  rcases step_acking stepped at_ack with before | published
  · exact published_step stepped (acked name event rest before)
  · exact published
end
theorem acked_init : Acked (init cfg) := by
  intro name event rest at_ack
  simp only [init] at at_ack
  split at at_ack <;> cases at_ack

/-! ### The two guarantees -/

/-- Nobody but the drain loops calls `MarkPublished`. -/
def Own (_ : State) : Action → Prop
  | .markPublished .. => False
  | _ => True
section
variable (cfg : Config) (x : UUID)
/-- No publisher's mark gets past the event before the publisher has published it. -/
def KeepsBehind (s : State) (a : Action) : Prop :=
  Own s a ∧ ∀ name ∈ publisherNames cfg, ¬ Overtakes cfg name x s a

instance (s : State) (a : Action) : Decidable (Own s a) := by
  unfold Own
  split <;> infer_instance
instance (s : State) (a : Action) : Decidable (KeepsBehind cfg x s a) :=
  inferInstanceAs (Decidable (_ ∧ _))

/-- The invariant of such runs: a publisher's mark is below the event until it has published it. -/
structure Behind (cfg : Config) (x : UUID) (s : State) : Prop where
  acked : Acked s
  ahead : ∀ name ∈ publisherNames cfg, Stored s.db x → (name,x) ∈ s.published ∨ ¬ Passed s.db name x
  complete : HasStatus s.db x .completed → ∀ name ∈ publisherNames cfg, (name,x) ∈ s.published

private theorem behind_init : Behind cfg x (init cfg) where
  acked := acked_init
  ahead := by rintro name _ ⟨row,member,_⟩; exact absurd member (Table.not_mem_empty row)
  complete := by rintro ⟨row,member,_⟩; exact absurd member (Table.not_mem_empty row)
end
theorem behind_step (behind : Behind cfg x s) (keeps : KeepsBehind cfg x s a) (stepped : step cfg s a = some t) : Behind cfg x t := by
  obtain ⟨own,clean⟩ := keeps
  refine ⟨acked_step stepped behind.acked,
    fun name listed => ahead_step stepped (clean name listed) (behind.ahead name listed) behind.acked,?_⟩
  intro has name listed
  apply published_step stepped
  rcases step_effect stepped with ⟨event,_,fresh,insertion,_⟩ | ⟨other,event,publishers,now,marks,db,_⟩ | quiet
  · obtain ⟨row,member,same,status⟩ := has
    rcases ((store_some insertion).2.2 row).mp member with old | rfl
    · exact behind.complete ⟨row,old,same,status⟩ name listed
    · rcases fresh with pending | failed <;> simp_all [inserted]
  · rw [db] at has
    rcases hasStatus_markPublished has with before | ⟨rfl,_,reached⟩
    · exact behind.complete before name listed
    -- The event is completed by this step: every mark is at or above it.
    · rcases marked_cases marks with rfl | ⟨_,rfl,rest,at_ack⟩
      · exact own.elim
      · have stored : Stored s.db event.id := by
          obtain ⟨row,member,same,_⟩ := has
          exact stored_markPublished.mp ⟨row,member,same⟩
        rcases reached name listed with passed | ⟨rfl,_⟩
        · rcases behind.ahead name listed stored with published | below
          · exact published
          · exact absurd passed below
        · exact behind.acked name event rest at_ack
  · exact behind.complete (quiet.completed x has) name listed

/-- While no mark gets past the event too early, it is completed only once every publisher has published it. -/
theorem completed_published (cfg : Config) (x : UUID) {s : State} (run : Reach (step cfg) (KeepsBehind cfg x) (init cfg) s)
    (completed : HasStatus s.db x .completed) : ∀ name ∈ publisherNames cfg, (name,x) ∈ s.published :=
  (run.invariant (behind_init cfg x) behind_step).complete completed

/-- The second of two publishers fails on the first event and publishes the second one before the first is done. -/
def twoPublishers : Config := { publisher := .multi 2, batchSize := 10, maxRetries := 3, pow := fun _ => 2 }
def skipping : List Action :=
  [.store (newEvent 1 0 "user.created" "" none none),.store (newEvent 2 0 "user.created" "" none none),
    .tick "publisher-1" true 1,.publish "publisher-1" (.transient "unreachable") 1,.publish "publisher-1" .success 1,
    .acknowledge "publisher-1" true 1,
    .tick "publisher-0" true 2,.publish "publisher-0" .success 2,.acknowledge "publisher-0" true 2]
theorem completed_unpublished : ¬ ∀ (cfg : Config) (s : State) (x : UUID), Reach (step cfg) Own (init cfg) s →
    HasStatus s.db x .completed → ∀ name ∈ publisherNames cfg, (name,x) ∈ s.published := by
  intro claim
  obtain ⟨s,ran,completed,missing⟩ := run_seen (step twoPublishers) (init twoPublishers) skipping
    (fun s => HasStatus s.db 1 .completed ∧ ("publisher-1",1) ∉ s.published) (by decide +kernel)
  exact missing (claim twoPublishers s 1 (run_reach ran (by decide +kernel)) completed "publisher-1" (by decide))
def inOrder : List Action :=
  [.store (newEvent 1 0 "user.created" "" none none),
    .tick "publisher-1" true 1,.publish "publisher-1" .success 1,.acknowledge "publisher-1" true 1,
    .tick "publisher-0" true 2,.publish "publisher-0" .success 2,.acknowledge "publisher-0" true 2]
theorem completed_published_inOrder : ∃ s, Reach (step twoPublishers) (KeepsBehind twoPublishers 1) (init twoPublishers) s ∧
    HasStatus s.db 1 .completed ∧ ∀ name ∈ publisherNames twoPublishers, (name,1) ∈ s.published :=
  reach_seen inOrder (by decide +kernel) (by decide +kernel) (fun _ run completed => completed_published twoPublishers 1 run completed)

/-- A pending event that a publisher has not published is returned to it, with a large enough limit, exactly when no
    step of the history overtook it. -/
theorem returned_iff_not_overtaken (cfg : Config) (name : String) (x : UUID) (now : Time) {actions : List Action} {s : State}
    {row : Event} (ran : run (step cfg) (init cfg) actions = some s) (member : row ∈ s.db.events) (same : row.id = x)
    (pending : row.status = .pending) (unpublished : (name,x) ∉ s.published) :
    (∃ N : Int, ∀ n ≥ N, ∃ batch, getPendingEventsForPublisher s.db name now n = some batch ∧ scanEvent row ∈ batch) ↔
      Along (step cfg) (fun s a => ¬ Overtakes cfg name x s a) (init cfg) actions := by
  have due : pendingFor s.db name now row = true ↔ ¬ Passed s.db name x := by
    rw [not_passed_iff]
    cases mark : s.db.progress name <;> simp [pendingFor,pending,same,mark]
  rw [returned_iff s.db name now member,due]
  constructor
  · intro below
    generalize init cfg = start at ran
    induction actions generalizing start with
    | nil => trivial
    | cons a rest ih =>
      obtain ⟨next,stepped,ran⟩ := run_cons ran
      refine (along_cons stepped).mpr ⟨fun overtakes => below ?_,ih next ran⟩
      exact (run_any ran).invariant (I := fun u => Passed u.db name x) (overtakes_passed stepped overtakes)
        (fun passed _ stepped => passed_step stepped passed)
  · intro clean
    have invariant := (run_reach ran clean).invariant
      (I := fun u => Acked u ∧ (Stored u.db x → (name,x) ∈ u.published ∨ ¬ Passed u.db name x))
      ⟨acked_init,by rintro ⟨row,member,_⟩; exact absurd member (Table.not_mem_empty row)⟩
      (fun ⟨acked,ahead⟩ clean stepped => ⟨acked_step stepped acked,ahead_step stepped clean ahead acked⟩)
    rcases invariant.2 ⟨row,member,same⟩ with published | below
    · exact absurd published unpublished
    · exact below

def onePublisher : Config := { publisher := .console, batchSize := 10, maxRetries := 3, pow := fun _ => 2 }
/-- An event is stored after another has been acknowledged. -/
def storedAfter (first second : UUID) : List Action :=
  [.store (newEvent first 0 "user.created" "" none none),.tick "console" true 1,.publish "console" .success 1,
    .acknowledge "console" true 1,.store (newEvent second 2 "user.created" "" none none)]
/-- The other one has the greater ID. -/
theorem pending_stranded : ¬ ∀ (cfg : Config) (name : String) (now : Time) (actions : List Action) (s : State) (row : Event),
    run (step cfg) (init cfg) actions = some s → row ∈ s.db.events → row.status = .pending → (name,row.id) ∉ s.published →
    ∃ N : Int, ∀ n ≥ N, ∃ batch, getPendingEventsForPublisher s.db name now n = some batch ∧ scanEvent row ∈ batch := by
  intro claim
  let row := newEvent 1 2 "user.created" "" none none
  obtain ⟨s,ran,member,unpublished,passed⟩ := run_seen (step onePublisher) (init onePublisher) (storedAfter 2 1)
    (fun s => row ∈ s.db.events.rows ∧ ("console",row.id) ∉ s.published ∧ pendingFor s.db "console" 3 row = false)
    (by decide +kernel)
  have due := (returned_iff s.db "console" 3 member).mp
    (claim onePublisher "console" 3 (storedAfter 2 1) s row ran member rfl unpublished)
  rw [passed] at due
  cases due
theorem returned_iff_not_overtaken_once :
    let row := newEvent 2 2 "user.created" "" none none
    ∃ s, run (step onePublisher) (init onePublisher) (storedAfter 1 2) = some s ∧ s.published = [("console",1)] ∧
      ((∃ N : Int, ∀ n ≥ N, ∃ batch, getPendingEventsForPublisher s.db "console" 3 n = some batch ∧ scanEvent row ∈ batch) ↔
        Along (step onePublisher) (fun s a => ¬ Overtakes onePublisher "console" 2 s a) (init onePublisher) (storedAfter 1 2)) := by
  intro row
  obtain ⟨s,ran,member,published⟩ := run_seen (step onePublisher) (init onePublisher) (storedAfter 1 2)
    (fun s => row ∈ s.db.events.rows ∧ s.published = [("console",1)]) (by decide +kernel)
  have unpublished : ("console",2) ∉ s.published := by simp [published]
  exact ⟨s,ran,published,returned_iff_not_overtaken onePublisher "console" 2 3 ran member rfl rfl unpublished⟩

end Stellabill.HighWater
