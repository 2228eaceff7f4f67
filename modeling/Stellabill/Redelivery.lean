import Stellabill.HighWater

/-!
What the drain loops of the dispatcher do with an event over time. A loop of an earlier start
that is still within its batch may publish an event again. The failures are counted for the
publisher, so that an event may be marked failed for the failures of others.
-/
namespace Stellabill.Redelivery
open Keyed Transitions Uuid Outbox Dispatcher HighWater List

/-- The dispatcher, the loops of earlier starts that still run, and the events each publisher has acknowledged, tried,
    and counted as failures. -/
structure History where
  base : State
  older : List (String × Loop)
  acked : List (String × UUID)
  tried : List (String × UUID)
  counted : String → List UUID
def start (cfg : Config) : History := ⟨init cfg,[],[],[],fun _ => []⟩

/-- A step of the dispatcher; an older loop takes the turn of the newer one, or ends; `Start` is called while `Stop` waits. -/
inductive Turn
  | act (a : Action)
  | swap (i : Nat)
  | leave (i : Nat)
  | restart
  deriving DecidableEq

/-- The publisher, event and outcome of a `Publish` that is started. -/
def attempt (s : State) : Turn → Option (String × UUID × Outcome)
  | .act (.publish name outcome _) =>
    match s.loops name with
    | .draining event _ => some (name,event.id,outcome)
    | _ => none
  | _ => none
/-- The publisher and event of a `MarkPublished` that returns nil. -/
def acknowledged (s : State) : Action → Option (String × UUID)
  | .acknowledge name true _ =>
    match s.loops name with
    | .acking event _ => some (name,event.id)
    | _ => none
  | _ => none

/-- The history after a step. The counter has counted a failure where it has changed, and forgotten all where it is zero. -/
def record (s : History) (a : Action) (base : State) : History :=
  let tries := (attempt s.base (.act a)).toList
  { s with
    base
    acked := (acknowledged s.base a).toList ++ s.acked
    tried := tries.map (fun p => (p.1,p.2.1)) ++ s.tried
    counted := fun name =>
      if base.publisherFailCount name = 0 then []
      else if base.publisherFailCount name = s.base.publisherFailCount name then s.counted name
      else tries.map (fun p => p.2.1) ++ s.counted name }
def step (cfg : Config) (s : History) : Turn → Option History
  | .act a => if Own s.base a then (Dispatcher.step cfg s.base a).map (record s a) else none
  | .swap i =>
    match s.older[i]? with
    | some (name,loop) => some { s with base := s.base.goto name loop, older := s.older.set i (name,s.base.loops name) }
    | none => none
  | .leave i =>
    match s.older[i]? with
    | some (_,.idle) => some { s with older := s.older.eraseIdx i }
    | _ => none
  | .restart =>
    if s.base.cancelled then
      some { s with
        base := { s.base with
          cancelled := false
          loops := (init cfg).loops
          publisherFailCount := fun _ => 0
          publisherNextAttempt := fun _ => none }
        older := s.older ++ (publisherNames cfg).map (fun name => (name,s.base.loops name)) |>.filter (·.2 ≠ .stopped)
        counted := fun _ => [] }
    else none

variable {cfg : Config} {s t : State} {a : Action} {name : String}

theorem count_step (name : String) (stepped : Dispatcher.step cfg s a = some t) : t.publisherFailCount name = 0 ∨
    t.publisherFailCount name = s.publisherFailCount name ∨
    (t.publisherFailCount name = s.publisherFailCount name+1 ∧ ∃ id outcome, attempt s (.act a) = some (name,id,outcome)) := by
  cases a with
  | requeue | markPublished | cleanup =>
    cases stepped
    exact .inr (.inl rfl)
  | store | orphan | exit =>
    obtain ⟨_,rfl⟩ := guarded stepped
    exact .inr (.inl rfl)
  | acknowledge | fail | stop =>
    simp only [Dispatcher.step] at stepped
    split at stepped <;> cases stepped
    exact .inr (.inl rfl)
  | tick =>
    obtain ⟨_,rfl⟩ := guarded stepped
    simp only [fetch]
    split_ifs <;> (try split) <;> exact .inr (.inl rfl)
  | publish other outcome now =>
    simp only [Dispatcher.step] at stepped
    split at stepped <;> cases stepped
    next event rest draining =>
    by_cases same : name = other
    · subst same
      simp only [publish,retryLater,attempt,draining]
      split <;> (try split_ifs) <;> simp [State.goto]
    · simp only [publish,retryLater]
      split <;> (try split_ifs) <;> simp [State.goto,same]
  | start =>
    obtain ⟨_,rfl⟩ := guarded stepped
    exact .inl rfl

/-- The events are in the order of their IDs, above the mark of the publisher. -/
def Above (db : Tables) (name : String) (batch : List Event) : Prop :=
  batch.Pairwise (fun a b => a.id < b.id) ∧ ∀ event ∈ batch, ¬ Passed db name event.id
/-- The events that a loop has yet to publish, acknowledge or mark. -/
def batch : Loop → List Event
  | .draining event rest | .acking event rest | .failing event _ rest => event :: rest
  | .idle | .stopped => []
theorem batch_proceed (events : List Event) : batch (.proceed events) = events := by cases events <;> rfl

theorem above_nil {db : Tables} : Above db name [] := by simp [Above]
theorem above_pending {db : Tables} {now : Time} {limit : Int} {events : List Event}
    (query : getPendingEventsForPublisher db name now limit = some events) : Above db name events := by
  unfold getPendingEventsForPublisher at query
  split at query <;> cases query
  have rows : ∀ row ∈ ((db.events.rows.filter (pendingFor db name now)).insertionSort (fun a b => a.id ≤ b.id)).take limit.toNat,
      row ∈ db.events.rows ∧ pendingFor db name now row = true := fun row taken =>
    mem_filter.mp ((mem_insertionSort _).mp (mem_of_mem_take taken))
  refine ⟨pairwise_map.mpr ?_,?_⟩
  · have sorted := pairwise_insertionSort (fun a b : Event => a.id ≤ b.id) (db.events.rows.filter (pendingFor db name now))
    have distinct := (perm_insertionSort (fun a b : Event => a.id ≤ b.id) _).symm.pairwise
      ((pairwise_map.mp db.events.unique).filter (pendingFor db name now)) Ne.symm
    exact ((sorted.and distinct).imp (fun both => lt_of_le_of_ne both.1 both.2)).take
  · intro event listed
    obtain ⟨row,taken,rfl⟩ := mem_map.mp listed
    have pending := (rows row taken).2
    simp only [pendingFor,decide_eq_true_eq,Option.all_eq_true] at pending
    exact not_passed_iff.mpr pending.2

/-- No `Start` while the loops of an earlier one still run. -/
def Settled (_ : History) (a : Turn) : Prop := a ≠ .restart
  deriving Decidable

structure Acked (s : History) : Prop where
  single : s.older = []
  passed : ∀ p ∈ s.acked, Passed s.base.db p.1 p.2
  above : ∀ name, Above s.base.db name (batch (s.base.loops name))

theorem passed_act (own : Own s a) (stepped : Dispatcher.step cfg s a = some t) {x : UUID} (passed : Passed t.db name x) :
    Passed s.db name x ∨ ∃ event rest, s.loops name = .acking event rest ∧ t.loops name = .proceed rest ∧ x ≤ event.id := by
  rcases step_effect stepped with ⟨_,_,_,insertion,_⟩ | ⟨other,event,publishers,now,marks,db,_⟩ | quiet
  · rw [Passed,(store_some insertion).2.1] at passed
    exact .inl passed
  · rcases marked_cases marks with rfl | ⟨rfl,_,rest,acking⟩
    · exact own.elim
    · rw [db,passed_markPublished_iff] at passed
      refine passed.imp_right ?_
      rintro ⟨rfl,below⟩
      simp only [Dispatcher.step,acking,Option.some.injEq] at stepped
      exact ⟨event,rest,acking,by simp [← stepped,State.goto],below⟩
  · rw [Passed,quiet.marks] at passed
    exact .inl passed
private theorem passed_acknowledged (stepped : Dispatcher.step cfg s a = some t) {p : String × UUID} (acks : acknowledged s a = some p) :
    Passed t.db p.1 p.2 := by
  revert stepped acks
  fun_cases acknowledged s a
  · next name now event rest acking =>
    intro stepped acks
    cases acks
    have marks : marked cfg s (.acknowledge name true now) = some (name,event,publisherNames cfg,now) := by
      simp [marked,acking]
    rw [marked_db stepped marks]
    exact passed_markPublished_iff.mpr (.inr ⟨rfl,le_rfl⟩)
  all_goals rintro _ ⟨⟩
private theorem above_goes {loop : Loop} (above : Above s.db name (batch (s.loops name))) (goes : Goes cfg s name a loop) :
    Above s.db name (batch loop) := by
  have rest : ∀ event events, batch (s.loops name) = event :: events → Above s.db name events := by
    intro event events same
    rw [same] at above
    exact ⟨(pairwise_cons.mp above.1).2,fun e listed => above.2 e (mem_cons_of_mem event listed)⟩
  cases goes with
  | stays => exact above
  | rests | ends => exact above_nil
  | fetched query => rw [batch_proceed]; exact above_pending query
  | published draining | failed draining _ => rw [draining] at above; exact above
  | later at_ | acknowledged at_ | marked at_ => rw [batch_proceed]; exact rest _ _ (by rw [at_]; rfl)

private theorem acked_act {s : History} {base : State} (acked : Acked s) (own : Own s.base a)
    (stepped : Dispatcher.step cfg s.base a = some base) : Acked (record s a base) := by
  refine ⟨acked.single,?_,fun name => ?_⟩
  · intro p listed
    rcases mem_append.mp listed with new | old
    · exact passed_acknowledged stepped (Option.mem_toList.mp new)
    · exact passed_step stepped (acked.passed p old)
  · obtain ⟨sorted,ahead⟩ := above_goes (acked.above name) (step_goes stepped)
    refine ⟨sorted,fun e listed passed => ?_⟩
    rcases passed_act own stepped passed with before | ⟨event,rest,acking,moved,below⟩
    · exact ahead e listed before
    · have above := (acked.above name).1
      rw [acking] at above
      simp only [record,moved,batch_proceed] at listed
      exact absurd ((pairwise_cons.mp above).1 e listed) (not_lt.mpr below)
theorem acked_step {s t : History} {a : Turn} (acked : Acked s) (settled : Settled s a) (stepped : step cfg s a = some t) : Acked t := by
  cases a with
  | act a =>
    obtain ⟨own,mapped⟩ := Option.ite_none_right_eq_some.mp stepped
    obtain ⟨base,moved,rfl⟩ := Option.map_eq_some_iff.mp mapped
    exact acked_act acked own moved
  | swap i | leave i => simp [step,acked.single] at stepped
  | restart => exact absurd rfl settled
private theorem acked_start (cfg : Config) : Acked (start cfg) := by
  refine ⟨rfl,by simp [start],fun name => ?_⟩
  simp only [start,init]
  split <;> exact above_nil

/-- Where `Start` is called only after the loops have ended, no publisher starts to publish what it has acknowledged. -/
theorem not_republished (cfg : Config) {s : History} (run : Reach (step cfg) Settled (start cfg) s) (a : Turn) :
    ∀ p ∈ attempt s.base a, (p.1,p.2.1) ∉ s.acked := by
  have acked : Acked s := run.invariant (acked_start cfg) acked_step
  fun_cases attempt s.base a
  · next name outcome now event rest draining =>
    rintro p ⟨⟩ listed
    have above := acked.above name
    rw [draining] at above
    exact above.2 event mem_cons_self (acked.passed _ listed)
  all_goals nofun
/-- A publish of the second event of a batch, after the first one has been acknowledged. -/
theorem not_republished_second : ∃ s, Reach (step onePublisher) Settled (start onePublisher) s ∧ s.acked = [("console",1)] ∧
    attempt s.base (.act (.publish "console" .timeout 2)) = some ("console",2,.timeout) ∧ ("console",2) ∉ s.acked := by
  refine exists_reach
    [.act (.store (newEvent 1 0 "user.created" "" none none)),.act (.store (newEvent 2 0 "user.created" "" none none)),
      .act (.tick "console" true 1),.act (.publish "console" .success 1),.act (.acknowledge "console" true 1)]
    (fun s => s.acked = [("console",1)] ∧ attempt s.base (.act (.publish "console" .timeout 2)) = some ("console",2,.timeout)) (by decide +kernel)
    (by decide +kernel) ?_
  rintro s run ⟨acked,tries⟩
  exact ⟨acked,tries,not_republished onePublisher run _ _ tries⟩
/-- The loop of the first start publishes what the loop of the second start has acknowledged. -/
theorem republished : ¬ ∀ (cfg : Config) (s : History) (a : Turn), Reach (step cfg) Any (start cfg) s →
    ∀ p ∈ attempt s.base a, (p.1,p.2.1) ∉ s.acked := by
  intro claim
  obtain ⟨s,ran,again,tries⟩ := run_seen (step onePublisher) (start onePublisher)
    [.act (.store (newEvent 1 0 "user.created" "" none none)),.act (.tick "console" true 1),.act .stop,.restart,.act (.tick "console" true 2),
      .act (.publish "console" .success 2),.act (.acknowledge "console" true 2),.swap 0]
    (fun s => ("console",1) ∈ s.acked ∧ attempt s.base (.act (.publish "console" .success 3)) = some ("console",1,.success)) (by decide +kernel)
  exact claim onePublisher s _ (run_any ran) _ tries again

/-! ### Retries -/

/-- The loop runs for the publisher. -/
def Runs (s : History) (name : String) (loop : Loop) : Prop := s.base.loops name = loop ∨ (name,loop) ∈ s.older
/-- The errors of the event are not permanent, and when it fails the counter holds failures of this event only. -/
def Alone (name : String) (x : UUID) (s : History) (a : Turn) : Prop :=
  ∀ p ∈ attempt s.base a, p.1 = name → p.2.1 = x → p.2.2 = .success ∨ (permanent p.2.2 = false ∧ (s.counted name).all (· = x))
  deriving Decidable

structure Counts (cfg : Config) (name : String) (x : UUID) (s : History) : Prop where
  count : s.base.publisherFailCount name = (s.counted name).length
  tried : (s.counted name).count x ≤ s.tried.count (name,x)
  failing : ∀ event message rest, Runs s name (.failing event message rest) → event.id = x → cfg.maxRetries ≤ s.tried.count (name,x)

theorem counts_act {s : History} {base : State} {x : UUID} (counts : Counts cfg name x s) (alone : Alone name x s (.act a))
    (stepped : Dispatcher.step cfg s.base a = some base) : Counts cfg name x (record s a base) := by
  have grows : s.tried.count (name,x) ≤ (record s a base).tried.count (name,x) := by simp [record]
  have both : base.publisherFailCount name = ((record s a base).counted name).length ∧
      ((record s a base).counted name).count x ≤ (record s a base).tried.count (name,x) := by
    simp only [record] at grows ⊢
    split_ifs with zero kept
    · simp [zero]
    · exact ⟨kept.trans counts.count,counts.tried.trans grows⟩
    · rcases count_step name stepped with forgot | same | ⟨more,id,outcome,tries⟩
      · exact absurd forgot zero
      · exact absurd same kept
      · have before := counts.tried
        simp only [tries,more,counts.count,Option.toList_some,map_cons,map_nil,cons_append,nil_append,count_cons]
        by_cases its : id = x <;> simp [its,before]
  refine ⟨both.1,both.2,?_⟩
  intro event message rest runs same
  have old : Runs s name (.failing event message rest) → cfg.maxRetries ≤ (record s a base).tried.count (name,x) := fun runs =>
    (counts.failing event message rest runs same).trans (by exact_mod_cast grows)
  rcases runs with here | older
  · have goes : Goes cfg s.base name a (base.loops name) := step_goes stepped
    have moving : ∀ events, Loop.proceed events ≠ .failing event message rest := by intro events; cases events <;> simp [Loop.proceed]
    simp only [record] at here
    generalize base.loops name = loop at goes here
    cases goes with
    | stays => exact old (.inl here)
    | rests | ends | published _ => cases here
    | fetched _ | later _ | acknowledged _ | marked _ => exact absurd here (moving _)
    | @failed _ _ outcome _ now draining why =>
      cases here
      have tries : attempt s.base (.act (.publish name outcome now)) = some (name,event.id,outcome) := by simp only [attempt,draining]
      rcases alone _ tries rfl same with rfl | ⟨passing,only⟩
      · simp [permanent] at why
      · obtain ⟨_,limit⟩ := why.resolve_left (by simp [passing])
        have all : (s.counted name).count x = (s.counted name).length := count_eq_length.mpr (fun y listed => (of_decide_eq_true (all_eq_true.mp only y listed)).symm)
        have before := counts.tried
        rw [counts.count] at limit
        simp only [record,tries,same,Option.toList_some,map_cons,map_nil,cons_append,nil_append,count_cons_self]
        omega
  · exact old (.inr older)
theorem init_not_failing (cfg : Config) (name : String) (event : Event) (message : String) (rest : List Event) :
    (init cfg).loops name ≠ .failing event message rest := by
  simp only [init]
  split <;> simp
private theorem counts_step {s t : History} {a : Turn} {x : UUID} (counts : Counts cfg name x s) (alone : Alone name x s a)
    (stepped : step cfg s a = some t) : Counts cfg name x t := by
  cases a with
  | act a =>
    obtain ⟨_,mapped⟩ := Option.ite_none_right_eq_some.mp stepped
    obtain ⟨base,moved,rfl⟩ := Option.map_eq_some_iff.mp mapped
    exact counts_act counts alone moved
  | swap i =>
    simp only [step] at stepped
    split at stepped <;> cases stepped
    next other loop at_ =>
    refine ⟨counts.count,counts.tried,fun e m r runs => counts.failing e m r ?_⟩
    rcases runs with here | older
    · simp only [State.goto,Function.update_apply] at here
      split at here
      · next same => exact .inr (here ▸ same ▸ mem_of_getElem? at_)
      · exact .inl here
    · rcases mem_or_eq_of_mem_set older with before | swapped
      · exact .inr before
      · obtain ⟨rfl,its⟩ := Prod.mk.inj swapped
        exact .inl its.symm
  | leave i =>
    simp only [step] at stepped
    split at stepped <;> cases stepped
    exact ⟨counts.count,counts.tried,fun e m r runs => counts.failing e m r (runs.imp_right mem_of_mem_eraseIdx)⟩
  | restart =>
    obtain ⟨_,rfl⟩ := guarded stepped
    refine ⟨rfl,by simp,fun e m r runs same => ?_⟩
    rcases runs with here | older
    · exact absurd here (init_not_failing cfg name e m r)
    · refine counts.failing e m r ?_ same
      simp only [mem_filter,mem_append,mem_map,Prod.mk.injEq] at older
      rcases older.1 with before | ⟨_,_,rfl,its⟩
      · exact .inr before
      · exact .inl its

/-- Where the counter holds failures of the event only whenever that fails, the event is marked failed after
    `MaxRetries` attempts or more. -/
theorem failed_after (cfg : Config) (name : String) (x : UUID) {s : History} (run : Reach (step cfg) (Alone name x) (start cfg) s)
    {event : Event} {message : String} {rest : List Event} (failing : Runs s name (.failing event message rest)) (same : event.id = x) :
    cfg.maxRetries ≤ s.tried.count (name,x) := by
  have counts : Counts cfg name x s := run.invariant ⟨rfl,by simp [start],fun e m r runs => absurd (runs.resolve_right not_mem_nil) (init_not_failing cfg name e m r)⟩
    counts_step
  exact counts.failing event message rest failing same

/-- Two attempts. -/
def twice : Config := { onePublisher with maxRetries := 2 }
/-- The event alone in its batch, tried as often as the limit says. -/
theorem failed_after_two : ∃ s, Reach (step twice) (Alone "console" 1) (start twice) s ∧
    s.tried = [("console",1),("console",1)] ∧ twice.maxRetries ≤ s.tried.count ("console",1) := by
  refine exists_reach
    [.act (.store (newEvent 1 0 "user.created" "" none none)),.act (.tick "console" true 1),.act (.publish "console" .timeout 1),
      .act (.tick "console" true 3000000000),.act (.publish "console" .timeout 3000000000)]
    (fun s => s.tried = [("console",1),("console",1)] ∧
      s.base.loops "console" = .failing (newEvent 1 0 "user.created" "" none none) "processing timeout" []) (by decide +kernel)
    (by decide +kernel) ?_
  rintro s run ⟨tried,failing⟩
  exact ⟨tried,failed_after twice "console" 1 run (.inl failing) rfl⟩
/-- The third event of a batch is marked failed after its first attempt, as the two before it have failed. -/
theorem failed_at_once : ¬ ∀ (cfg : Config) (name : String) (s : History) (event : Event) (message : String) (rest : List Event),
    Reach (step cfg) (fun s a => ∀ p ∈ attempt s.base a, permanent p.2.2 = false) (start cfg) s →
    Runs s name (.failing event message rest) → cfg.maxRetries ≤ s.tried.count (name,event.id) := by
  intro claim
  obtain ⟨s,ran,tried,failing⟩ := run_seen (step onePublisher) (start onePublisher)
    ([1,2,3].map (fun id => .act (.store (newEvent id 0 "user.created" "" none none))) ++ [.act (.tick "console" true 1)] ++
      List.replicate 3 (.act (.publish "console" .timeout 1)))
    (fun s => s.tried = [("console",3),("console",2),("console",1)] ∧
      s.base.loops "console" = .failing (newEvent 3 0 "user.created" "" none none) "processing timeout" []) (by decide +kernel)
  have run := run_reach ran (show Along (step onePublisher) (fun s a => ∀ p ∈ attempt s.base a, permanent p.2.2 = false)
    (start onePublisher) _ from by decide +kernel)
  have few := claim onePublisher "console" s _ _ _ run (.inl failing)
  rw [tried] at few
  exact absurd few (by decide)

end Stellabill.Redelivery
