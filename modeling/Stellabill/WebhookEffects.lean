import Stellabill.WebhookInbox

/-!
What a row of the inbox leaves in the outbox. The event is stored and the status of the
row is written by two statements, and a row that is processing is never claimed again.
-/
namespace Stellabill.WebhookEffects
open Keyed Transitions Program Uuid WebhookInbox Table List

/-- The type of the outbox event and its deduplication ID, if the field is there. -/
def named (event : WebhookEvent) (field eventType : String) : Option (String × String) :=
  match Json.lookup field event.data with
  | some (.str value) => if value = "" then none else some (eventType,value)
  | _ => none
/-- The type and the deduplication ID of the outbox event of a valid and recognised payload. -/
def target (codec : Codec) (payload : String) : Option (String × String) :=
  match codec.unmarshal payload with
  | .error _ => none
  | .ok event =>
    if event.eventType = "subscription.created" then named event "subscription_id" "internal.subscription.provisioned"
    else if event.eventType = "statement.issued" then named event "statement_id" "internal.statement.ready"
    else none

def IsFor (goal : String × String) (e : Outbox.Event) : Prop := e.eventType = goal.1 ∧ e.deduplicationID = some goal.2
def StoredOnce (outbox : Outbox.Tables) (goal : String × String) : Prop :=
  ∃ e ∈ outbox.events.rows, IsFor goal e ∧ ∀ e' ∈ outbox.events.rows, IsFor goal e' → e' = e

variable {codec : Codec} {draw : Draw} {e : Outbox.Event}

private theorem processField_ok {event : WebhookEvent} {field aggregateType eventType : String}
    (made : processField codec event draw field aggregateType eventType = .ok e) :
    ∃ value, named event field eventType = some (eventType,value) ∧ IsFor (eventType,value) e := by
  revert made
  fun_cases processField codec event draw field aggregateType eventType
  all_goals intro made; cases made
  next value found given _ _ => exact ⟨value,by simp [named,found,given],rfl,rfl⟩
private theorem outboxEvent_ok {payload : String} (made : outboxEvent codec payload draw = .ok e) :
    ∃ goal, target codec payload = some goal ∧ IsFor goal e := by
  unfold outboxEvent at made
  unfold target
  cases read : codec.unmarshal payload with
  | error message =>
    rw [read] at made
    cases made
  | ok event =>
    rw [read] at made
    dsimp only at made ⊢
    split_ifs at made ⊢ with created issued
    · obtain ⟨value,its,isFor⟩ := processField_ok made
      exact ⟨_,its,isFor⟩
    · obtain ⟨value,its,isFor⟩ := processField_ok made
      exact ⟨_,its,isFor⟩

section
variable (codec : Codec)
/-- The event of a valid row can be stored: its ID and its deduplication ID are new, and the outbox answers. -/
def Accepted (outbox : Outbox.Tables) (payload : String) (draw : Draw) (reply : Reply) : Prop :=
  match outboxEvent codec payload draw with
  | .error _ => target codec payload = none
  | .ok event => reply.error = none ∧ ∀ row ∈ outbox.events.rows, row.id ≠ event.id ∧ row.deduplicationID ≠ event.deduplicationID
instance (outbox : Outbox.Tables) (payload : String) (draw : Draw) (reply : Reply) :
    Decidable (Accepted codec outbox payload draw reply) := by
  unfold Accepted
  split <;> infer_instance

def Free (s : State) (number : Nat) : Prop := ∀ w ∈ s.workers.rows, w.number = number → w.phase.claimed = []
  deriving Decidable

/-- No worker is lost or leaves the rows in its hands, no answer of a claim is lost, every status is written, and the
    event of a valid row can be stored. -/
def Reliable (s : State) : Action → Prop
  | .arrive _ | .produce _ | .start _ | .query _ => True
  | .crash number | .close number => Free s number
  | .claim _ _ _ reply => reply.error = none ∨ reply.effective = false
  | .skip _ => False
  | .route number draw reply =>
    match s.workers.find number with
    | some ⟨_,.routing (row :: _)⟩ => Accepted codec s.outbox row.payload draw reply
    | _ => True
  | .report _ reply => reply.effective = true
instance (s : State) (a : Action) : Decidable (Reliable codec s a) := by
  unfold Reliable
  split <;> try split
  all_goals infer_instance

/-- A valid row that is processing is in the hands of a worker, does not fail, and once processed has exactly one event
    of its type. -/
def Settles (s : State) : Prop := ∀ r ∈ s.inbox.rows, ∀ goal, target codec r.payload = some goal →
  (r.status = .processing → InHand s r) ∧ r.status ≠ .failed ∧ (r.status = .processed → StoredOnce s.outbox goal)
end

/-- A deduplication ID is not stored twice. -/
def Deduplicated (outbox : Outbox.Tables) : Prop := ∀ e ∈ outbox.events.rows, ∀ e' ∈ outbox.events.rows, ∀ value,
  e.deduplicationID = some value → e'.deduplicationID = some value → e = e'
def HasEvent (outbox : Outbox.Tables) (goal : String × String) : Prop := ∃ e ∈ outbox.events.rows, IsFor goal e

structure Sound (codec : Codec) (s : State) : Prop where
  inv : Inv s
  live : ∀ r ∈ s.inbox, r.status = .processing → InHand s r
  reporting : ∀ w ∈ s.workers, ∀ row error rest, w.phase = .reporting row error rest → ∀ goal, target codec row.payload = some goal →
    error = none ∧ HasEvent s.outbox goal
  rows : ∀ r ∈ s.inbox, ∀ goal, target codec r.payload = some goal → r.status ≠ .failed ∧ (r.status = .processed → HasEvent s.outbox goal)
  deduplicated : Deduplicated s.outbox

section
variable {codec : Codec} {s : State}

theorem Sound.settles (sound : Sound codec s) : Settles codec s := by
  intro r member goal its
  obtain ⟨unfailed,stored⟩ := sound.rows r member goal its
  refine ⟨sound.live r member,unfailed,fun processed => ?_⟩
  obtain ⟨e,inOutbox,isFor⟩ := stored processed
  exact ⟨e,inOutbox,isFor,fun e' inOutbox' isFor' => sound.deduplicated e' inOutbox' e inOutbox goal.2 isFor'.2 isFor.2⟩

variable {outbox outbox' : Outbox.Tables} {goal : String × String} {event : Outbox.Event} {draw : Draw} {reply : Reply} {row : Claimed}
  {rest : List Claimed}

theorem Deduplicated.store (deduplicated : Deduplicated outbox) (stored : Outbox.store outbox event = some outbox') :
    Deduplicated outbox' := by
  obtain ⟨_,_,members⟩ := Outbox.store_some stored
  have new : ∀ row ∈ outbox.events.rows, ∀ value, event.deduplicationID = some value → row.deduplicationID ≠ some value := by
    intro row member value its same
    unfold Outbox.store at stored
    rw [if_pos ⟨by simp [its],row,member,same.trans its.symm⟩] at stored
    cases stored
  intro e member e' member' value its its'
  obtain old | rfl := (members e).mp member
  · obtain old' | rfl := (members e').mp member'
    · exact deduplicated e old e' old' value its its'
    · exact absurd its (new e old value its')
  · obtain old' | rfl := (members e').mp member'
    · exact absurd its' (new e' old' value its)
    · rfl
theorem HasEvent.store (has : HasEvent outbox goal) (stored : Outbox.store outbox event = some outbox') : HasEvent outbox' goal := by
  obtain ⟨e,member,isFor⟩ := has
  exact ⟨e,((Outbox.store_some stored).2.2 e).mpr (.inl member),isFor⟩
theorem routePayload_outbox (codec : Codec) (outbox : Outbox.Tables) (payload : String) (draw : Draw) (reply : Reply) :
    (routePayload codec outbox payload draw reply).2 = outbox ∨
      ∃ event, Outbox.store outbox event = some (routePayload codec outbox payload draw reply).2 := by
  unfold routePayload
  split
  · exact .inl rfl
  · next event _ =>
    split
    · exact .inl rfl
    · next stored accepted =>
      cases reply.effective with
      | true => exact .inr ⟨event,accepted⟩
      | false => exact .inl rfl
theorem routePayload_accepted {payload : String} (accepted : Accepted codec outbox payload draw reply)
    (its : target codec payload = some goal) : (routePayload codec outbox payload draw reply).1 = none ∧
      HasEvent (routePayload codec outbox payload draw reply).2 goal := by
  unfold Accepted at accepted
  unfold routePayload
  cases made : outboxEvent codec payload draw with
  | error message =>
    rw [made] at accepted
    rw [accepted] at its
    cases its
  | ok event =>
    rw [made] at accepted
    obtain ⟨silent,new⟩ := accepted
    obtain ⟨goal',its',isFor⟩ := outboxEvent_ok made
    obtain rfl : goal' = goal := Option.some.inj (its'.symm.trans its)
    have free : outbox.events.find (Outbox.inserted event).id = none := outbox.events.find_none.mpr (fun row member => (new row member).1)
    obtain ⟨events,entered,found⟩ := insert_of_find_none free
    have stored : Outbox.store outbox event = some { outbox with events } := by
      unfold Outbox.store
      rw [if_neg,entered]
      · rfl
      · rintro ⟨_,row,member,same⟩
        exact (new row member).2 same
    simp only [stored,silent,Reply.effective_of_error silent,Option.map_none,if_true,true_and]
    exact ⟨_,(events.find_some.mp found).1,isFor⟩

/-! ### One step -/

variable {number : Nat} {w : Worker} {phase : Phase} {inbox : Inbox} {r : InboxRow}

private theorem reportRow_payload (error : Option String) : (reportRow error r).payload = r.payload := by cases error <;> rfl

section
variable (found : s.workers.find number = some w)
include found

theorem inHand_setPhase (inHand : InHand s r)
    (kept : ∀ c ∈ w.phase.claimed, c.id = r.id → c ∈ phase.claimed) : InHand ⟨inbox,outbox,setPhase s.workers number phase⟩ r := by
  obtain ⟨here,its⟩ := s.workers.find_some.mp found
  obtain ⟨v,member,c,holds,same⟩ := inHand
  by_cases own : v.number = number
  · obtain rfl : v = w := s.workers.eq_of_key member here (own.trans its.symm)
    exact ⟨_,(mem_setPhase found).mpr (.inl rfl),c,kept c holds same,same⟩
  · exact ⟨v,(mem_setPhase found).mpr (.inr ⟨member,own⟩),c,holds,same⟩
theorem inHand_free (inHand : InHand s r) (free : w.phase.claimed = []) : InHand ⟨inbox,outbox,setPhase s.workers number phase⟩ r := by
  refine inHand_setPhase found inHand (fun c holds => ?_)
  rw [free] at holds
  cases holds

theorem accepted_of_reliable (allowed : Reliable codec s (.route number draw reply))
    (at_ : w.phase = .routing (row :: rest)) : Accepted codec s.outbox row.payload draw reply := by
  obtain ⟨_,_⟩ := w
  cases at_
  simpa [Reliable,found] using allowed

variable (sound : Sound codec s)
include sound

theorem Sound.setPhase (inv : Inv ⟨s.inbox,outbox,setPhase s.workers number phase⟩) (kept : w.phase.claimed.Sublist phase.claimed)
    (grown : ∀ goal, HasEvent s.outbox goal → HasEvent outbox goal) (deduplicated : Deduplicated outbox)
    (reporting : ∀ row error rest, phase = .reporting row error rest → ∀ goal, target codec row.payload = some goal →
      error = none ∧ HasEvent outbox goal) : Sound codec ⟨s.inbox,outbox,setPhase s.workers number phase⟩ := by
  refine ⟨inv,?_,?_,?_,deduplicated⟩
  · intro r member processing
    exact inHand_setPhase found (sound.live r member processing) (fun c holds _ => kept.subset holds)
  · intro v member row error rest at_ goal its
    obtain rfl | ⟨old,_⟩ := (mem_setPhase found).mp member
    · exact reporting row error rest at_ goal its
    · obtain ⟨silent,has⟩ := sound.reporting v old row error rest at_ goal its
      exact ⟨silent,grown goal has⟩
  · intro r member goal its
    obtain ⟨unfailed,stored⟩ := sound.rows r member goal its
    exact ⟨unfailed,fun processed => grown goal (stored processed)⟩
theorem Sound.claimed {skipped order : List UUID} {snapshot : Inbox}
    (at_ : w.phase = .querying snapshot) (returned : order.Perm (selected snapshot s.inbox skipped)) :
    Sound codec { s with
      inbox := claimRows s.inbox (selected snapshot s.inbox skipped)
      workers := WebhookInbox.setPhase s.workers number
        (.routing (order.filterMap (fun id => (s.inbox.find id).map (fun r => ⟨r.id,r.payload⟩)))) } := by
  refine ⟨sound.inv.claimed found at_ returned,?_,?_,?_,sound.deduplicated⟩
  · intro r' member' processing
    obtain ⟨r,member,rfl⟩ := mem_claimRows.mp member'
    by_cases locked : r.id ∈ selected snapshot s.inbox skipped
    · rw [if_pos locked]
      refine ⟨_,(mem_setPhase found).mpr (.inl rfl),⟨r.id,r.payload⟩,mem_filterMap.mpr ⟨r.id,returned.mem_iff.mpr locked,?_⟩,rfl⟩
      rw [s.inbox.find_some.mpr ⟨member,rfl⟩]
      rfl
    · rw [if_neg locked] at processing ⊢
      exact inHand_free found (sound.live r member processing) (by rw [at_]; rfl)
  · intro v member row error rest reports
    obtain rfl | ⟨old,_⟩ := (mem_setPhase found).mp member
    · cases reports
    · exact sound.reporting v old row error rest reports
  · intro r' member' goal its
    obtain ⟨r,member,rfl⟩ := mem_claimRows.mp member'
    by_cases locked : r.id ∈ selected snapshot s.inbox skipped
    · rw [if_pos locked]
      exact ⟨nofun,nofun⟩
    · rw [if_neg locked] at its ⊢
      exact sound.rows r member goal its

theorem Sound.reported {error : Option String} (at_ : w.phase = .reporting row error rest) :
    Sound codec { s with inbox := writeStatus s.inbox row.id error, workers := WebhookInbox.setPhase s.workers number (.routing rest) } := by
  obtain ⟨here,_⟩ := s.workers.find_some.mp found
  have hands : w.phase.claimed = row :: rest := by rw [at_]; rfl
  refine ⟨sound.inv.reported found at_,?_,?_,?_,sound.deduplicated⟩
  · intro r' member' processing
    obtain ⟨r,member,rfl⟩ := mem_writeStatus.mp member'
    by_cases written : r.id = row.id
    · rw [if_pos written] at processing
      exact absurd processing (reportRow_status error r)
    · rw [if_neg written] at processing ⊢
      refine inHand_setPhase found (sound.live r member processing) (fun c holds same => ?_)
      rw [hands] at holds
      obtain rfl | later := mem_cons.mp holds
      · exact absurd same.symm written
      · exact later
  · intro v member row' error' rest' reports
    obtain rfl | ⟨old,_⟩ := (mem_setPhase found).mp member
    · cases reports
    · exact sound.reporting v old row' error' rest' reports
  · intro r' member' goal its
    obtain ⟨r,member,rfl⟩ := mem_writeStatus.mp member'
    by_cases written : r.id = row.id
    · -- The row that is written has the payload that was routed.
      obtain ⟨r₀,member₀,same₀,payload,_⟩ := sound.inv.held.rows w here row (hands ▸ mem_cons_self)
      obtain rfl : r₀ = r := s.inbox.eq_of_key member₀ member (same₀.trans written.symm)
      rw [if_pos written,reportRow_payload,payload] at its
      obtain ⟨rfl,has⟩ := sound.reporting w here row error rest at_ goal its
      rw [if_pos written]
      exact ⟨nofun,fun _ => has⟩
    · rw [if_neg written] at its ⊢
      exact sound.rows r member goal its

end

section
variable (sound : Sound codec s)
include sound

theorem Sound.arrived {row : InboxRow} (inv : Inv { s with inbox }) (new : New s.inbox row)
    (entered : s.inbox.insert row = some inbox) : Sound codec { s with inbox } := by
  obtain ⟨_,members⟩ := insert_some entered
  refine ⟨inv,?_,sound.reporting,?_,sound.deduplicated⟩
  · intro r member processing
    obtain old | rfl := (members r).mp member
    · exact sound.live r old processing
    · rw [new.1] at processing
      cases processing
  · intro r member goal its
    obtain old | rfl := (members r).mp member
    · exact sound.rows r old goal its
    · rw [new.1]
      exact ⟨nofun,nofun⟩
theorem Sound.produced (inv : Inv { s with outbox }) (stored : Outbox.store s.outbox event = some outbox) :
    Sound codec { s with outbox } := by
  refine ⟨inv,sound.live,?_,?_,sound.deduplicated.store stored⟩
  · intro v member row error rest at_ goal its
    obtain ⟨silent,has⟩ := sound.reporting v member row error rest at_ goal its
    exact ⟨silent,has.store stored⟩
  · intro r member goal its
    obtain ⟨unfailed,done⟩ := sound.rows r member goal its
    exact ⟨unfailed,fun processed => (done processed).store stored⟩
theorem Sound.started {workers : Table Worker.number} (inv : Inv { s with workers })
    (entered : s.workers.insert ⟨number,.idle⟩ = some workers) : Sound codec { s with workers } := by
  obtain ⟨_,members⟩ := insert_some entered
  refine ⟨inv,?_,?_,sound.rows,sound.deduplicated⟩
  · intro r member processing
    obtain ⟨v,old,holds⟩ := sound.live r member processing
    exact ⟨v,(members v).mpr (.inl old),holds⟩
  · intro v member row error rest at_
    obtain old | rfl := (members v).mp member
    · exact sound.reporting v old row error rest at_
    · cases at_
theorem Sound.crashed (inv : Inv { s with workers := s.workers.delete (fun w => w.number = number) })
    (free : Free s number) : Sound codec { s with workers := s.workers.delete (fun w => w.number = number) } := by
  refine ⟨inv,?_,?_,sound.rows,sound.deduplicated⟩
  · intro r member processing
    obtain ⟨v,old,c,holds,same⟩ := sound.live r member processing
    refine ⟨v,mem_delete.mpr ⟨old,decide_eq_false fun own => ?_⟩,c,holds,same⟩
    rw [free v old own] at holds
    cases holds
  · intro v member
    exact sound.reporting v (mem_delete.mp member).1
end

theorem sound_init : Sound codec init := by
  refine ⟨inv_init,?_,?_,?_,?_⟩
  · simp [init]
  · simp [init]
  · simp [init]
  · simp [Deduplicated,init,Outbox.Tables.empty,empty]
theorem sound_step {a : Action} {t : State} (sound : Sound codec s) (allowed : Reliable codec s a) (stepped : step codec s a = some t) :
    Sound codec t := by
  have inv := inv_step sound.inv stepped
  cases step_effect stepped with
  | arrived new entered => exact sound.arrived inv new entered
  | produced stored => exact sound.produced inv stored
  | started entered => exact sound.started inv entered
  | crashed => exact sound.crashed inv allowed
  | queried found at_ => exact sound.setPhase found inv (by rw [at_]; exact nil_sublist _) (fun _ => id) sound.deduplicated (by rintro _ _ _ ⟨⟩)
  | @claimed _ _ _ reply _ _ found at_ returned =>
    obtain silent | refused := allowed
    · simp only [if_pos silent,if_pos (Reply.effective_of_error silent)]
      exact sound.claimed found at_ returned
    · have failed : reply.error ≠ none := fun silent => by simp [Reply.effective_of_error silent] at refused
      simp only [refused,if_neg failed,Bool.false_eq_true,if_false] at inv ⊢
      exact sound.setPhase found inv (by rw [at_]; exact nil_sublist _) (fun _ => id) sound.deduplicated (by rintro _ _ _ ⟨⟩)
  | skipped _ _ => exact allowed.elim
  | @routed _ draw reply _ row _ found at_ =>
    have accepted := accepted_of_reliable found allowed at_
    refine sound.setPhase found inv (by rw [at_]; exact List.Sublist.refl _) ?_ ?_ ?_
    · intro goal has
      obtain same | ⟨event,stored⟩ := routePayload_outbox codec s.outbox row.payload draw reply
      · rwa [same]
      · exact has.store stored
    · obtain same | ⟨event,stored⟩ := routePayload_outbox codec s.outbox row.payload draw reply
      · rw [same]
        exact sound.deduplicated
      · exact sound.deduplicated.store stored
    · rintro _ _ _ ⟨⟩ goal its
      exact routePayload_accepted accepted its
  | @reported _ reply _ _ _ _ found at_ =>
    have effective : reply.effective = true := allowed
    simp only [effective,if_true]
    exact sound.reported found at_
  | closed found at_ =>
    obtain ⟨here,its⟩ := s.workers.find_some.mp found
    exact sound.setPhase found inv (by rw [allowed _ here its]; exact nil_sublist _) (fun _ => id) sound.deduplicated (by rintro _ _ _ ⟨⟩)

/-- The steps a worker has yet to take for its rows: it routes each and writes its status. -/
def todo : Phase → Nat
  | .idle | .querying _ => 0
  | .routing rows => 2*rows.length
  | .reporting _ _ rest => 2*rest.length+1
def own (number : Nat) : Action → Bool
  | .arrive _ | .produce _ | .start _ => false
  | .crash n | .query n | .claim n _ _ _ | .skip n | .route n _ _ | .report n _ | .close n => n = number

/-- Whoever works on a valid row leaves it processed, once it has taken its steps. -/
def Finishes (codec : Codec) (s : State) : Prop :=
  ∀ w ∈ s.workers, ∀ c ∈ w.phase.claimed, ∀ goal, target codec c.payload = some goal →
    ∀ actions t, run (step codec) s actions = some t → Along (step codec) (Reliable codec) s actions →
      todo w.phase ≤ actions.countP (own w.number) → ∃ r ∈ t.inbox, r.id = c.id ∧ r.status = .processed

private theorem todo_pos (holds : phase.claimed ≠ []) : 0 < todo phase := by
  cases phase with
  | idle | querying => exact absurd rfl holds
  | routing rows =>
    have := length_pos_iff.mpr (show rows ≠ [] from holds)
    simp only [todo]
    omega
  | reporting row error rest => exact Nat.succ_pos _

variable {a : Action} {t : State}

theorem processed_step (inv : Inv s) (stepped : step codec s a = some t) (member : r ∈ s.inbox) (processed : r.status = .processed) :
    r ∈ t.inbox := by
  cases step_effect stepped with
  | arrived new entered => exact ((insert_some entered).2 r).mpr (.inl member)
  | @claimed _ skipped _ reply _ snapshot found at_ returned =>
    cases reply.effective with
    | false => exact member
    | true =>
      refine mem_claimRows.mpr ⟨r,member,(if_neg fun locked => ?_).symm⟩
      obtain ⟨_,r',member',same,pending⟩ := mem_selected locked
      rw [s.inbox.eq_of_key member' member same,processed] at pending
      cases pending
  | @reported _ reply _ row error rest found at_ =>
    cases reply.effective with
    | false => exact member
    | true =>
      refine mem_writeStatus.mpr ⟨r,member,(if_neg fun written => ?_).symm⟩
      obtain ⟨r',member',same,_,processing⟩ := inv.held.rows _ (s.workers.find_some.mp found).1 row (by rw [at_]; exact mem_cons_self)
      rw [s.inbox.eq_of_key member' member (same.trans written.symm),processed] at processing
      cases processing
  | produced _ | started _ | crashed | queried _ _ | skipped _ _ | routed _ _ | closed _ _ => exact member
private theorem processed_run {actions : List Action} (inv : Inv s) (ran : run (step codec) s actions = some t) (member : r ∈ s.inbox)
    (processed : r.status = .processed) : r ∈ t.inbox := by
  induction actions generalizing s with
  | nil =>
    cases ran
    exact member
  | cons a rest ih =>
    obtain ⟨next,stepped,ran⟩ := run_cons ran
    exact ih (inv_step inv stepped) ran (processed_step inv stepped member processed)

theorem others_step (stepped : step codec s a = some t) (member : w ∈ s.workers) (other : own w.number a = false) : w ∈ t.workers := by
  cases step_effect stepped with
  | arrived _ _ | produced _ => exact member
  | started entered => exact ((insert_some entered).2 w).mpr (.inl member)
  | crashed => exact mem_delete.mpr ⟨member,decide_eq_false fun same => of_decide_eq_false other same.symm⟩
  | queried found _ | claimed found _ _ | skipped found _ | routed found _ | reported found _ | closed found _ =>
    exact (mem_setPhase found).mpr (.inr ⟨member,fun same => of_decide_eq_false other same.symm⟩)

private theorem own_step {c : Claimed} (sound : Sound codec s) (allowed : Reliable codec s a) (stepped : step codec s a = some t)
    (member : w ∈ s.workers) (holds : c ∈ w.phase.claimed) (mine : own w.number a = true) (its : target codec c.payload = some goal) :
    (∃ r ∈ t.inbox, r.id = c.id ∧ r.status = .processed) ∨
      ∃ w' ∈ t.workers, w'.number = w.number ∧ c ∈ w'.phase.claimed ∧ todo w.phase = todo w'.phase+1 := by
  have here : ∀ {number v}, number = w.number → s.workers.find number = some v → v = w := by
    intro number v same found
    obtain ⟨inWorkers,number'⟩ := s.workers.find_some.mp found
    exact s.workers.eq_of_key inWorkers member (number'.trans same)
  cases step_effect stepped with
  | arrived _ _ | produced _ | started _ => cases mine
  | crashed =>
    rw [allowed w member (of_decide_eq_true mine).symm] at holds
    cases holds
  | queried found at_ | claimed found at_ _ =>
    rw [here (of_decide_eq_true mine) found] at at_
    rw [at_] at holds
    cases holds
  | skipped _ _ => exact allowed.elim
  | @routed _ _ _ _ row rest found at_ =>
    obtain rfl := here (of_decide_eq_true mine) found
    rw [at_] at holds ⊢
    exact .inr ⟨_,(mem_setPhase found).mpr (.inl rfl),rfl,holds,by simp only [todo,length_cons]; omega⟩
  | @reported _ reply _ row error rest found at_ =>
    obtain rfl := here (of_decide_eq_true mine) found
    have effective : reply.effective = true := allowed
    rw [at_] at holds ⊢
    obtain rfl | later := mem_cons.mp holds
    · obtain ⟨rfl,_⟩ := sound.reporting _ member c error rest at_ goal its
      obtain ⟨r,inInbox,same,_⟩ := sound.inv.held.rows _ member c (by rw [at_]; exact mem_cons_self)
      refine .inl ⟨reportRow none r,?_,same,rfl⟩
      simp only [effective,if_true]
      exact mem_writeStatus.mpr ⟨r,inInbox,(if_pos same).symm⟩
    · exact .inr ⟨_,(mem_setPhase found).mpr (.inl rfl),rfl,later,rfl⟩
  | closed found at_ =>
    rw [allowed _ member (of_decide_eq_true mine).symm] at holds
    cases holds
theorem Sound.finishes (sound : Sound codec s) : Finishes codec s := by
  intro w member c holds goal its actions t ran along enough
  -- The induction is on the run; the worker stands where it stood or is one step further.
  induction actions generalizing s w with
  | nil => exact absurd enough (not_le.mpr (todo_pos (ne_nil_of_mem holds)))
  | cons a rest ih =>
    obtain ⟨next,stepped,ran⟩ := run_cons ran
    obtain ⟨allowed,along⟩ := (along_cons stepped).mp along
    have sound' := sound_step sound allowed stepped
    cases mine : own w.number a with
    | false =>
      rw [countP_cons_of_neg (by simp [mine])] at enough
      exact ih sound' w (others_step stepped member mine) holds ran along enough
    | true =>
      rw [countP_cons_of_pos mine] at enough
      obtain ⟨r,inInbox,same,processed⟩ | ⟨w',member',number',holds',less⟩ := own_step sound allowed stepped member holds mine its
      · exact ⟨r,processed_run sound'.inv ran inInbox processed,same,processed⟩
      · rw [less,← number'] at enough
        exact ih sound' w' member' holds' ran along (Nat.le_of_succ_le_succ enough)
end

/-- In every reliable run the rows settle, and whoever works on one finishes it. -/
theorem rows_settle (codec : Codec) {s : State} (run : Reach (step codec) (Reliable codec) init s) : Settles codec s ∧ Finishes codec s := by
  have sound : Sound codec s := run.invariant sound_init sound_step
  exact ⟨sound.settles,sound.finishes⟩

/-- A row that is routed and written, and then another that a second worker has claimed. -/
def twoRows : List Action :=
  [.start 0,.start 1,.arrive (arrival 1 10),.query 0,.claim 0 [] [1] .done,.route 0 ⟨7,8,30⟩ .done,.report 0 .done,.close 0,.crash 0,
    .arrive { arrival 2 20 with payload := "other" },.query 1,.claim 1 [] [2] .done]
/-- Every payload is read as a subscription with the payload as its ID. -/
def subscriptions : Codec := ⟨fun payload => .ok ⟨"subscription.created",[("subscription_id",.str payload)]⟩,fun _ _ _ _ => .ok "data"⟩
theorem rows_settle_two : ∃ s : State, Reach (step subscriptions) (Reliable subscriptions) init s ∧
    s.inbox.rows.map InboxRow.status = [.processed,.processing] ∧ s.outbox.events.rows.length = 1 ∧
    Settles subscriptions s ∧ Finishes subscriptions s := by
  refine exists_reach twoRows
    (fun s => s.inbox.rows.map InboxRow.status = [.processed,.processing] ∧ s.outbox.events.rows.length = 1) (by decide +kernel)
    (by decide +kernel) ?_
  rintro s reached ⟨statuses,events⟩
  exact ⟨statuses,events,rows_settle subscriptions reached⟩
/-- A worker that crashes after it has stored the event leaves the row processing. -/
theorem row_stranded : ¬ ∀ (codec : Codec) (s : State) (_ : Reach (step codec) Any init s), Settles codec s := by
  intro claim
  obtain ⟨s,ran,stored,missing⟩ := run_seen (step oneSubscription) init
    [.start 0,.arrive (arrival 1 10),.query 0,.claim 0 [] [1] .done,.route 0 ⟨7,8,30⟩ .done,.crash 0]
    (fun s => { arrival 1 10 with status := .processing, attempts := 1 } ∈ s.inbox.rows ∧
      ¬ InHand s { arrival 1 10 with status := .processing, attempts := 1 }) (by decide +kernel)
  exact missing ((claim oneSubscription s (run_any ran) _ stored _ rfl).1 rfl)

end Stellabill.WebhookEffects
