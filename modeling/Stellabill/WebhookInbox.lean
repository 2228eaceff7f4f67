import Stellabill.Json
import Stellabill.Outbox
import Stellabill.Program

/-!
The inbox of webhooks. A worker claims pending rows in one statement, routes each of them
to the outbox and writes its status back. The claim sees the rows as they were when its
statement began, and passes over rows that are locked or no longer pending.
-/
namespace Stellabill.WebhookInbox
open Keyed Transitions Program Uuid Table List

inductive Status
  | pending | processing | processed | failed
  deriving DecidableEq, Repr
structure InboxRow where
  id : UUID
  sourceID : String
  payload : String
  status : Status
  createdAt : Time
  errorText : Option String
  attempts : Nat
  deriving DecidableEq
abbrev Inbox := Table InboxRow.id

def InboxRow.Active (r : InboxRow) : Prop := r.status = .pending ∨ r.status = .processing
  deriving Decidable

structure WebhookEvent where
  eventType : String
  data : List (String × Json.Value)
/-- A payload is read as an event, and the data of an outbox event (its type, data, instant and ID) is written. -/
structure Codec where
  unmarshal : String → Except String WebhookEvent
  marshal : String → List (String × Json.Value) → Time → UUID → Except String String
structure Draw where
  id : UUID
  dataID : UUID
  now : Time

section
variable (codec : Codec) (event : WebhookEvent) (draw : Draw)
/-- The outbox event for the value of a required field, which is also its deduplication ID. -/
def processField (field aggregateType eventType : String) : Except String Outbox.Event :=
  match Json.lookup field event.data with
  | some (.str value) =>
    if value = "" then .error ("missing_field: data." ++ field ++ " is required")
    else match codec.marshal eventType event.data draw.now draw.dataID with
      | .error message => .error ("failed to create outbox event: failed to marshal event data: " ++ message)
      | .ok data => .ok (Outbox.newEventWithDeduplication draw.id draw.now eventType data (some value) (some aggregateType) (some value))
  | _ => .error ("missing_field: data." ++ field ++ " is required")
def processSubscriptionCreated : Except String Outbox.Event :=
  processField codec event draw "subscription_id" "subscription" "internal.subscription.provisioned"
def processStatementIssued : Except String Outbox.Event :=
  processField codec event draw "statement_id" "statement" "internal.statement.ready"
end
/-- `routePayload`, up to `Store`. -/
def outboxEvent (codec : Codec) (payload : String) (draw : Draw) : Except String Outbox.Event :=
  match codec.unmarshal payload with
  | .error message => .error ("invalid payload: " ++ message)
  | .ok event =>
    if event.eventType = "subscription.created" then processSubscriptionCreated codec event draw
    else if event.eventType = "statement.issued" then processStatementIssued codec event draw
    else .error ("unrecognised event_type: " ++ event.eventType)
def routePayload (codec : Codec) (outbox : Outbox.Tables) (payload : String) (draw : Draw) (reply : Reply) : Option String × Outbox.Tables :=
  match outboxEvent codec payload draw with
  | .error message => (some message,outbox)
  | .ok event =>
    let failure := fun message => "failed to store outbox event: failed to store outbox event: " ++ message
    match Outbox.store outbox event with
    | none => (some (failure (reply.error.getD "pq: duplicate key value violates unique constraint")),outbox)
    | some stored => (reply.error.map failure,if reply.effective then stored else outbox)

def candidates (rows : Inbox) : List InboxRow :=
  (rows.rows.filter (fun w1 => w1.status = .pending ∧ ¬ ∃ w2 ∈ rows.rows, w2.sourceID = w1.sourceID ∧ w2.Active ∧
    w2.createdAt < w1.createdAt)).insertionSort (fun a b => a.createdAt ≤ b.createdAt)
/-- The rows that are locked: those which are not skipped and still pending, at most 50. -/
def selected (snapshot inbox : Inbox) (skipped : List UUID) : List UUID :=
  (((candidates snapshot).map InboxRow.id).filter (fun id => ¬ skipped.contains id ∧ (inbox.find id).any (fun r => r.status = .pending))).take 50

structure Claimed where
  id : UUID
  payload : String
  deriving DecidableEq
def claimRow (r : InboxRow) : InboxRow := { r with status := .processing, attempts := r.attempts+1 }
def reportRow (error : Option String) (r : InboxRow) : InboxRow :=
  match error with
  | some message => { r with status := if 5 ≤ r.attempts then .failed else .pending, errorText := some message }
  | none => { r with status := .processed }
theorem claimRow_id (r : InboxRow) : (claimRow r).id = r.id := rfl
theorem reportRow_id (error : Option String) (r : InboxRow) : (reportRow error r).id = r.id := by cases error <;> rfl
def claimRows (inbox : Inbox) (ids : List UUID) : Inbox := inbox.update (fun r => ids.contains r.id) claimRow claimRow_id
def writeStatus (inbox : Inbox) (id : UUID) (error : Option String) : Inbox :=
  inbox.update (fun r => r.id = id) (reportRow error) (reportRow_id error)

/-- Where a worker stands: between batches, in the claim, with rows to route, or with a row whose status is to be written. -/
inductive Phase
  | idle
  | querying (snapshot : Inbox)
  | routing (rows : List Claimed)
  | reporting (row : Claimed) (error : Option String) (rest : List Claimed)
def Phase.claimed : Phase → List Claimed
  | .idle | .querying _ => []
  | .routing rows => rows
  | .reporting row _ rest => row :: rest
structure Worker where
  number : Nat
  phase : Phase

structure State where
  inbox : Inbox
  outbox : Outbox.Tables
  workers : Table Worker.number
def init : State := ⟨.empty,.empty,.empty⟩

def setPhase (workers : Table Worker.number) (number : Nat) (phase : Phase) : Table Worker.number :=
  workers.update (fun w => w.number = number) (fun w => { w with phase }) (fun _ => rfl)

/-- A row arrives, another part stores an event, and the workers go on: `skip` is a row that cannot be scanned, `close`
    the end of the rows. -/
inductive Action
  | arrive (row : InboxRow)
  | produce (event : Outbox.Event)
  | start (number : Nat)
  | crash (number : Nat)
  | query (number : Nat)
  | claim (number : Nat) (skipped order : List UUID) (reply : Reply)
  | skip (number : Nat)
  | route (number : Nat) (draw : Draw) (reply : Reply)
  | report (number : Nat) (reply : Reply)
  | close (number : Nat)

def New (inbox : Inbox) (row : InboxRow) : Prop :=
  row.status = .pending ∧ row.attempts = 0 ∧ row.errorText = none ∧ ∀ r ∈ inbox.rows, r.sourceID = row.sourceID → r.createdAt ≤ row.createdAt
  deriving Decidable

def step (codec : Codec) (s : State) : Action → Option State
  | .arrive row => if New s.inbox row then (s.inbox.insert row).map (fun inbox => { s with inbox }) else none
  | .produce event => (Outbox.store s.outbox event).map (fun outbox => { s with outbox })
  | .start number => (s.workers.insert ⟨number,.idle⟩).map (fun workers => { s with workers })
  | .crash number => some { s with workers := s.workers.delete (fun w => w.number = number) }
  | .query number =>
    match s.workers.find number with
    | some ⟨_,.idle⟩ => some { s with workers := setPhase s.workers number (.querying s.inbox) }
    | _ => none
  | .claim number skipped order reply =>
    match s.workers.find number with
    | some ⟨_,.querying snapshot⟩ =>
      let ids := selected snapshot s.inbox skipped
      if order.Perm ids then some { s with
        inbox := if reply.effective then claimRows s.inbox ids else s.inbox
        workers := setPhase s.workers number (if reply.error = none then
          .routing (order.filterMap (fun id => (s.inbox.find id).map (fun r => ⟨r.id,r.payload⟩))) else .idle) }
      else none
    | _ => none
  | .skip number =>
    match s.workers.find number with
    | some ⟨_,.routing (_ :: rest)⟩ => some { s with workers := setPhase s.workers number (.routing rest) }
    | _ => none
  | .route number draw reply =>
    match s.workers.find number with
    | some ⟨_,.routing (row :: rest)⟩ =>
      let (error,outbox) := routePayload codec s.outbox row.payload draw reply
      some { s with outbox, workers := setPhase s.workers number (.reporting row error rest) }
    | _ => none
  | .report number reply =>
    match s.workers.find number with
    | some ⟨_,.reporting row error rest⟩ => some { s with
      inbox := if reply.effective then writeStatus s.inbox row.id error else s.inbox
      workers := setPhase s.workers number (.routing rest) }
    | _ => none
  | .close number =>
    match s.workers.find number with
    | some ⟨_,.routing _⟩ => some { s with workers := setPhase s.workers number .idle }
    | _ => none

inductive Effect (codec : Codec) (s : State) : Action → State → Prop
  | arrived {row : InboxRow} {inbox : Inbox} (new : New s.inbox row) (entered : s.inbox.insert row = some inbox) :
    Effect codec s (.arrive row) { s with inbox }
  | produced {event : Outbox.Event} {outbox : Outbox.Tables} (stored : Outbox.store s.outbox event = some outbox) :
    Effect codec s (.produce event) { s with outbox }
  | started {number : Nat} {workers : Table Worker.number} (entered : s.workers.insert ⟨number,.idle⟩ = some workers) :
    Effect codec s (.start number) { s with workers }
  | crashed {number : Nat} : Effect codec s (.crash number) { s with workers := s.workers.delete (fun w => w.number = number) }
  | queried {number : Nat} {w : Worker} (found : s.workers.find number = some w) (at_ : w.phase = .idle) :
    Effect codec s (.query number) { s with workers := setPhase s.workers number (.querying s.inbox) }
  | claimed {number : Nat} {skipped order : List UUID} {reply : Reply} {w : Worker} {snapshot : Inbox}
    (found : s.workers.find number = some w) (at_ : w.phase = .querying snapshot) (returned : order.Perm (selected snapshot s.inbox skipped)) :
    Effect codec s (.claim number skipped order reply) { s with
      inbox := if reply.effective then claimRows s.inbox (selected snapshot s.inbox skipped) else s.inbox
      workers := setPhase s.workers number (if reply.error = none then
        .routing (order.filterMap (fun id => (s.inbox.find id).map (fun r => ⟨r.id,r.payload⟩))) else .idle) }
  | skipped {number : Nat} {w : Worker} {row : Claimed} {rest : List Claimed} (found : s.workers.find number = some w)
    (at_ : w.phase = .routing (row :: rest)) : Effect codec s (.skip number) { s with workers := setPhase s.workers number (.routing rest) }
  | routed {number : Nat} {draw : Draw} {reply : Reply} {w : Worker} {row : Claimed} {rest : List Claimed}
    (found : s.workers.find number = some w) (at_ : w.phase = .routing (row :: rest)) : Effect codec s (.route number draw reply) { s with
      outbox := (routePayload codec s.outbox row.payload draw reply).2
      workers := setPhase s.workers number (.reporting row (routePayload codec s.outbox row.payload draw reply).1 rest) }
  | reported {number : Nat} {reply : Reply} {w : Worker} {row : Claimed} {error : Option String} {rest : List Claimed}
    (found : s.workers.find number = some w) (at_ : w.phase = .reporting row error rest) : Effect codec s (.report number reply) { s with
      inbox := if reply.effective then writeStatus s.inbox row.id error else s.inbox
      workers := setPhase s.workers number (.routing rest) }
  | closed {number : Nat} {w : Worker} {rows : List Claimed} (found : s.workers.find number = some w) (at_ : w.phase = .routing rows) :
    Effect codec s (.close number) { s with workers := setPhase s.workers number .idle }

theorem step_effect {codec : Codec} {s t : State} {a : Action} (stepped : step codec s a = some t) : Effect codec s a t := by
  cases a with
  | arrive row =>
    simp only [step] at stepped
    split at stepped
    · next new =>
      obtain ⟨inbox,entered,rfl⟩ := Option.map_eq_some_iff.mp stepped
      exact .arrived new entered
    · cases stepped
  | produce event =>
    obtain ⟨outbox,stored,rfl⟩ := Option.map_eq_some_iff.mp stepped
    exact .produced stored
  | start number =>
    obtain ⟨workers,entered,rfl⟩ := Option.map_eq_some_iff.mp stepped
    exact .started entered
  | crash number =>
    cases stepped
    exact .crashed
  | claim number skipped order reply =>
    simp only [step] at stepped
    split at stepped
    · next found =>
      obtain ⟨returned,rfl⟩ := guarded stepped
      exact .claimed found rfl returned
    · cases stepped
  | query number | skip number | route number draw reply | report number reply | close number =>
    simp only [step] at stepped
    split at stepped <;> cases stepped
    next found => constructor <;> first | exact found | rfl

/-! ### The rows over time -/

/-- No older row of the source is pending or processing. -/
def Clear (inbox : Inbox) (r : InboxRow) : Prop := ∀ older ∈ inbox, older.sourceID = r.sourceID → older.createdAt < r.createdAt → ¬ older.Active

/-- Each row keeps its source and instant, one that is done stays done, and one that has arrived since is not older than
    one of its source. -/
structure Later (before after : Inbox) : Prop where
  kept : ∀ r ∈ before, ∃ r' ∈ after, r'.id = r.id ∧ r'.sourceID = r.sourceID ∧ r'.createdAt = r.createdAt ∧ (r'.Active → r.Active)
  order : ∀ r ∈ before, ∀ r' ∈ after, r'.sourceID = r.sourceID → r'.createdAt < r.createdAt → ∃ r'' ∈ before, r''.id = r'.id

theorem Later.refl (inbox : Inbox) : Later inbox inbox :=
  ⟨fun r member => ⟨r,member,rfl,rfl,rfl,id⟩,fun _ _ r' member' _ _ => ⟨r',member',rfl⟩⟩
theorem Later.trans {first second third : Inbox} (early : Later first second) (late : Later second third) : Later first third := by
  constructor
  · intro r member
    obtain ⟨r',member',id',source',time',active'⟩ := early.kept r member
    obtain ⟨r'',member'',id'',source'',time'',active''⟩ := late.kept r' member'
    exact ⟨r'',member'',id''.trans id',source''.trans source',time''.trans time',fun active => active' (active'' active)⟩
  · intro r member r'' member'' source time
    obtain ⟨r',member',_,source',time',_⟩ := early.kept r member
    -- The row was there in between, with the source and the instant it has.
    obtain ⟨q,inSecond,same⟩ := late.order r' member' r'' member'' (source.trans source'.symm) (time'.symm ▸ time)
    obtain ⟨q',inThird,sameID,sameSource,sameTime,_⟩ := late.kept q inSecond
    obtain rfl : q' = r'' := third.eq_of_key inThird member'' (sameID.trans same)
    obtain ⟨p,inFirst,its⟩ := early.order r member q inSecond (sameSource.symm.trans source) (sameTime ▸ time)
    exact ⟨p,inFirst,its.trans same⟩
theorem Clear.later {before after : Inbox} {r r' : InboxRow} (clear : Clear before r) (later : Later before after) (member : r ∈ before)
    (source : r'.sourceID = r.sourceID) (time : r'.createdAt = r.createdAt) : Clear after r' := by
  intro older inAfter sameSource earlier active
  rw [source] at sameSource
  rw [time] at earlier
  obtain ⟨q,inBefore,same⟩ := later.order r member older inAfter sameSource earlier
  obtain ⟨q',inAfter',sameID,source',time',active'⟩ := later.kept q inBefore
  obtain rfl : q' = older := after.eq_of_key inAfter' inAfter (sameID.trans same)
  exact clear q inBefore (source'.symm.trans sameSource) (time' ▸ earlier) (active' active)

variable {inbox : Inbox}

theorem later_insert {inbox' : Inbox} {row : InboxRow} (new : New inbox row) (entered : inbox.insert row = some inbox') :
    Later inbox inbox' := by
  obtain ⟨_,members⟩ := insert_some entered
  constructor
  · intro r member
    exact ⟨r,(members r).mpr (.inl member),rfl,rfl,rfl,id⟩
  · intro r member r' member' source time
    obtain old | rfl := (members r').mp member'
    · exact ⟨r',old,rfl⟩
    · exact absurd time (not_lt.mpr (new.2.2.2 r member source.symm))
theorem later_update {cond : InboxRow → Bool} {set : InboxRow → InboxRow} {keeps : ∀ r, (set r).id = r.id}
    (same : ∀ r, (set r).sourceID = r.sourceID ∧ (set r).createdAt = r.createdAt) (active : ∀ r ∈ inbox, cond r = true → r.Active) :
    Later inbox (inbox.update cond set keeps) := by
  constructor
  · intro r member
    refine ⟨if cond r then set r else r,(mem_update ..).mpr ⟨r,member,rfl⟩,?_⟩
    split_ifs with meets
    · exact ⟨keeps r,(same r).1,(same r).2,fun _ => active r member meets⟩
    · exact ⟨rfl,rfl,rfl,id⟩
  · intro r member r' member' _ _
    obtain ⟨r'',old,rfl⟩ := (mem_update ..).mp member'
    refine ⟨r'',old,?_⟩
    split_ifs with meets
    · exact (keeps r'').symm
    · rfl

/-- The rows worked on are processing, each in the hands of one worker, and what a claim sees has been the inbox. -/
structure Held (inbox : Inbox) (workers : Table Worker.number) : Prop where
  rows : ∀ w ∈ workers, ∀ c ∈ w.phase.claimed, ∃ r ∈ inbox, r.id = c.id ∧ r.payload = c.payload ∧ r.status = .processing
  nodup : ∀ w ∈ workers, (w.phase.claimed.map Claimed.id).Nodup
  apart : ∀ w ∈ workers, ∀ w' ∈ workers, ∀ c ∈ w.phase.claimed, ∀ c' ∈ w'.phase.claimed, c.id = c'.id → w = w'
  past : ∀ w ∈ workers, ∀ snapshot, w.phase = .querying snapshot → Later snapshot inbox
/-- And every row that is processing is clear. -/
structure Inv (s : State) : Prop where
  held : Held s.inbox s.workers
  clear : ∀ r ∈ s.inbox, r.status = .processing → Clear s.inbox r

section
variable {inbox : Inbox} {workers : Table Worker.number} {number : Nat} {w : Worker} {phase : Phase}

theorem mem_setPhase {w' : Worker} (found : workers.find number = some w) :
    w' ∈ setPhase workers number phase ↔ w' = { w with phase } ∨ (w' ∈ workers ∧ w'.number ≠ number) := mem_update_key found

variable {workers' : Table Worker.number} {inbox' : Inbox} {r r' : InboxRow} {id : UUID} {error : Option String}

section
variable (held : Held inbox workers)
include held
theorem Held.fewer (fewer : ∀ w ∈ workers', w ∈ workers) : Held inbox workers' :=
  ⟨fun w member => held.rows w (fewer w member),fun w member => held.nodup w (fewer w member),
    fun w member w' member' => held.apart w (fewer w member) w' (fewer w' member'),fun w member => held.past w (fewer w member)⟩
theorem Held.start (entered : workers.insert ⟨number,.idle⟩ = some workers') : Held inbox workers' := by
  obtain ⟨_,members⟩ := insert_some entered
  have old : ∀ w ∈ workers', ∀ c ∈ w.phase.claimed, w ∈ workers := by
    intro w member c holds
    obtain old | rfl := (members w).mp member
    · exact old
    · exact absurd holds not_mem_nil
  refine ⟨fun w member c holds => held.rows w (old w member c holds) c holds,?_,?_,?_⟩
  · intro w member
    obtain old | rfl := (members w).mp member
    · exact held.nodup w old
    · exact nodup_nil
  · intro w member w' member' c holds c' holds'
    exact held.apart w (old w member c holds) w' (old w' member' c' holds') c holds c' holds'
  · intro w member snapshot at_
    obtain before | rfl := (members w).mp member
    · exact held.past w before snapshot at_
    · cases at_
theorem Held.setPhase (found : workers.find number = some w) (fewer : phase.claimed.Sublist w.phase.claimed)
    (past : ∀ snapshot, phase = .querying snapshot → Later snapshot inbox) : Held inbox (setPhase workers number phase) := by
  obtain ⟨here,_⟩ := workers.find_some.mp found
  -- Whoever holds a row did so before.
  have before : ∀ v ∈ WebhookInbox.setPhase workers number phase, ∀ c ∈ v.phase.claimed,
      ∃ v' ∈ workers, c ∈ v'.phase.claimed ∧ v'.number = v.number := by
    intro v member c holds
    obtain rfl | ⟨old,_⟩ := (mem_setPhase found).mp member
    · exact ⟨w,here,fewer.subset holds,rfl⟩
    · exact ⟨v,old,holds,rfl⟩
  refine ⟨?_,?_,?_,?_⟩
  · intro v member c holds
    obtain ⟨v',old,held',_⟩ := before v member c holds
    exact held.rows v' old c held'
  · intro v member
    obtain rfl | ⟨old,_⟩ := (mem_setPhase found).mp member
    · exact (fewer.map Claimed.id).nodup (held.nodup w here)
    · exact held.nodup v old
  · intro v member v' member' c holds c' holds' same
    obtain ⟨u,old,held₁,number₁⟩ := before v member c holds
    obtain ⟨u',old',held₂,number₂⟩ := before v' member' c' holds'
    have one := held.apart u old u' old' c held₁ c' held₂ same
    exact eq_of_key _ member member' (number₁.symm.trans ((congrArg Worker.number one).trans number₂))
  · intro v member snapshot at_
    obtain rfl | ⟨old,_⟩ := (mem_setPhase found).mp member
    · exact past snapshot at_
    · exact held.past v old snapshot at_
theorem Held.change (later : Later inbox inbox')
    (untouched : ∀ w ∈ workers, ∀ c ∈ w.phase.claimed, ∀ r ∈ inbox, r.id = c.id → r.status = .processing → r ∈ inbox') : Held inbox' workers := by
  refine ⟨?_,held.nodup,held.apart,fun w member snapshot at_ => (held.past w member snapshot at_).trans later⟩
  intro w member c holds
  obtain ⟨r,inInbox,same,payload,processing⟩ := held.rows w member c holds
  exact ⟨r,untouched w member c holds r inInbox same processing,same,payload,processing⟩
theorem Held.take {rows : List Claimed} (found : workers.find number = some w)
    (processing : ∀ c ∈ rows, ∃ r ∈ inbox, r.id = c.id ∧ r.payload = c.payload ∧ r.status = .processing)
    (nodup : (rows.map Claimed.id).Nodup) (free : ∀ c ∈ rows, ∀ v ∈ workers, ∀ c' ∈ v.phase.claimed, c.id ≠ c'.id) :
    Held inbox (WebhookInbox.setPhase workers number (.routing rows)) := by
  refine ⟨?_,?_,?_,?_⟩
  · intro v member c holds
    obtain rfl | ⟨old,_⟩ := (mem_setPhase found).mp member
    · exact processing c holds
    · exact held.rows v old c holds
  · intro v member
    obtain rfl | ⟨old,_⟩ := (mem_setPhase found).mp member
    · exact nodup
    · exact held.nodup v old
  · intro v member v' member' c holds c' holds' same
    obtain rfl | ⟨old,_⟩ := (mem_setPhase found).mp member
    · obtain rfl | ⟨old',_⟩ := (mem_setPhase found).mp member'
      · rfl
      · exact absurd same (free c holds v' old' c' holds')
    · obtain rfl | ⟨old',_⟩ := (mem_setPhase found).mp member'
      · exact absurd same.symm (free c' holds' v old c holds)
      · exact held.apart v old v' old' c holds c' holds' same
  · intro v member snapshot at_
    obtain rfl | ⟨old,_⟩ := (mem_setPhase found).mp member
    · cases at_
    · exact held.past v old snapshot at_
end

/-! ### The claim -/

variable {snapshot : Inbox} {skipped : List UUID}

private theorem mem_candidates : r ∈ candidates snapshot → r ∈ snapshot ∧ Clear snapshot r := by
  intro member
  rw [candidates,mem_insertionSort,mem_filter,decide_eq_true_eq] at member
  obtain ⟨inSnapshot,_,none⟩ := member
  exact ⟨inSnapshot,fun older inRows source time active => none ⟨older,inRows,source,active,time⟩⟩
theorem mem_selected (locked : id ∈ selected snapshot inbox skipped) :
    (∃ r ∈ snapshot, r.id = id ∧ Clear snapshot r) ∧ ∃ r ∈ inbox, r.id = id ∧ r.status = .pending := by
  obtain ⟨candidate,still⟩ := mem_filter.mp (mem_of_mem_take locked)
  obtain ⟨r,member,same⟩ := mem_map.mp candidate
  obtain ⟨inSnapshot,clear⟩ := mem_candidates member
  obtain ⟨_,pending⟩ := of_decide_eq_true still
  obtain ⟨r',found,status⟩ := (Option.any_eq_true ..).mp pending
  obtain ⟨inInbox,same'⟩ := inbox.find_some.mp found
  exact ⟨⟨r,inSnapshot,same,clear⟩,r',inInbox,same',of_decide_eq_true status⟩
theorem selected_nodup : (selected snapshot inbox skipped).Nodup := by
  have keys : ((candidates snapshot).map InboxRow.id).Nodup := by
    have perm := perm_insertionSort (fun a b : InboxRow => a.createdAt ≤ b.createdAt)
      (snapshot.rows.filter (fun w1 => w1.status = .pending ∧ ¬ ∃ w2 ∈ snapshot.rows, w2.sourceID = w1.sourceID ∧ w2.Active ∧
        w2.createdAt < w1.createdAt))
    exact ((perm.map InboxRow.id).nodup_iff).mpr ((filter_sublist.map InboxRow.id).nodup snapshot.unique)
  exact (take_sublist ..).nodup (filter_sublist.nodup keys)

theorem Held.unselected (member : r ∈ inbox) (processing : r.status = .processing) : r.id ∉ selected snapshot inbox skipped := by
  intro locked
  obtain ⟨_,r',member',same,pending⟩ := mem_selected locked
  obtain rfl : r' = r := inbox.eq_of_key member' member same
  rw [processing] at pending
  cases pending
private theorem returned_sublist (inbox : Inbox) (order : List UUID) :
    ((order.filterMap (fun id => (inbox.find id).map (fun r => (⟨r.id,r.payload⟩ : Claimed)))).map Claimed.id).Sublist order := by
  induction order with
  | nil => exact List.Sublist.slnil
  | cons id rest ih =>
    cases found : inbox.find id with
    | none =>
      rw [filterMap_cons_none (by simp [found])]
      exact ih.cons id
    | some r =>
      obtain rfl := (inbox.find_some.mp found).2
      rw [filterMap_cons_some (by simp [found]; rfl)]
      exact ih.cons_cons r.id

theorem mem_claimRows {ids : List UUID} : r' ∈ claimRows inbox ids ↔ ∃ r ∈ inbox, r' = if r.id ∈ ids then claimRow r else r := by
  rw [claimRows,mem_update]
  simp only [contains_iff_mem]
theorem mem_writeStatus :
    r' ∈ writeStatus inbox id error ↔ ∃ r ∈ inbox, r' = if r.id = id then reportRow error r else r := by
  rw [writeStatus,mem_update]
  simp only [decide_eq_true_eq]

variable {s : State}

theorem Inv.claimRows (inv : Inv s) (skipped : List UUID) (past : Later snapshot s.inbox) :
    Inv { s with inbox := claimRows s.inbox (selected snapshot s.inbox skipped) } := by
  have later : Later s.inbox (WebhookInbox.claimRows s.inbox (selected snapshot s.inbox skipped)) := by
    refine later_update (fun _ => ⟨rfl,rfl⟩) (fun r member locked => ?_)
    obtain ⟨_,r',member',same,pending⟩ := mem_selected (contains_iff_mem.mp locked)
    exact .inl (s.inbox.eq_of_key member' member same ▸ pending)
  constructor
  · refine inv.held.change later (fun _ _ _ _ r member _ processing => ?_)
    exact mem_claimRows.mpr ⟨r,member,by rw [if_neg (Held.unselected member processing)]⟩
  · intro r' member' processing
    obtain ⟨r,member,rfl⟩ := mem_claimRows.mp member'
    have clear : Clear s.inbox r := by
      by_cases locked : r.id ∈ selected snapshot s.inbox skipped
      · -- The snapshot showed the row as clear, and it has stayed clear.
        obtain ⟨⟨r₀,inSnapshot,same,clear⟩,_⟩ := mem_selected locked
        obtain ⟨r₁,inInbox,same₁,source,time,_⟩ := past.kept r₀ inSnapshot
        obtain rfl : r₁ = r := s.inbox.eq_of_key inInbox member (same₁.trans same)
        exact clear.later past inSnapshot source time
      · rw [if_neg locked] at processing
        exact inv.clear r member processing
    refine clear.later later member ?_ ?_ <;> split_ifs <;> rfl
theorem Inv.claimed {order : List UUID} (inv : Inv s) (found : s.workers.find number = some w) (at_ : w.phase = .querying snapshot)
    (returned : order.Perm (selected snapshot s.inbox skipped)) :
    Inv { s with
      inbox := WebhookInbox.claimRows s.inbox (selected snapshot s.inbox skipped)
      workers := WebhookInbox.setPhase s.workers number
        (.routing (order.filterMap (fun id => (s.inbox.find id).map (fun r => ⟨r.id,r.payload⟩)))) } := by
  have past := inv.held.past w (s.workers.find_some.mp found).1 snapshot at_
  have claimed := inv.claimRows skipped past
  refine ⟨claimed.held.take found ?_ ?_ ?_,claimed.clear⟩
  · intro c asked
    obtain ⟨id,ordered,its⟩ := mem_filterMap.mp asked
    obtain ⟨r,stored,rfl⟩ := Option.map_eq_some_iff.mp its
    obtain ⟨member,rfl⟩ := s.inbox.find_some.mp stored
    exact ⟨claimRow r,mem_claimRows.mpr ⟨r,member,by rw [if_pos (returned.mem_iff.mp ordered)]⟩,rfl,rfl,rfl⟩
  · exact (returned_sublist s.inbox order).nodup (returned.nodup_iff.mpr selected_nodup)
  · intro c asked v inWorkers c' holds same
    have locked := returned.mem_iff.mp ((returned_sublist s.inbox order).subset (mem_map_of_mem asked))
    obtain ⟨r,member,its,_,processing⟩ := inv.held.rows v inWorkers c' holds
    rw [same,← its] at locked
    exact Held.unselected member processing locked

private theorem reportRow_same (error : Option String) (r : InboxRow) :
    (reportRow error r).sourceID = r.sourceID ∧ (reportRow error r).createdAt = r.createdAt := by
  cases error <;> exact ⟨rfl,rfl⟩
theorem reportRow_status (error : Option String) (r : InboxRow) : (reportRow error r).status ≠ .processing := by
  cases error with
  | none => simp [reportRow]
  | some message =>
    simp only [reportRow]
    split_ifs <;> simp

theorem Inv.reported {row : Claimed} {rest : List Claimed} (inv : Inv s) (found : s.workers.find number = some w)
    (at_ : w.phase = .reporting row error rest) :
    Inv { s with inbox := writeStatus s.inbox row.id error, workers := WebhookInbox.setPhase s.workers number (.routing rest) } := by
  obtain ⟨here,its⟩ := s.workers.find_some.mp found
  have hands : w.phase.claimed = row :: rest := by rw [at_]; rfl
  obtain ⟨r₀,member₀,same₀,_,processing₀⟩ := inv.held.rows w here row (hands ▸ mem_cons_self)
  have later : Later s.inbox (writeStatus s.inbox row.id error) := by
    refine later_update (reportRow_same error) (fun r member reported => ?_)
    exact .inr (s.inbox.eq_of_key member₀ member (same₀.trans (of_decide_eq_true reported).symm) ▸ processing₀)
  have released : Held s.inbox (WebhookInbox.setPhase s.workers number (.routing rest)) :=
    inv.held.setPhase found (by rw [hands]; exact sublist_cons_self row rest) nofun
  -- No other row in the hands of a worker is the one that is written.
  have other : ∀ v ∈ WebhookInbox.setPhase s.workers number (.routing rest), ∀ c ∈ v.phase.claimed, c.id ≠ row.id := by
    intro v member c holds same
    obtain rfl | ⟨old,different⟩ := (mem_setPhase found).mp member
    · have nodup := inv.held.nodup w here
      rw [hands,map_cons,nodup_cons] at nodup
      exact nodup.1 (same ▸ mem_map_of_mem holds)
    · have one := inv.held.apart v old w here c holds row (hands ▸ mem_cons_self) same
      exact different (one ▸ its)
  constructor
  · refine released.change later ?_
    intro v member c holds r inInbox same _
    exact mem_writeStatus.mpr ⟨r,inInbox,by rw [if_neg (same ▸ other v member c holds)]⟩
  · intro r' member' processing
    obtain ⟨r,member,rfl⟩ := mem_writeStatus.mp member'
    split_ifs at processing ⊢ with written
    · exact absurd processing (reportRow_status error r)
    · exact (inv.clear r member processing).later later member rfl rfl

theorem Inv.arrived {row : InboxRow} (inv : Inv s) (new : New s.inbox row) (entered : s.inbox.insert row = some inbox') :
    Inv { s with inbox := inbox' } := by
  obtain ⟨_,members⟩ := insert_some entered
  have later := later_insert new entered
  constructor
  · exact inv.held.change later (fun _ _ _ _ r member _ _ => (members r).mpr (.inl member))
  · intro r member processing
    obtain old | rfl := (members r).mp member
    · exact (inv.clear r old processing).later later old rfl rfl
    · rw [new.1] at processing
      cases processing

theorem inv_init : Inv init := by
  refine ⟨⟨?_,?_,?_,?_⟩,?_⟩ <;> simp [init]
theorem inv_step {codec : Codec} {t : State} {a : Action} (inv : Inv s) (stepped : step codec s a = some t) : Inv t := by
  cases step_effect stepped with
  | arrived new entered => exact inv.arrived new entered
  | produced stored => exact ⟨inv.held,inv.clear⟩
  | started entered => exact ⟨inv.held.start entered,inv.clear⟩
  | crashed => exact ⟨inv.held.fewer (fun w member => (mem_delete.mp member).1),inv.clear⟩
  | queried found at_ =>
    refine ⟨inv.held.setPhase found (nil_sublist _) ?_,inv.clear⟩
    rintro snapshot ⟨⟩
    exact Later.refl s.inbox
  | @claimed _ skipped _ reply _ _ found at_ returned =>
    by_cases silent : reply.error = none
    · simp only [if_pos silent,if_pos (Reply.effective_of_error silent)]
      exact inv.claimed found at_ returned
    · simp only [if_neg silent]
      cases reply.effective with
      | true =>
        have claimed := inv.claimRows skipped (inv.held.past _ (s.workers.find_some.mp found).1 _ at_)
        exact ⟨claimed.held.setPhase found (nil_sublist _) (by rintro _ ⟨⟩),claimed.clear⟩
      | false => exact ⟨inv.held.setPhase found (nil_sublist _) (by rintro _ ⟨⟩),inv.clear⟩
  | skipped found at_ =>
    refine ⟨inv.held.setPhase found ?_ (by rintro _ ⟨⟩),inv.clear⟩
    rw [at_]
    exact sublist_cons_self ..
  | routed found at_ =>
    refine ⟨inv.held.setPhase found ?_ (by rintro _ ⟨⟩),inv.clear⟩
    rw [at_]
    exact List.Sublist.refl _
  | @reported _ reply _ _ _ _ found at_ =>
    cases reply.effective with
    | true => exact inv.reported found at_
    | false =>
      refine ⟨inv.held.setPhase found ?_ (by rintro _ ⟨⟩),inv.clear⟩
      rw [at_]
      exact sublist_cons_self ..
  | closed found at_ => exact ⟨inv.held.setPhase found (nil_sublist _) (by rintro _ ⟨⟩),inv.clear⟩
end

/-- A worker has claimed the row and not yet written its status, which is when it routes the row. -/
def InHand (s : State) (r : InboxRow) : Prop := ∃ w ∈ s.workers.rows, ∃ c ∈ w.phase.claimed, c.id = r.id
  deriving Decidable

/-- No row is routed while an older row of its source is pending or processing. -/
theorem inbox_fifo (codec : Codec) {s : State} (run : Reach (step codec) Any init s) {r older : InboxRow} (member : r ∈ s.inbox)
    (routed : InHand s r) (present : older ∈ s.inbox) (source : older.sourceID = r.sourceID) (earlier : older.createdAt < r.createdAt) :
    older.status ≠ .pending ∧ older.status ≠ .processing := by
  have inv : Inv s := run.invariant inv_init (fun inv _ stepped => inv_step inv stepped)
  obtain ⟨w,inWorkers,c,holds,same⟩ := routed
  obtain ⟨r',member',its,_,processing⟩ := inv.held.rows w inWorkers c holds
  obtain rfl : r' = r := s.inbox.eq_of_key member' member (its.trans same)
  exact not_or.mp (inv.clear r' member processing older present source earlier)

def oneSubscription : Codec := ⟨fun _ => .ok ⟨"subscription.created",[("subscription_id",.str "sub-1")]⟩,fun _ _ _ _ => .ok "data"⟩
def arrival (id : UUID) (createdAt : Time) : InboxRow := ⟨id,"acme","payload",.pending,createdAt,none,0⟩
/-- Two rows of a source and two workers, one of which claims with an old snapshot. -/
def twoWorkers : List Action :=
  [.start 0,.start 1,.arrive (arrival 1 10),.query 0,.query 1,.arrive (arrival 2 20),.claim 0 [] [1] .done,.claim 1 [] [] .done,
    .route 0 ⟨7,8,30⟩ .done,.close 1,.query 1,.report 0 .done,.claim 1 [] [] .done,.close 1,.query 1,.claim 1 [] [2] .done]
theorem inbox_fifo_two : ∃ s : State, Reach (step oneSubscription) Any init s ∧
    ({ arrival 2 20 with status := .processing, attempts := 1 } : InboxRow) ∈ s.inbox ∧
    InHand s { arrival 2 20 with status := .processing, attempts := 1 } ∧
    ({ arrival 1 10 with status := .processed, attempts := 1 } : InboxRow) ∈ s.inbox ∧
    Status.processed ≠ .pending ∧ Status.processed ≠ .processing := by
  obtain ⟨s,ran,second,routed,first⟩ := run_seen (step oneSubscription) init twoWorkers
    (fun s => { arrival 2 20 with status := .processing, attempts := 1 } ∈ s.inbox.rows ∧
      InHand s { arrival 2 20 with status := .processing, attempts := 1 } ∧
      { arrival 1 10 with status := .processed, attempts := 1 } ∈ s.inbox.rows) (by decide +kernel)
  exact ⟨s,run_any ran,second,routed,first,inbox_fifo oneSubscription (run_any ran) second routed first rfl (by decide)⟩

end Stellabill.WebhookInbox
