import Stellabill.Outbox
import Stellabill.Transaction

/-!
The outbox service: how events are built and stored. The service opens a transaction of
its own, or is handed the caller's, but its repository holds a database handle that was
chosen when the service was made.
-/
namespace Stellabill.OutboxService
open Keyed Transitions Uuid Outbox Transaction
open Program (Reply)
universe u

/-- The payload as it is encoded: by `json.Marshal`, or by `PrepareEncryptedEventData`, whose permanent errors leave it
    unencrypted. -/
inductive Payload
  | plain (encoding : Except String String)
  | encrypted (data : String)
  | permanent (message fallback : String)
  | refused (message : String)

/-- What an event is built from: the ID and the instant drawn, the payload and the arguments. -/
structure Request where
  id : UUID
  now : Time
  eventType : String
  payload : Payload
  aggregateID : Option String
  aggregateType : Option String
  tenantID : Option String

def tenantIDString (tenantID : Option String) : String := tenantID.getD ""
/-- `buildEvent`. A payload that can never be encrypted makes an event that has failed. -/
def buildEvent (request : Request) (deduplicationID : Option String) : Except String Event :=
  let event := fun data =>
    { newEventWithDeduplication request.id request.now request.eventType data request.aggregateID request.aggregateType
        deduplicationID with
      tenantID := tenantIDString request.tenantID }
  match request.payload with
  | .plain (.ok data) => .ok (event data)
  | .plain (.error message) => .error ("failed to marshal event data: " ++ message)
  | .encrypted data => .ok (event data)
  | .permanent message fallback => .ok { event fallback with status := .failed, errorMessage := some message }
  | .refused message => .error message

variable {Business : Type u}

/-- The INSERT of `Store`, beside tables that are none of the outbox's business. -/
def insertEvent (event : Event) : Statement (Tables × Business) := fun data =>
  match store data.1 event with
  | none => .error "pq: duplicate key value violates unique constraint"
  | some tables => .ok (tables,data.2)
/-- A statement of the caller on its own tables. -/
def businessStatement (statement : Statement Business) : Statement (Tables × Business) := fun data =>
  (statement data.2).map (fun after => (data.1,after))

/-- The service, as far as its repository goes: the handle that `NewPostgresRepository` was given. -/
structure Service where
  repository : Handle
def newService : Service := ⟨.pool⟩

def Service.store (service : Service) (db : Database (Tables × Business)) (event : Event) (reply : Reply) :
    Option String × Database (Tables × Business) :=
  let (error,db) := exec db service.repository (insertEvent event) reply
  (error.map (fun message => "failed to store outbox event: " ++ message),db)

/-- What a transaction leaves: the error returned, its number if it was opened, and the database. -/
structure Ended (Business : Type u) where
  error : Option String
  tx : Option Nat
  db : Database (Tables × Business)

section
variable (service : Service) (db : Database (Tables × Business))
/-- `storeEventInTransaction`. The deferred rollback comes last. -/
def Service.storeEventInTransaction (event : Event)
    (begins inserts commits : Reply) : Ended Business :=
  match begin db begins with
  | (.error message,db) => ⟨some ("failed to begin transaction: " ++ message),none,db⟩
  | (.ok tx,db) =>
    match service.store db event inserts with
    | (some message,db) => ⟨some ("failed to store event in transaction: " ++ message),some tx,rollback db tx⟩
    | (none,db) =>
      match commit db tx commits with
      | (some message,db) => ⟨some ("failed to commit transaction: " ++ message),some tx,rollback db tx⟩
      | (none,db) => ⟨none,some tx,rollback db tx⟩

/-- `PublishEventWithTx`: the transaction it is handed is not used. -/
def Service.publishEventWithTx (_tx : Nat) (request : Request)
    (reply : Reply) : Except String Event × Database (Tables × Business) :=
  match buildEvent request none with
  | .error message => (.error ("failed to create event: " ++ message),db)
  | .ok event =>
    match service.store db event reply with
    | (some message,db) => (.error ("failed to store event: " ++ message),db)
    | (none,db) => (.ok event,db)

inductive Ending
  | commit (reply : Reply) | rollback
  deriving DecidableEq, Repr

def callerExecs (db : Database (Tables × Business)) (tx : Nat) (statements : List (Statement Business × Reply)) :
    Database (Tables × Business) :=
  statements.foldl (fun db (statement,reply) => (exec db (.tx tx) (businessStatement statement) reply).2) db
def Service.callersTransaction
    (before after : List (Statement Business × Reply)) (request : Request) (begins inserts : Reply) (ending : Ending) :
    Ended Business :=
  match begin db begins with
  | (.error message,db) => ⟨some message,none,db⟩
  | (.ok tx,db) =>
    let db := callerExecs db tx before
    let db := (service.publishEventWithTx db tx request inserts).2
    let db := callerExecs db tx after
    match ending with
    | .commit reply => ⟨(commit db tx reply).1,some tx,(commit db tx reply).2⟩
    | .rollback => ⟨none,some tx,rollback db tx⟩
end

/-! ### Where the event ends up -/

/-- The INSERT of the event reaches the database and is not refused. -/
def Accepted (db : Database (Tables × Business)) (event : Event) (reply : Reply) : Prop :=
  reply.effective = true ∧ (store db.durable.1 event).isSome = true
def Ended.Present (ended : Ended Business) (event : Event) : Prop := Stored ended.db.durable.1 event.id
def Ended.Committed (ended : Ended Business) : Prop := ∃ id ∈ ended.tx, id ∈ ended.db.committed

variable {db : Database (Tables × Business)} {event : Event}

private theorem frames_business (statement : Statement Business) :
    Frames (Prod.fst : Tables × Business → Tables) (businessStatement statement) := by
  intro data data' result
  unfold businessStatement at result
  cases after : statement data.2 with
  | error message => simp [after,Except.map] at result
  | ok business =>
    simp only [after,Except.map,Except.ok.injEq] at result
    rw [← result]
/-- The statements of the caller change nothing until its transaction commits, and never the outbox. -/
theorem callerExecs_durable (tx : Nat) (statements : List (Statement Business × Reply)) :
    ∀ db : Database (Tables × Business), (callerExecs db tx statements).durable = db.durable := by
  induction statements with
  | nil => intro db; rfl
  | cons head rest ih =>
    intro db
    exact (ih _).trans (exec_tx_durable ..)
theorem callerExecs_frames (tx : Nat) (statements : List (Statement Business × Reply)) :
    ∀ db : Database (Tables × Business), FramesTx Prod.fst db tx → FramesTx Prod.fst (callerExecs db tx statements) tx := by
  induction statements with
  | nil => intro db framed; exact framed
  | cons head rest ih =>
    intro db framed
    obtain ⟨statement,reply⟩ := head
    exact ih _ (framesTx_exec_tx Prod.fst framed (frames_business statement) reply)
section
variable (db : Database (Tables × Business)) (event : Event)
/-- The repository of the service stores a new event exactly when the INSERT is accepted. -/
theorem stored_store (fresh : ¬ Stored db.durable.1 event.id) (reply : Reply) :
    Stored (newService.store db event reply).2.durable.1 event.id ↔ Accepted db event reply := by
  cases effective : reply.effective with
  | false => simp [newService,Service.store,exec,Accepted,effective,fresh]
  | true =>
    cases insertion : store db.durable.1 event with
    | none => simp [newService,Service.store,exec,insertEvent,Accepted,effective,insertion,fresh]
    | some tables =>
      have rows := (store_some insertion).2.2
      have stored : Stored tables event.id := ⟨inserted event,(rows _).mpr (.inr rfl),rfl⟩
      simp [newService,Service.store,exec,insertEvent,Accepted,effective,insertion,stored]
theorem store_error (reply : Reply) : (newService.store db event reply).1 = none ↔ Accepted db event reply ∧ reply.error = none := by
  cases reply with
  | failed message => simp [newService,Service.store,exec,Accepted,Reply.effective,Reply.error]
  | done | lost =>
    cases insertion : store db.durable.1 event <;>
      simp [newService,Service.store,exec,insertEvent,Accepted,Reply.effective,Reply.error,insertion]
theorem store_txs (reply : Reply) : (newService.store db event reply).2.txs = db.txs :=
  exec_pool_txs db (insertEvent event) reply
private theorem store_committed (reply : Reply) : (newService.store db event reply).2.committed = db.committed :=
  exec_committed db .pool (insertEvent event) reply
end

section
variable (fresh : ¬ Stored db.durable.1 event.id)
include fresh
/-- The service commits when the INSERT and the commit go through, but the event stays as soon as the INSERT is accepted. -/
theorem storeEventInTransaction_spec (begins inserts commits : Reply) :
    let ended := newService.storeEventInTransaction db event begins inserts commits
    (ended.Present event ↔ begins.error = none ∧ Accepted db event inserts) ∧
      (ended.Committed ↔
        begins.error = none ∧ Accepted db event inserts ∧ inserts.error = none ∧ commits.effective = true) := by
  cases opening : begin db begins with
  | mk result opened =>
    cases result with
    | error message =>
      obtain ⟨loud,rfl⟩ := begin_error opening
      simp [Service.storeEventInTransaction,opening,loud,fresh,Ended.Present,Ended.Committed]
    | ok id =>
      obtain ⟨_,silent,durable,here,new⟩ := begin_ok opening
      have accepted : Accepted opened event inserts ↔ Accepted db event inserts := by rw [Accepted,Accepted,durable]
      have stored := stored_store opened event (by rwa [durable]) inserts
      have error := store_error opened event inserts
      have txs := store_txs opened event inserts
      have committed := store_committed opened event inserts
      rw [accepted] at stored error
      simp only [Service.storeEventInTransaction,opening]
      generalize newService.store opened event inserts = outcome at stored error txs committed
      obtain ⟨failure,between⟩ := outcome
      cases failure with
      | some message =>
        have refused : ¬ (Accepted db event inserts ∧ inserts.error = none) := fun both => by simpa using error.mpr both
        refine ⟨stored.trans (by simp [silent]),?_⟩
        constructor
        · rintro ⟨tx,same,listed⟩
          obtain rfl : id = tx := Option.some.inj same
          exact absurd (committed ▸ listed) new
        · rintro ⟨_,accepts,answered,_⟩
          exact absurd ⟨accepts,answered⟩ refused
      | none =>
        obtain ⟨accepts,answered⟩ := error.mp rfl
        obtain ⟨kept,list⟩ := commit_idle (txs ▸ here) commits
        have both : ∀ ended : Ended Business, ended.db.durable = between.durable → ended.tx = some id →
            ended.db.committed = (if commits.effective then id :: between.committed else between.committed) →
            (ended.Present event ↔ begins.error = none ∧ Accepted db event inserts) ∧
              (ended.Committed ↔ begins.error = none ∧ Accepted db event inserts ∧ inserts.error = none ∧
                commits.effective = true) := by
          intro ended same number listed
          refine ⟨by rw [Ended.Present,same,stored]; simp [silent],?_⟩
          have absent : id ∉ between.committed := committed ▸ new
          cases effective : commits.effective with
          | false => simp [Ended.Committed,number,listed,effective,absent]
          | true => simp [Ended.Committed,number,listed,effective,silent,accepts,answered]
        dsimp only
        generalize commit between id commits = outcome at kept list
        obtain ⟨failure,closed⟩ := outcome
        cases failure with
        | some | none => exact both _ kept rfl list
theorem callersTransaction_stored {request : Request}
    (built : buildEvent request none = .ok event) (before after : List (Statement Business × Reply))
    {begins : Reply} (began : begins.error = none) (inserts : Reply) (ending : Ending) :
    (newService.callersTransaction db before after request begins inserts ending).Present event ↔ Accepted db event inserts := by
  cases opening : begin db begins with
  | mk result opened =>
    cases result with
    | error message => exact absurd began (begin_error opening).1
    | ok id =>
      obtain ⟨_,_,durable,_,_⟩ := begin_ok opening
      have earlier := callerExecs_durable id before opened
      have framed := callerExecs_frames id before opened (framesTx_begin Prod.fst opening)
      set called := callerExecs opened id before
      have published : (newService.publishEventWithTx called id request inserts).2 = (newService.store called event inserts).2 := by
        simp only [Service.publishEventWithTx,built]
        split <;> simp [*]
      have still : FramesTx Prod.fst (newService.store called event inserts).2 id := by
        rw [FramesTx,store_txs]
        exact framed
      have stored := stored_store called event (by rw [earlier,durable]; exact fresh) inserts
      have accepted : Accepted called event inserts ↔ Accepted db event inserts := by
        rw [Accepted,Accepted,earlier,durable]
      have later := callerExecs_durable id after (newService.store called event inserts).2
      have framed' := callerExecs_frames id after _ still
      rw [← accepted,← stored,← later]
      simp only [Service.callersTransaction,opening]
      cases ending with
      | commit reply =>
        show Stored (commit (callerExecs (newService.publishEventWithTx called id request inserts).2 id after) id
          reply).2.durable.1 event.id ↔ _
        rw [published,commit_view Prod.fst framed' reply]
      | rollback =>
        show Stored (callerExecs (newService.publishEventWithTx called id request inserts).2 id after).durable.1
          event.id ↔ _
        rw [published]
end

/-- A new event stands with the service's transaction unless its INSERT is accepted and its answer lost or the commit
    fails; with a caller's exactly when the INSERT is accepted and it commits, or neither. -/
theorem present_iff_committed (db : Database (Tables × Business)) (event : Event) (fresh : ¬ Stored db.durable.1 event.id) :
    (∀ begins inserts commits : Reply,
      let ended := newService.storeEventInTransaction db event begins inserts commits
      (ended.Present event ↔ ended.Committed) ↔
        ¬ (begins.error = none ∧ Accepted db event inserts ∧ (inserts.error ≠ none ∨ commits.effective = false))) ∧
    ∀ (request : Request) (before after : List (Statement Business × Reply)) (begins inserts : Reply) (ending : Ending),
      buildEvent request none = .ok event → begins.error = none →
      let ended := newService.callersTransaction db before after request begins inserts ending
      (ended.Present event ↔ ended.Committed) ↔ (Accepted db event inserts ↔ ended.Committed) := by
  constructor
  · intro begins inserts commits ended
    obtain ⟨present,committed⟩ := storeEventInTransaction_spec fresh begins inserts commits
    rw [show ended.Present event ↔ _ from present,show ended.Committed ↔ _ from committed]
    cases commits.effective <;> simp
  · intro request before after begins inserts ending built began ended
    rw [show ended.Present event ↔ _ from callersTransaction_stored fresh built before after began inserts ending]

def emptyDatabase : Database (Tables × Unit) where
  durable := (.empty,())
  txs _ := none
  committed := []
  next := 0
  fresh := by simp
  ended := by simp
def userCreated : Request where
  id := 1
  now := 0
  eventType := "user.created"
  payload := .plain (.ok "")
  aggregateID := none
  aggregateType := none
  tenantID := none
theorem present_uncommitted : ¬ ∀ (db : Database (Tables × Unit)) (request : Request) (event : Event)
    (begins inserts commits : Reply) (ending : Ending), buildEvent request none = .ok event → ¬ Stored db.durable.1 event.id →
    begins.error = none → ((newService.storeEventInTransaction db event begins inserts commits).Present event ↔
      (newService.storeEventInTransaction db event begins inserts commits).Committed) ∧
    ((newService.callersTransaction db [] [] request begins inserts ending).Present event ↔
      (newService.callersTransaction db [] [] request begins inserts ending).Committed) := by
  intro claim
  have failing := claim emptyDatabase userCreated (newEvent 1 0 "user.created" "" none none) .done .done
    (.failed "connection reset") .rollback rfl (by decide) rfl
  have present : (newService.callersTransaction emptyDatabase [] [] userCreated .done .done .rollback).Present
      (newEvent 1 0 "user.created" "" none none) := by unfold Ended.Present; decide
  have uncommitted : ¬ (newService.callersTransaction emptyDatabase [] [] userCreated .done .done .rollback).Committed := by
    unfold Ended.Committed; decide
  exact uncommitted (failing.2.mp present)
theorem present_iff_committed_done :
    let event := newEvent 1 0 "user.created" "" none none
    let own := newService.storeEventInTransaction emptyDatabase event .done .done .done
    let callers := newService.callersTransaction emptyDatabase [] [] userCreated .done .done (.commit .done)
    (own.Present event ↔ own.Committed) ∧ (callers.Present event ↔ callers.Committed) := by
  intro event own callers
  have both := present_iff_committed emptyDatabase event (by decide)
  have accepted : Accepted emptyDatabase event .done := ⟨rfl,by decide⟩
  have committed : callers.Committed := ⟨0,rfl,by decide⟩
  refine ⟨(both.1 .done .done .done).mpr ?_,?_⟩
  · simp [Reply.error,Reply.effective]
  · exact (both.2 userCreated [] [] .done .done (.commit .done) rfl rfl).mpr ⟨fun _ => committed,fun _ => accepted⟩

end Stellabill.OutboxService
