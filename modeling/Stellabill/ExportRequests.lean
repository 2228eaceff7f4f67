import Stellabill.ExportJobs

/-!
The request for an export. The handler decides from the caller's roles whether the
tenant may be exported and has `CreateJob` enqueue the job; `ExportTenantData` decides
again when the job runs, with the roles that the job carries.
-/
namespace Stellabill.ExportRequests
open Keyed Transitions Program TenantExport ExportJobs Parsing

/-- A manager with what `CreateJob` meets: the new IDs, the answer of the store, and the error of a context that ends. -/
structure Manager where
  store : Store
  state : State
  number : Nat
  operationID : String
  jobID : String
  create : Reply
  ended : Option String
  newCall : state.calls.find number = none
  newOperation : operationID ≠ "" ∧ state.operations.find operationID = none
  newJob : state.jobs.find jobID = none

inductive CreateError
  | inProgress | failed (message : String)
  deriving DecidableEq

/-- `CreateJob`, when nothing else happens meanwhile; without an answer while the channel is full. -/
def createJob (m : Manager) (tenantID callerID : String) (callerRoles : List String) :
    Option (State × Option (Except CreateError ExportJob)) := do
  let checked ← step m.store m.state (.check m.number tenantID callerID callerRoles)
  if InProgress m.state.jobs tenantID then some (checked,some (.error .inProgress))
  else
    let created ← step m.store checked (.create m.number m.operationID m.create)
    match m.create.error with
    | some message => some (created,some (.error (.failed message)))
    | none =>
      let inserted ← step m.store created (.insert m.number m.jobID)
      match m.ended with
      | some message => (step m.store inserted (.abandon m.number)).map (fun s => (s,some (.error (.failed message))))
      | none =>
        match step m.store inserted (.send m.number) with
        | some sent => some (sent,some (.ok (ExportJobs.newJob m.jobID m.operationID tenantID callerID callerRoles)))
        | none => some (inserted,none)

/-- The roles with which `processJob` calls `ExportTenantData`. -/
def runRoles (job : ExportJob) : List String := if job.callerRoles = [] then ["admin"] else job.callerRoles

inductive ContextValue
  | text (value : String) | texts (values : List String) | other
structure RequestContext where
  callerID : Option ContextValue
  roles : Option ContextValue
  tenantID : Option ContextValue

def getAuthContext (c : RequestContext) : Option (String × List String) :=
  match c.callerID, c.roles with
  | some (.text callerID), some (.texts roles) => if callerID = "" then none else some (callerID,roles)
  | _, _ => none
def getRequiredStringContextValue : Option ContextValue → Option String
  | some (.text value) => if value = "" then none else some value
  | _ => none
def isAuthorized (callerID tenantID : String) : List String → Bool
  | [] => false
  | role :: rest =>
    if role = "admin" then true
    else if role = "merchant" ∧ callerID = tenantID then true
    else isAuthorized callerID tenantID rest

structure CreateExportResponse where
  jobID : String
  operationID : String
  statusURL : String
  operationURL : String
  message : String
  deriving DecidableEq
inductive Response
  | error (status : Nat) (code message : String) | accepted (body : CreateExportResponse)
  deriving DecidableEq
structure AuditEntry where
  resource : String
  outcome : String
  metadata : List (String × String)
  deriving DecidableEq
/-- What a request leaves behind; there is no response while `CreateJob` waits. -/
structure Handled where
  state : Option State
  audit : List AuditEntry
  response : Option Response

def respond (tenantID : String) (after : State) : Option (Except CreateError ExportJob) → Handled
  | none => ⟨some after,[],none⟩
  | some (.error .inProgress) =>
    ⟨some after,[],some (.error 409 "export/in-progress" "An export is already in progress for this tenant")⟩
  | some (.error (.failed _)) => ⟨some after,[],some (.error 500 "system/internal-error" "Failed to create export job")⟩
  | some (.ok job) =>
    ⟨some after,[⟨"tenant:" ++ tenantID,"queued",[("job_id",job.id),("operation_id",job.operationID)]⟩],
      some (.accepted ⟨job.id,job.operationID,"/api/v1/tenants/me/export/" ++ job.id,"/api/v1/operations/" ++ job.operationID,
        "Export job created. Poll the operation URL for completion."⟩)⟩
def tenantExportHandler (jobManager : Option Manager) (c : RequestContext) : Handled :=
  match jobManager with
  | none => ⟨none,[],some (.error 500 "system/internal-error" "export service unavailable")⟩
  | some m =>
    match getAuthContext c with
    | none => ⟨some m.state,[],some (.error 401 "client/unauthorized" "unauthorized")⟩
    | some (callerID,roles) =>
      match getRequiredStringContextValue c.tenantID with
      | none => ⟨some m.state,[],some (.error 400 "client/bad-request" "Missing tenant context")⟩
      | some tenantID =>
        if isAuthorized callerID tenantID roles then
          match createJob m tenantID callerID roles with
          | some (after,answer) => respond tenantID after answer
          | none => ⟨some m.state,[],none⟩
        else ⟨some m.state,[⟨"tenant:" ++ tenantID,"denied",[]⟩],
          some (.error 403 "client/forbidden" "You do not have permission to export this tenant's data")⟩

def Refused (callerID : String) (roles : List String) (tenantID : String) : Prop :=
  ("admin" ∉ roles ∧ "merchant" ∉ roles) ∨ ("merchant" ∈ roles ∧ callerID ≠ tenantID)

def Distinct (text : String) : Prop := ∃ first rest, text.toList = first :: rest ∧ first ≠ 'f'
def Other {α : Type} (x : Except String α) : Prop := ∀ message, x = .error message → Distinct message

section
variable {α β : Type} {env : Surroundings} {db : Database} {callerID tenantID : String} {roles : List String} {text : String}

theorem Distinct.ofList {first : Char} {rest : List Char} (differs : first ≠ 'f') : Distinct (String.ofList (first :: rest)) :=
  ⟨first,rest,String.toList_ofList,differs⟩
theorem Distinct.append (distinct : Distinct text) (rest : String) : Distinct (text ++ rest) := by
  obtain ⟨first,more,begins,differs⟩ := distinct
  exact ⟨first,more ++ rest.toList,by rw [String.toList_append,begins]; rfl,differs⟩
theorem not_distinct_forbidden : ¬ Distinct forbidden := by
  rintro ⟨first,rest,begins,differs⟩
  exact differs (List.cons.inj begins).1.symm
theorem other_ok (value : α) : Other (.ok value : Except String α) := nofun
theorem Other.bind {x : Except String α} {f : α → Except String β} (first : Other x) (later : ∀ value, Other (f value)) : Other (x >>= f) := by
  cases x with
  | error message =>
    rintro _ ⟨⟩
    exact first message rfl
  | ok value => exact later value
theorem other_answered {error : Option String} {value : α} (distinct : Distinct text) : Other (answered error text value) := by
  cases error with
  | none => exact other_ok value
  | some reason =>
    rintro _ ⟨⟩
    exact distinct.append reason
theorem other_mapError {x : Except String α} (distinct : Distinct text) : Other (x.mapError (text ++ ·)) := by
  cases x with
  | ok value => exact other_ok value
  | error reason =>
    rintro _ ⟨⟩
    exact distinct.append reason

private theorem other_fetchStatements (customers : List String) : Other (fetchStatements env db customers) := by
  induction customers with
  | nil => exact other_ok []
  | cons customerID rest ih =>
    refine (other_answered (.ofList (by decide))).bind fun _ => ?_
    have distinct : Distinct "list statements for customer " := .ofList (by decide)
    exact (other_answered ((distinct.append customerID).append ": ")).bind fun _ => ih.bind fun _ => other_ok _
theorem collect_refused (refused : Refused callerID roles tenantID) : collect env db callerID roles tenantID = .error forbidden := by
  unfold collect
  obtain neither | foreign := refused
  · simp [neither]
  · by_cases admin : "admin" ∈ roles <;> simp [foreign,admin]
private theorem other_collect (allowed : ¬ Refused callerID roles tenantID) : Other (collect env db callerID roles tenantID) := by
  unfold collect
  have first : ¬ (¬ roles.contains "admin" ∧ ¬ roles.contains "merchant") := by
    simpa using fun neither => allowed (.inl neither)
  have second : ¬ (roles.contains "merchant" ∧ callerID ≠ tenantID) := by
    simpa using fun foreign => allowed (.inr foreign)
  simp only [if_neg first,if_neg second]
  refine (other_answered (.ofList (by decide))).bind fun _ => (other_answered (.ofList (by decide))).bind fun _ => ?_
  refine (other_answered (.ofList (by decide))).bind fun _ => (other_answered (.ofList (by decide))).bind fun _ => ?_
  refine (other_fetchStatements _).bind fun _ => (other_answered (.ofList (by decide))).bind fun _ => ?_
  exact other_mapError (.ofList (by decide))
theorem other_exportTenantData (allowed : ¬ Refused callerID roles tenantID) : Other (exportTenantData env db callerID roles tenantID).2 := by
  have collected : Other (collect env db callerID roles tenantID) := other_collect allowed
  unfold exportTenantData
  cases found : collect env db callerID roles tenantID with
  | error message =>
    rintro _ ⟨⟩
    exact collected message found
  | ok archive =>
    have started : Other (check env .beforeUpload "export cancelled before upload: ") := other_answered (.ofList (by decide))
    dsimp only
    split
    · next message stopped =>
      rintro _ ⟨⟩
      exact started message stopped
    · refine (other_answered (.ofList (by decide))).bind fun _ => (other_answered (.ofList (by decide))).bind fun _ => ?_
      exact (other_mapError (.ofList (by decide))).bind fun _ => other_ok _
theorem exportTenantData_forbidden :
    (exportTenantData env db callerID roles tenantID).2 = .error forbidden ↔ Refused callerID roles tenantID := by
  constructor
  · intro same
    by_contra allowed
    exact not_distinct_forbidden (other_exportTenantData allowed _ same)
  · intro refused
    simp [exportTenantData,collect_refused refused]

theorem isAuthorized_iff : isAuthorized callerID tenantID roles = true ↔ "admin" ∈ roles ∨ ("merchant" ∈ roles ∧ callerID = tenantID) := by
  induction roles with
  | nil => simp [isAuthorized]
  | cons role rest ih =>
    simp only [isAuthorized,List.mem_cons]
    split_ifs with admin merchant
    · simp [admin]
    · simp [merchant]
    · rw [ih]
      by_cases same : callerID = tenantID
      · have other : role ≠ "merchant" := fun is => merchant ⟨is,same⟩
        simp [Ne.symm admin,same,Ne.symm other]
      · simp [Ne.symm admin,same]
end

/-! ### The job that is enqueued -/

/-- `CreateJob` takes the job: no export in progress, the operation is stored, no context has ended, the channel has room. -/
def Takes (m : Manager) (tenantID : String) : Prop :=
  ¬ InProgress m.state.jobs tenantID ∧ m.create.error = none ∧ m.ended = none ∧ m.state.pending.length < capacity
  deriving Decidable
def Enqueues (before after : State) (job : ExportJob) : Prop := job ∈ after.jobs ∧ after.pending = before.pending ++ [job.id]

section
variable {m : Manager} {s : State} {number : Nat} {callerID tenantID : String} {roles : List String}

theorem find_setCall {calls : Table Call.number} {number : Nat} {call : Call} {phase : Phase} (found : calls.find number = some call) :
    (setCall calls number phase).find number = some { call with phase } := by
  have its := (calls.find_some.mp found).2
  simp [setCall,Table.find_update,found,its]

/-! The steps of a call that nothing disturbs, each with what the next one needs. -/

theorem step_check (store : Store) (callerID : String) (roles : List String) (free : ¬ InProgress s.jobs tenantID) (new : s.calls.find number = none) :
    ∃ t, step store s (.check number tenantID callerID roles) = some t ∧ t.jobs = s.jobs ∧ t.operations = s.operations ∧
      t.pending = s.pending ∧ t.calls.find number = some ⟨number,tenantID,callerID,roles,.checked⟩ := by
  obtain ⟨calls,entered,found⟩ := @Table.insert_of_find_none _ _ _ _ s.calls ⟨number,tenantID,callerID,roles,.checked⟩ new
  exact ⟨{ s with calls },by simp [step,free,entered],rfl,rfl,rfl,found⟩
theorem step_create {operationID : String} (store : Store) (reply : Reply)
    (found : s.calls.find number = some ⟨number,tenantID,callerID,roles,.checked⟩) (new : operationID ≠ "" ∧ s.operations.find operationID = none) :
    ∃ t, step store s (.create number operationID reply) = some t ∧ t.jobs = s.jobs ∧ t.pending = s.pending ∧
      (reply.error = none → t.calls.find number = some ⟨number,tenantID,callerID,roles,.stored operationID⟩) := by
  obtain ⟨operations,stored,_⟩ := @Table.insert_of_find_none _ _ _ _ s.operations (newOperation operationID tenantID callerID roles) new.2
  refine ⟨{ s with
    operations := if reply.effective then operations else s.operations
    calls := if reply.error = none then setCall s.calls number (.stored operationID) else endCall s.calls number },?_,rfl,rfl,?_⟩
  · simp [step,found,new.1,stored]
  · intro silent
    simp only [if_pos silent]
    exact find_setCall found
private theorem step_insert {operationID jobID : String} (store : Store)
    (found : s.calls.find number = some ⟨number,tenantID,callerID,roles,.stored operationID⟩) (new : s.jobs.find jobID = none) :
    ∃ t, step store s (.insert number jobID) = some t ∧ newJob jobID operationID tenantID callerID roles ∈ t.jobs ∧
      t.pending = s.pending ∧ t.calls.find number = some ⟨number,tenantID,callerID,roles,.inserted jobID⟩ := by
  obtain ⟨jobs,entered,here⟩ := @Table.insert_of_find_none _ _ _ _ s.jobs (newJob jobID operationID tenantID callerID roles) new
  exact ⟨{ s with jobs, calls := setCall s.calls number (.inserted jobID) },by simp [step,found,entered],(jobs.find_some.mp here).1,rfl,
    find_setCall found⟩

theorem createJob_effect : ∃ after answer, createJob m tenantID callerID roles = some (after,answer) ∧
    if Takes m tenantID then answer = some (.ok (newJob m.jobID m.operationID tenantID callerID roles)) ∧
      newJob m.jobID m.operationID tenantID callerID roles ∈ after.jobs ∧ after.pending = m.state.pending ++ [m.jobID]
    else after.pending = m.state.pending := by
  by_cases busy : InProgress m.state.jobs tenantID
  · exact ⟨m.state,some (.error .inProgress),by simp [createJob,step,busy],by simp [Takes,busy]⟩
  obtain ⟨checked,check,jobs,operations,pending,found⟩ := step_check m.store callerID roles busy m.newCall
  obtain ⟨created,create,jobs',pending',found'⟩ := step_create m.store m.create found (operations ▸ m.newOperation)
  cases answered : m.create.error with
  | some message =>
    exact ⟨created,some (.error (.failed message)),by simp [createJob,check,busy,create,answered],by simp [Takes,answered,pending,pending']⟩
  | none =>
    have new : created.jobs.find m.jobID = none := by
      rw [jobs',jobs]
      exact m.newJob
    obtain ⟨inserted,insert,here,pending'',found''⟩ := step_insert m.store (found' answered) new
    have same : inserted.pending = m.state.pending := by rw [pending'',pending',pending]
    cases ended : m.ended with
    | some message =>
      obtain ⟨abandoned,abandon,kept⟩ : ∃ t, step m.store inserted (.abandon m.number) = some t ∧ t.pending = inserted.pending := by
        simp [step,found'']
      exact ⟨abandoned,some (.error (.failed message)),by simp [createJob,check,busy,create,answered,insert,ended,abandon],
        by simp [Takes,ended,kept,same]⟩
    | none =>
      by_cases room : m.state.pending.length < capacity
      · obtain ⟨sent,send,kept,last⟩ : ∃ t, step m.store inserted (.send m.number) = some t ∧ t.jobs = inserted.jobs ∧
            t.pending = inserted.pending ++ [m.jobID] := by
          simp [step,found'',same,room]
        refine ⟨sent,some (.ok (newJob m.jobID m.operationID tenantID callerID roles)),
          by simp [createJob,check,busy,create,answered,insert,ended,send],?_⟩
        simp [Takes,busy,answered,ended,room,same,kept,last,here]
      · have full : step m.store inserted (.send m.number) = none := by simp [step,found'',same,room]
        exact ⟨inserted,none,by simp [createJob,check,busy,create,answered,insert,ended,full],by simp [Takes,room,same]⟩

variable {after : State} {job : ExportJob}

def signed (callerID : String) (roles : List String) (tenantID : String) : RequestContext :=
  ⟨some (.text callerID),some (.texts roles),some (.text tenantID)⟩

theorem not_enqueues (same : after.pending = m.state.pending) : ¬ Enqueues m.state after job := by
  rintro ⟨_,longer⟩
  rw [same] at longer
  exact List.cons_ne_nil _ _ (List.self_eq_append_right.mp longer)
private theorem respond_state (answer : Option (Except CreateError ExportJob)) : (respond tenantID after answer).state = some after := by
  obtain _ | (_ | _) | _ := answer <;> rfl
theorem handler_enqueues :
    (∃ after, (tenantExportHandler (some m) (signed callerID roles tenantID)).state = some after ∧ Enqueues m.state after job) ↔
      (callerID ≠ "" ∧ tenantID ≠ "" ∧ Takes m tenantID) ∧ isAuthorized callerID tenantID roles = true ∧
        job = newJob m.jobID m.operationID tenantID callerID roles := by
  by_cases caller : callerID = ""
  · simp [tenantExportHandler,signed,getAuthContext,caller,not_enqueues]
  by_cases tenant : tenantID = ""
  · simp [tenantExportHandler,signed,getAuthContext,getRequiredStringContextValue,caller,tenant,not_enqueues]
  by_cases authorized : isAuthorized callerID tenantID roles = true
  · obtain ⟨after,answer,created,effect⟩ := @createJob_effect m callerID tenantID roles
    have handled : (tenantExportHandler (some m) (signed callerID roles tenantID)).state = some after := by
      simp [tenantExportHandler,signed,getAuthContext,getRequiredStringContextValue,caller,tenant,authorized,created,respond_state]
    split_ifs at effect with taken
    · obtain ⟨_,here,last⟩ := effect
      constructor
      · rintro ⟨_,state,inJobs,queued⟩
        obtain rfl := Option.some.inj (handled.symm.trans state)
        have same : m.jobID = job.id := List.cons.inj (List.append_cancel_left (last.symm.trans queued)) |>.1
        exact ⟨⟨caller,tenant,taken⟩,authorized,after.jobs.eq_of_key inJobs here same.symm⟩
      · rintro ⟨_,_,rfl⟩
        exact ⟨after,handled,here,last⟩
    · simp [handled,not_enqueues effect,taken]
  · simp [tenantExportHandler,signed,getAuthContext,getRequiredStringContextValue,caller,tenant,authorized,not_enqueues]

/-- A job is enqueued exactly when the export would not be forbidden, and it runs with roles of the caller. -/
def Agrees (m : Manager) (env : Surroundings) (db : Database) (callerID : String) (roles : List String) (tenantID : String) : Prop :=
  ((∃ job after, (tenantExportHandler (some m) (signed callerID roles tenantID)).state = some after ∧ Enqueues m.state after job) ↔
    (exportTenantData env db callerID roles tenantID).2 ≠ .error forbidden) ∧
  ∀ job after, (tenantExportHandler (some m) (signed callerID roles tenantID)).state = some after → Enqueues m.state after job →
    ∀ role ∈ runRoles job, role ∈ roles

section
variable (handled : (tenantExportHandler (some m) (signed callerID roles tenantID)).state = some after)
include handled
private theorem runRoles_enqueued (enqueued : Enqueues m.state after job) : runRoles job = roles := by
  obtain ⟨_,authorized,rfl⟩ := handler_enqueues.mp ⟨after,handled,enqueued⟩
  have nonempty : roles ≠ [] := by
    rintro rfl
    cases authorized
  simp [runRoles,newJob,nonempty]
end

/-- The decisions agree: for a request that could be enqueued, unless the caller is an administrator and a merchant of
    another tenant; otherwise when the roles do not allow the export. -/
theorem agrees_iff (m : Manager) (env : Surroundings) (db : Database) (callerID : String) (roles : List String) (tenantID : String) :
    Agrees m env db callerID roles tenantID ↔
      if callerID ≠ "" ∧ tenantID ≠ "" ∧ Takes m tenantID then ¬ ("admin" ∈ roles ∧ "merchant" ∈ roles ∧ callerID ≠ tenantID)
      else Refused callerID roles tenantID := by
  have ran : ∀ job after, (tenantExportHandler (some m) (signed callerID roles tenantID)).state = some after → Enqueues m.state after job →
      ∀ role ∈ runRoles job, role ∈ roles := by
    intro job after handled enqueued role member
    rwa [runRoles_enqueued handled enqueued] at member
  have decided : Agrees m env db callerID roles tenantID ↔
      ((callerID ≠ "" ∧ tenantID ≠ "" ∧ Takes m tenantID) ∧ isAuthorized callerID tenantID roles = true ↔ ¬ Refused callerID roles tenantID) := by
    rw [Agrees,and_iff_left ran,ne_eq,exportTenantData_forbidden]
    simp only [handler_enqueues]
    simp
  rw [decided,isAuthorized_iff]
  split_ifs with possible
  · unfold Refused
    by_cases admin : "admin" ∈ roles <;> by_cases merchant : "merchant" ∈ roles <;> by_cases same : callerID = tenantID <;>
      simp [possible,admin,merchant,same]
  · simp [possible]
end

def idle : Manager := ⟨.memory,init,0,"op-1","job-1",.done,none,rfl,⟨by decide,rfl⟩,rfl⟩
/-- An administrator who is also a merchant: the job is enqueued and the export then forbids it. -/
theorem administrator_forbidden :
    ¬ ∀ (m : Manager) (env : Surroundings) (db : Database) (callerID : String) (roles : List String) (tenantID : String),
      Agrees m env db callerID roles tenantID := by
  intro claim
  obtain ⟨decided,_⟩ := claim idle calm single "root" ["admin","merchant"] "acme"
  have enqueued : ∃ after, (tenantExportHandler (some idle) (signed "root" ["admin","merchant"] "acme")).state = some after ∧
      Enqueues init after (newJob "job-1" "op-1" "acme" "root" ["admin","merchant"]) :=
    handler_enqueues.mpr ⟨by decide +kernel,by decide,rfl⟩
  exact decided.mp ⟨_,enqueued⟩ (exportTenantData_forbidden.mpr (.inr ⟨by decide,by decide⟩))

end Stellabill.ExportRequests
