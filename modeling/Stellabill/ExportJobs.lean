import Stellabill.TenantExport

/-!
The jobs that export a tenant's data. `CreateJob` looks for an export in progress
in the map of jobs, stores a new operation, enters a job in the map and sends it to
the worker; `processJob` changes the job and the operation. The accesses interleave.
-/
namespace Stellabill.ExportJobs
open Keyed Transitions Program TenantExport Table

inductive JobStatus
  | pending | running | completed | failed
  deriving DecidableEq, Repr
inductive OperationStatus
  | pending | running | succeeded | failed
  deriving DecidableEq, Repr

structure ExportJob where
  id : String
  operationID : String
  tenantID : String
  callerID : String
  callerRoles : List String
  status : JobStatus
  result : Option TenantExportResult
  error : String
  deriving DecidableEq
structure ExportOperation where
  id : String
  tenantID : String
  callerID : String
  callerRoles : List String
  status : OperationStatus
  result : Option TenantExportResult
  error : String
  deriving DecidableEq

def ExportJob.Active (j : ExportJob) : Prop := j.status = .pending ∨ j.status = .running
instance (j : ExportJob) : Decidable j.Active := inferInstanceAs (Decidable (_ ∨ _))
def ExportOperation.Active (o : ExportOperation) : Prop := o.status = .pending ∨ o.status = .running
instance (o : ExportOperation) : Decidable o.Active := inferInstanceAs (Decidable (_ ∨ _))

/-- Where the operations are stored. The store in memory hands out its own records, so an assignment is stored at once. -/
inductive Store
  | memory | postgres
  deriving DecidableEq

/-- Where `CreateJob` stands: no export was found in progress, the operation is stored, or the job is about to be sent. -/
inductive Phase
  | checked | stored (operationID : String) | inserted (jobID : String)
  deriving DecidableEq
structure Call where
  number : Nat
  tenantID : String
  callerID : String
  callerRoles : List String
  phase : Phase
  deriving DecidableEq

inductive Outcome
  | done (result : TenantExportResult) | cancelled (message : String) | failed (message : String)
  deriving DecidableEq
def Outcome.job : Outcome → JobStatus
  | .done _ => .completed
  | .cancelled _ | .failed _ => .failed
def Outcome.operation : Outcome → OperationStatus
  | .done _ => .succeeded
  | .cancelled _ | .failed _ => .failed
def Outcome.result : Outcome → Option TenantExportResult
  | .done result => some result
  | .cancelled _ | .failed _ => none
def Outcome.error : Outcome → String
  | .done _ => ""
  | .cancelled message => "export cancelled: " ++ message
  | .failed message => message

/-- Where the worker stands: waiting; before it reads and before it writes the operation of a running job; in the
    export; and before the same two calls for a job that has ended. -/
inductive Worker
  | waiting
  | marking (jobID : String)
  | writing (jobID : String) (op : ExportOperation)
  | exporting (jobID : String)
  | finishing (jobID : String) (outcome : Outcome)
  | recording (jobID : String) (op : ExportOperation)
  deriving DecidableEq
def Worker.running : Worker → Option String
  | .marking jobID | .writing jobID _ | .exporting jobID => some jobID
  | .waiting | .finishing .. | .recording .. => none
/-- The job that has ended and whose operation is yet to be written. -/
def Worker.ended : Worker → Option String
  | .finishing jobID _ | .recording jobID _ => some jobID
  | .waiting | .marking _ | .writing .. | .exporting _ => none

structure State where
  jobs : Table ExportJob.id
  operations : Table ExportOperation.id
  /-- The channel. -/
  pending : List String
  calls : Table Call.number
  worker : Worker

def init : State := ⟨.empty,.empty,[],.empty,.waiting⟩

def InProgress (jobs : Table ExportJob.id) (tenantID : String) : Prop := ∃ j ∈ jobs.rows, j.tenantID = tenantID ∧ j.Active
  deriving Decidable
def newOperation (id tenantID callerID : String) (callerRoles : List String) : ExportOperation :=
  ⟨id,tenantID,callerID,callerRoles,.pending,none,""⟩
def newJob (id operationID tenantID callerID : String) (callerRoles : List String) : ExportJob :=
  ⟨id,operationID,tenantID,callerID,callerRoles,.pending,none,""⟩
def capacity : Nat := 100

def setCall (calls : Table Call.number) (number : Nat) (phase : Phase) : Table Call.number :=
  calls.update (fun c => c.number = number) (fun c => { c with phase }) (fun _ => rfl)
def endCall (calls : Table Call.number) (number : Nat) : Table Call.number := calls.delete (fun c => c.number = number)
def setJob (jobs : Table ExportJob.id) (id : String) (status : JobStatus) (result : Option TenantExportResult) (error : String) :
    Table ExportJob.id :=
  jobs.update (fun j => j.id = id) (fun j => { j with status, result, error }) (fun _ => rfl)
def putOperation (operations : Table ExportOperation.id) (op : ExportOperation) : Table ExportOperation.id :=
  operations.update (fun o => o.id = op.id) (fun o => { op with id := o.id }) (fun _ => rfl)
/-- What the store holds after an operation was read and assigned to. -/
def assigned (store : Store) (operations : Table ExportOperation.id) (op : ExportOperation) : Table ExportOperation.id :=
  match store with
  | .memory => putOperation operations op
  | .postgres => operations

/-- The steps of a call (the map, `Create`, the entry in the map, the channel or the end of a context) and of the worker
    (the channel, `Get`, `Update`, the export). -/
inductive Action
  | check (number : Nat) (tenantID callerID : String) (callerRoles : List String)
  | create (number : Nat) (operationID : String) (reply : Reply)
  | insert (number : Nat) (jobID : String)
  | send (number : Nat)
  | abandon (number : Nat)
  | take
  | get (reply : Reply)
  | update (reply : Reply)
  | finish (outcome : Outcome)

def getOperation (s : State) (jobID : String) (reply : Reply) : Option ExportOperation :=
  match reply.error, s.jobs.find jobID with
  | none, some job => if job.operationID = "" then none else s.operations.find job.operationID
  | _, _ => none

def ended (outcome : Outcome) (op : ExportOperation) : ExportOperation := { op with
  status := outcome.operation
  result := match outcome with
    | .done result => some result
    | .cancelled _ | .failed _ => op.result
  error := match outcome with
    | .done _ => op.error
    | .cancelled _ | .failed _ => outcome.error }

def step (store : Store) (s : State) : Action → Option State
  | .check number tenantID callerID callerRoles =>
    if InProgress s.jobs tenantID then some s
    else (s.calls.insert ⟨number,tenantID,callerID,callerRoles,.checked⟩).map (fun calls => { s with calls })
  | .create number operationID reply =>
    match s.calls.find number with
    | some ⟨_,tenantID,callerID,callerRoles,.checked⟩ =>
      if operationID = "" then none
      else (s.operations.insert (newOperation operationID tenantID callerID callerRoles)).map (fun operations =>
        { s with
          operations := if reply.effective then operations else s.operations
          calls := if reply.error = none then setCall s.calls number (.stored operationID) else endCall s.calls number })
    | _ => none
  | .insert number jobID =>
    match s.calls.find number with
    | some ⟨_,tenantID,callerID,callerRoles,.stored operationID⟩ =>
      (s.jobs.insert (newJob jobID operationID tenantID callerID callerRoles)).map (fun jobs =>
        { s with jobs, calls := setCall s.calls number (.inserted jobID) })
    | _ => none
  | .send number =>
    match s.calls.find number with
    | some ⟨_,_,_,_,.inserted jobID⟩ =>
      if s.pending.length < capacity then some { s with pending := s.pending ++ [jobID], calls := endCall s.calls number } else none
    | _ => none
  | .abandon number =>
    match s.calls.find number with
    | some ⟨_,_,_,_,.inserted jobID⟩ =>
      some { s with jobs := s.jobs.delete (fun j => j.id = jobID), calls := endCall s.calls number }
    | _ => none
  | .take =>
    match s.worker, s.pending with
    | .waiting, jobID :: pending =>
      some { s with jobs := s.jobs.update (fun j => j.id = jobID) (fun j => { j with status := .running }) (fun _ => rfl)
                    pending, worker := .marking jobID }
    | _, _ => none
  | .get reply =>
    match s.worker with
    | .marking jobID =>
      match getOperation s jobID reply with
      | none => some { s with worker := .exporting jobID }
      | some op =>
        let op := { op with status := .running }
        some { s with operations := assigned store s.operations op, worker := .writing jobID op }
    | .finishing jobID outcome =>
      match getOperation s jobID reply with
      | none => some { s with worker := .waiting }
      | some op =>
        some { s with operations := assigned store s.operations (ended outcome op), worker := .recording jobID (ended outcome op) }
    | _ => none
  | .update reply =>
    match s.worker with
    | .writing jobID op =>
      some { s with operations := if reply.effective then putOperation s.operations op else s.operations, worker := .exporting jobID }
    | .recording _ op =>
      some { s with operations := if reply.effective then putOperation s.operations op else s.operations, worker := .waiting }
    | _ => none
  | .finish outcome =>
    match s.worker with
    | .exporting jobID =>
      some { s with jobs := setJob s.jobs jobID outcome.job outcome.result outcome.error, worker := .finishing jobID outcome }
    | _ => none

/-! ### The condition -/

/-- Between the look at the map and the entry in it. -/
def Call.InFlight (c : Call) : Prop :=
  match c.phase with
  | .checked | .stored _ => True
  | .inserted _ => False
instance (c : Call) : Decidable c.InFlight := by
  unfold Call.InFlight
  split <;> infer_instance

/-- No call looks at the map while the tenant has a call in flight or an ended job whose operation is yet to be written;
    what is stored is answered; the end of a job reaches its operation; and no context ends before the job is sent. -/
def Undisturbed (s : State) : Action → Prop
  | .check _ tenantID _ _ => (∀ c ∈ s.calls.rows, c.InFlight → c.tenantID ≠ tenantID) ∧
      ∀ j ∈ s.jobs.rows, s.worker.ended = some j.id → j.tenantID ≠ tenantID
  | .create _ _ reply => reply.error = none ∨ reply.effective = false
  | .abandon _ => False
  | .get reply => s.worker.ended = none ∨ reply.error = none
  | .update reply => s.worker.ended = none ∨ reply.effective = true
  | .insert .. | .send _ | .take | .finish _ => True
instance (s : State) (a : Action) : Decidable (Undisturbed s a) := by
  unfold Undisturbed
  split <;> infer_instance

section
variable (jobs : Table ExportJob.id) (operations : Table ExportOperation.id) (pending : List String)
  (calls : Table Call.number) (worker : Worker)

structure Custody : Prop where
  queued : ∀ id ∈ pending, ∃ j ∈ jobs, j.id = id ∧ j.status = .pending
  nodup : pending.Nodup
  inserted : ∀ c ∈ calls, ∀ id, c.phase = .inserted id → id ∉ pending ∧ ∃ j ∈ jobs, j.id = id ∧ j.status = .pending
  senders : ∀ c ∈ calls, ∀ c' ∈ calls, ∀ id, c.phase = .inserted id → c'.phase = .inserted id → c = c'
  running : ∀ id, worker.running = some id → ∃ j ∈ jobs, j.id = id ∧ j.status = .running
  ended : ∀ id, worker.ended = some id → ∃ j ∈ jobs, j.id = id ∧ ¬ j.Active

/-- The operation with the ID is one of the tenant. -/
def Known (id tenantID : String) : Prop := id ≠ "" ∧ ∃ o ∈ operations, o.id = id ∧ o.tenantID = tenantID
/-- The operation is the one that the job names. -/
def OfJob (id : String) (op : ExportOperation) : Prop := ∃ j ∈ jobs, j.id = id ∧ j.operationID = op.id ∧ j.tenantID = op.tenantID
/-- Jobs and calls name operations of their own tenant, and so does what the worker writes. -/
structure Named : Prop where
  ofJob : ∀ j ∈ jobs, Known operations j.operationID j.tenantID
  ofCall : ∀ c ∈ calls, ∀ id, c.phase = .stored id → Known operations id c.tenantID
  writing : ∀ id op, worker = .writing id op → OfJob jobs id op
  recording : ∀ id op, worker = .recording id op → ¬ op.Active ∧ OfJob jobs id op

end

def Phase.operation : Phase → Option (Option String)
  | .checked => some none
  | .stored id => some (some id)
  | .inserted _ => none
/-- Who is responsible for a tenant: a call until its job is in the map, or a job until its operation is written. -/
inductive Owner
  | call (number : Nat) | job (id : String)
def Owns (s : State) (tenantID : String) (operation : Option String) : Owner → Prop
  | .call number => ∃ c ∈ s.calls, c.number = number ∧ c.tenantID = tenantID ∧ c.phase.operation = some operation
  | .job id => ∃ j ∈ s.jobs, j.id = id ∧ j.tenantID = tenantID ∧ some j.operationID = operation ∧ (j.Active ∨ s.worker.ended = some id)

structure Inv (s : State) : Prop where
  custody : Custody s.jobs s.pending s.calls s.worker
  exclusive : ∀ tenantID op op' w w', Owns s tenantID op w → Owns s tenantID op' w' → w = w'
  named : Named s.jobs s.operations s.calls s.worker
  covered : ∀ o ∈ s.operations, o.Active → ∃ w, Owns s o.tenantID (some o.id) w

section
variable {store : Store} {s t : State} {c call : Call} {id tenantID jobID : String} {calls : Table Call.number} {number : Nat}
  {jobs : Table ExportJob.id} {worker : Worker} {operations : Table ExportOperation.id} {op : ExportOperation} {reply : Reply}

private theorem inFlight_iff : c.InFlight ↔ ∃ op, c.phase.operation = some op := by
  unfold Call.InFlight
  split <;> simp_all [Phase.operation]

variable {o : ExportOperation} {phase : Phase} {calls' : Table Call.number} {pending : List String} {operationID : String}
  {outcome : Outcome}

theorem Inv.single (inv : Inv s) {o' : ExportOperation} (member : o ∈ s.operations) (member' : o' ∈ s.operations) (active : o.Active)
    (active' : o'.Active) (same : o.tenantID = o'.tenantID) : o = o' := by
  obtain ⟨w,owns⟩ := inv.covered o member active
  obtain ⟨w',owns'⟩ := inv.covered o' member' active'
  rw [same] at owns
  obtain rfl := inv.exclusive _ _ _ w w' owns owns'
  apply s.operations.eq_of_key member member'
  cases w with
  | call number =>
    obtain ⟨c,inCalls,its,_,names⟩ := owns
    obtain ⟨c',inCalls',its',_,names'⟩ := owns'
    obtain rfl := s.calls.eq_of_key inCalls inCalls' (its.trans its'.symm)
    simpa [names] using names'
  | job id =>
    obtain ⟨j,inJobs,its,_,names,_⟩ := owns
    obtain ⟨j',inJobs',its',_,names',_⟩ := owns'
    obtain rfl := s.jobs.eq_of_key inJobs inJobs' (its.trans its'.symm)
    simpa [names] using names'

/-! ### The steps of a call -/

theorem mem_endCall : c ∈ endCall calls number ↔ c ∈ calls ∧ c.number ≠ number := by
  simp [endCall,mem_delete]
theorem mem_setCall (found : calls.find number = some call) :
    c ∈ setCall calls number phase ↔ c = { call with phase } ∨ (c ∈ calls ∧ c.number ≠ number) := mem_update_key found
theorem other_number (found : calls.find number = some call) (member : c ∈ calls) (differs : c.phase.operation ≠ call.phase.operation) :
    c.number ≠ number := by
  intro same
  have its := calls.find_some.mpr ⟨member,same⟩
  rw [found] at its
  exact differs (by rw [Option.some.inj its])

theorem covered_calls (covered : ∃ w, Owns s tenantID (some id) w)
    (kept : ∀ c ∈ s.calls, c.phase.operation = some (some id) → c ∈ calls) : ∃ w, Owns { s with calls } tenantID (some id) w := by
  obtain ⟨n | jobID,owns⟩ := covered
  · obtain ⟨c,inCalls,its,tenant,names⟩ := owns
    exact ⟨.call n,c,kept c inCalls names,its,tenant,names⟩
  · exact ⟨.job jobID,owns⟩
/-- Nobody becomes responsible for a tenant. -/
theorem Inv.fewer (inv : Inv s) (before : ∀ tenantID op w, Owns t tenantID op w → ∃ op', Owns s tenantID op' w) :
    ∀ tenantID op op' w w', Owns t tenantID op w → Owns t tenantID op' w' → w = w' := by
  intro tenantID op op' w w' owns owns'
  obtain ⟨was,owned⟩ := before tenantID op w owns
  obtain ⟨was',owned'⟩ := before tenantID op' w' owns'
  exact inv.exclusive tenantID was was' w w' owned owned'
theorem owns_fewer (fewer : ∀ c ∈ calls, c ∈ s.calls) (tenantID : String) (op : Option String) (w : Owner)
    (owns : Owns { s with calls } tenantID op w) : ∃ op', Owns s tenantID op' w := by
  cases w with
  | call n =>
    obtain ⟨c,member,its⟩ := owns
    exact ⟨op,c,fewer c member,its⟩
  | job id => exact ⟨op,owns⟩
theorem Custody.fewer (custody : Custody jobs pending calls worker) (fewer : ∀ c ∈ calls', ∀ id, c.phase = .inserted id → c ∈ calls) :
    Custody jobs pending calls' worker :=
  ⟨custody.queued,custody.nodup,fun c member id at_ => custody.inserted c (fewer c member id at_) id at_,
    fun c member c' member' id at_ at_' => custody.senders c (fewer c member id at_) c' (fewer c' member' id at_') id at_ at_',
    custody.running,custody.ended⟩

theorem Inv.checked {callerID : String} {callerRoles : List String} (inv : Inv s)
    (allowed : Undisturbed s (.check number tenantID callerID callerRoles)) (free : ¬ InProgress s.jobs tenantID)
    (entered : s.calls.insert ⟨number,tenantID,callerID,callerRoles,.checked⟩ = some calls) : Inv { s with calls } := by
  obtain ⟨_,members⟩ := insert_some entered
  obtain ⟨noCall,noEnd⟩ := allowed
  have old : ∀ c ∈ calls, ∀ phase, c.phase = phase → phase ≠ .checked → c ∈ s.calls := by
    rintro c member phase rfl other
    obtain old | rfl := (members c).mp member
    · exact old
    · exact absurd rfl other
  have nobody : ∀ op w, ¬ Owns s tenantID op w := by
    rintro op (n | id)
    · rintro ⟨c,inCalls,_,tenant,names⟩
      exact noCall c inCalls (inFlight_iff.mpr ⟨op,names⟩) tenant
    · rintro ⟨j,inJobs,rfl,tenant,_,active | ended⟩
      · exact free ⟨j,inJobs,tenant,active⟩
      · exact noEnd j inJobs ended tenant
  have back : ∀ ten op w, Owns { s with calls } ten op w → Owns s ten op w ∨ (w = .call number ∧ ten = tenantID) := by
    rintro ten op (n | id) owns
    · obtain ⟨c,member,rfl,rfl,names⟩ := owns
      obtain before | rfl := (members c).mp member
      · exact .inl ⟨c,before,rfl,rfl,names⟩
      · exact .inr ⟨rfl,rfl⟩
    · exact .inl owns
  refine ⟨inv.custody.fewer (fun c member id at_ => old c member _ at_ nofun),?_,⟨inv.named.ofJob,?_,inv.named.writing,inv.named.recording⟩,?_⟩
  · intro ten op op' w w' owns owns'
    obtain before | ⟨rfl,rfl⟩ := back ten op w owns
    · obtain before' | ⟨rfl,rfl⟩ := back ten op' w' owns'
      · exact inv.exclusive ten op op' w w' before before'
      · exact absurd before (nobody op w)
    · obtain before' | ⟨rfl,_⟩ := back ten op' w' owns'
      · exact absurd before' (nobody op' w')
      · rfl
  · intro c member id at_
    exact inv.named.ofCall c (old c member _ at_ nofun) id at_
  · intro o member active
    exact covered_calls (inv.covered o member active) (fun c inCalls _ => (members c).mpr (.inl inCalls))

theorem Known.insert {operations' : Table ExportOperation.id} (known : Known operations id tenantID)
    (new : operations.insert op = some operations') : Known operations' id tenantID := known.imp_right (exists_insert new)

section
variable (inv : Inv s) (found : s.calls.find number = some call)
include inv found

theorem Inv.created (allowed : Undisturbed s (.create number operationID reply))
    (at_ : call.phase = .checked) (nonempty : operationID ≠ "")
    (new : s.operations.insert (newOperation operationID call.tenantID call.callerID call.callerRoles) = some operations) :
    Inv { s with
      operations := if reply.effective then operations else s.operations
      calls := if reply.error = none then setCall s.calls number (.stored operationID) else endCall s.calls number } := by
  obtain ⟨here,its⟩ := s.calls.find_some.mp found
  have stays : ∀ c ∈ s.calls, ∀ id, c.phase.operation = some (some id) → c.number ≠ number := fun c member id stored =>
    other_number found member (by rw [stored,at_]; nofun)
  by_cases silent : reply.error = none
  · -- The operation is stored, and the call is responsible for it.
    simp only [if_pos silent,if_pos (Reply.effective_of_error silent)]
    obtain ⟨_,members⟩ := insert_some new
    refine ⟨inv.custody.fewer (fun c member id inserted => ?_),inv.fewer ?_,?_,?_⟩
    · obtain rfl | ⟨old,_⟩ := (mem_setCall found).mp member
      · cases inserted
      · exact old
    · rintro tenantID op (n | id) owns
      · obtain ⟨c,member,rfl,rfl,names⟩ := owns
        obtain rfl | ⟨old,_⟩ := (mem_setCall found).mp member
        · exact ⟨none,call,here,rfl,rfl,by rw [at_]; rfl⟩
        · exact ⟨op,c,old,rfl,rfl,names⟩
      · exact ⟨op,owns⟩
    · refine ⟨fun j inJobs => (inv.named.ofJob j inJobs).insert new,fun c member id stored => ?_,inv.named.writing,inv.named.recording⟩
      obtain rfl | ⟨old,_⟩ := (mem_setCall found).mp member
      · cases stored
        exact ⟨nonempty,_,(members _).mpr (.inr rfl),rfl,rfl⟩
      · exact (inv.named.ofCall c old id stored).insert new
    · intro o member active
      obtain old | rfl := (members o).mp member
      · exact covered_calls (inv.covered o old active) (fun c inCalls stored => (mem_setCall found).mpr (.inr ⟨inCalls,stays c inCalls _ stored⟩))
      · exact ⟨.call number,_,(mem_setCall found).mpr (.inl rfl),its,rfl,rfl⟩
  · have ineffective : reply.effective = false := allowed.resolve_left silent
    simp only [if_neg silent,ineffective,Bool.false_eq_true,if_false]
    have fewer : ∀ c ∈ endCall s.calls number, c ∈ s.calls := fun c member => (mem_endCall.mp member).1
    refine ⟨inv.custody.fewer (fun c member _ _ => fewer c member),inv.fewer (owns_fewer fewer),
      ⟨inv.named.ofJob,fun c member => inv.named.ofCall c (fewer c member),inv.named.writing,inv.named.recording⟩,?_⟩
    intro o member active
    exact covered_calls (inv.covered o member active) (fun c inCalls stored => mem_endCall.mpr ⟨inCalls,stays c inCalls _ stored⟩)

section
variable (new : s.jobs.insert (newJob jobID operationID call.tenantID call.callerID call.callerRoles) = some jobs)
include new

theorem Inv.custody_inserted : Custody jobs s.pending (setCall s.calls number (.inserted jobID)) s.worker := by
  obtain ⟨fresh,members⟩ := insert_some new
  have other : ∀ c ∈ s.calls, c.phase = .inserted jobID → False := by
    intro c before inserted
    obtain ⟨_,j,inJobs,same,_⟩ := inv.custody.inserted c before jobID inserted
    exact fresh j inJobs same
  refine ⟨fun id member => exists_insert new (inv.custody.queued id member),inv.custody.nodup,?_,?_,
    fun id runs => exists_insert new (inv.custody.running id runs),fun id ends => exists_insert new (inv.custody.ended id ends)⟩
  · intro c member id inserted
    obtain rfl | ⟨before,_⟩ := (mem_setCall found).mp member
    · cases inserted
      refine ⟨fun queued => ?_,_,(members _).mpr (.inr rfl),rfl,rfl⟩
      obtain ⟨j,inJobs,same,_⟩ := inv.custody.queued _ queued
      exact fresh j inJobs same
    · exact (inv.custody.inserted c before id inserted).imp_right (exists_insert new)
  · intro c member c' member' id inserted inserted'
    obtain rfl | ⟨before,_⟩ := (mem_setCall found).mp member
    · obtain rfl | ⟨before',_⟩ := (mem_setCall found).mp member'
      · rfl
      · cases inserted
        exact (other c' before' inserted').elim
    · obtain rfl | ⟨before',_⟩ := (mem_setCall found).mp member'
      · cases inserted'
        exact (other c before inserted).elim
      · exact inv.custody.senders c before c' before' id inserted inserted'
omit inv in
/-- The job takes over from the call. -/
theorem owns_inserted (ten : String) (op : Option String) (w : Owner)
    (owns : Owns { s with jobs, calls := setCall s.calls number (.inserted jobID) } ten op w) :
    (w = .job jobID ∧ ten = call.tenantID) ∨ (w ≠ .call number ∧ Owns s ten op w) := by
  obtain ⟨_,members⟩ := insert_some new
  cases w with
  | call n =>
    obtain ⟨c,member,rfl,rfl,names⟩ := owns
    obtain rfl | ⟨before,other⟩ := (mem_setCall found).mp member
    · cases names
    · exact .inr ⟨by simpa using other,c,before,rfl,rfl,names⟩
  | job id =>
    obtain ⟨j,inJobs,rfl,rfl,owns⟩ := owns
    obtain before | rfl := (members j).mp inJobs
    · exact .inr ⟨nofun,j,before,rfl,rfl,owns⟩
    · exact .inl ⟨rfl,rfl⟩
theorem Inv.inserted (at_ : call.phase = .stored operationID) :
    Inv { s with jobs, calls := setCall s.calls number (.inserted jobID) } := by
  obtain ⟨here,its⟩ := s.calls.find_some.mp found
  obtain ⟨_,members⟩ := insert_some new
  have owned : Owns s call.tenantID (some operationID) (.call number) := ⟨call,here,its,rfl,by rw [at_]; rfl⟩
  refine ⟨inv.custody_inserted found new,?_,⟨?_,?_,fun id op writing => exists_insert new (inv.named.writing id op writing),
    fun id op recording => (inv.named.recording id op recording).imp_right (exists_insert new)⟩,?_⟩
  · intro ten op op' w w' owns owns'
    obtain ⟨rfl,rfl⟩ | ⟨other,before⟩ := owns_inserted found new ten op w owns
    · obtain ⟨rfl,_⟩ | ⟨other',before'⟩ := owns_inserted found new _ op' w' owns'
      · rfl
      · exact absurd (inv.exclusive _ _ _ _ _ before' owned) other'
    · obtain ⟨rfl,rfl⟩ | ⟨_,before'⟩ := owns_inserted found new ten op' w' owns'
      · exact absurd (inv.exclusive _ _ _ _ _ before owned) other
      · exact inv.exclusive ten op op' w w' before before'
  · intro j inJobs
    obtain before | rfl := (members j).mp inJobs
    · exact inv.named.ofJob j before
    · exact inv.named.ofCall call here operationID at_
  · intro c member id stored
    obtain rfl | ⟨before,_⟩ := (mem_setCall found).mp member
    · cases stored
    · exact inv.named.ofCall c before id stored
  · intro o member active
    obtain ⟨n | id,owns⟩ := inv.covered o member active
    · obtain ⟨c,inCalls,same,tenant,names⟩ := owns
      by_cases this : c.number = number
      · obtain rfl : c = call := s.calls.eq_of_key inCalls here (this.trans its.symm)
        rw [at_] at names
        exact ⟨.job jobID,_,(members _).mpr (.inr rfl),rfl,tenant,Option.some.inj names,.inl (.inl rfl)⟩
      · exact ⟨.call n,c,(mem_setCall found).mpr (.inr ⟨inCalls,this⟩),same,tenant,names⟩
    · exact ⟨.job id,exists_insert new owns⟩
end

theorem Inv.sent (at_ : call.phase = .inserted jobID) :
    Inv { s with pending := s.pending ++ [jobID], calls := endCall s.calls number } := by
  obtain ⟨here,its⟩ := s.calls.find_some.mp found
  obtain ⟨unsent,entered⟩ := inv.custody.inserted call here jobID at_
  have fewer : ∀ c ∈ endCall s.calls number, c ∈ s.calls := fun c member => (mem_endCall.mp member).1
  refine ⟨⟨?_,?_,?_,?_,inv.custody.running,inv.custody.ended⟩,inv.fewer (owns_fewer fewer),
    ⟨inv.named.ofJob,fun c member => inv.named.ofCall c (fewer c member),inv.named.writing,inv.named.recording⟩,?_⟩
  · intro id member
    obtain queued | last := List.mem_append.mp member
    · exact inv.custody.queued id queued
    · rw [List.mem_singleton.mp last]
      exact entered
  · exact List.nodup_append.mpr ⟨inv.custody.nodup,List.nodup_singleton jobID,fun id queued id' last same =>
      unsent (List.mem_singleton.mp last ▸ same ▸ queued)⟩
  · intro c member id inserted
    obtain ⟨inCalls,other⟩ := mem_endCall.mp member
    obtain ⟨waiting,entered⟩ := inv.custody.inserted c inCalls id inserted
    refine ⟨fun queued => ?_,entered⟩
    obtain queued | last := List.mem_append.mp queued
    · exact waiting queued
    · rw [List.mem_singleton.mp last] at inserted
      exact other ((congrArg Call.number (inv.custody.senders c inCalls call here jobID inserted at_)).trans its)
  · intro c member c' member' id
    exact inv.custody.senders c (fewer c member) c' (fewer c' member') id
  · intro o member active
    exact covered_calls (inv.covered o member active) (fun c inCalls stored =>
      mem_endCall.mpr ⟨inCalls,other_number found inCalls (by rw [stored,at_]; nofun)⟩)

end

/-! ### The steps of the worker -/

/-- A job is changed that is responsible before and afterwards, and the worker is at no other job that has ended. -/
theorem owns_setJob (pending : List String) (worker : Worker) {job job' : ExportJob} (here : job ∈ s.jobs) (active : job.Active) (free : s.worker.ended = none)
    (members : ∀ j, j ∈ jobs ↔ j = job' ∨ (j ∈ s.jobs ∧ j.id ≠ job.id)) (same : job'.id = job.id) (tenant : job'.tenantID = job.tenantID)
    (names : job'.operationID = job.operationID) (live : job'.Active ∨ worker.ended = some job.id)
    (own : ∀ id, worker.ended = some id → id = job.id) (tenantID : String) (op : Option String) (w : Owner) :
    Owns { s with jobs, pending, worker } tenantID op w ↔ Owns s tenantID op w := by
  cases w with
  | call n => exact Iff.rfl
  | job id =>
    constructor
    · rintro ⟨j,inJobs,rfl,rfl,rfl,lives⟩
      obtain rfl | ⟨old,other⟩ := (members j).mp inJobs
      · exact ⟨job,here,same.symm,tenant.symm,by rw [names],.inl active⟩
      · exact ⟨j,old,rfl,rfl,rfl,.inl (lives.resolve_right (fun ended => other (own _ ended)))⟩
    · rintro ⟨j,inJobs,rfl,rfl,rfl,lives⟩
      have lives := lives.resolve_right (by simp [free])
      by_cases this : j.id = job.id
      · obtain rfl := s.jobs.eq_of_key inJobs here this
        exact ⟨job',(members _).mpr (.inl rfl),same,tenant,by rw [names],live⟩
      · exact ⟨j,(members j).mpr (.inr ⟨inJobs,this⟩),rfl,rfl,rfl,.inl lives⟩
theorem Inv.same (inv : Inv s) (same : ∀ tenantID op w, Owns t tenantID op w ↔ Owns s tenantID op w) :
    (∀ tenantID op op' w w', Owns t tenantID op w → Owns t tenantID op' w' → w = w') ∧
      ∀ o ∈ s.operations, o.Active → ∃ w, Owns t o.tenantID (some o.id) w := by
  simp only [same]
  exact ⟨inv.exclusive,inv.covered⟩

theorem Outcome.job_final (outcome : Outcome) : outcome.job ≠ .pending ∧ outcome.job ≠ .running := by
  cases outcome <;> exact ⟨nofun,nofun⟩
theorem getOperation_found (found : getOperation s jobID reply = some op) :
    ∃ j ∈ s.jobs, j.id = jobID ∧ j.operationID = op.id ∧ op ∈ s.operations := by
  unfold getOperation at found
  split at found
  · next job _ entered =>
    split at found
    · cases found
    · obtain ⟨inJobs,its⟩ := s.jobs.find_some.mp entered
      obtain ⟨member,same⟩ := s.operations.find_some.mp found
      exact ⟨job,inJobs,its,same.symm,member⟩
  · cases found
theorem getOperation_known {j : ExportJob} (inJobs : j ∈ s.jobs) (silent : reply.error = none)
    (known : Known s.operations j.operationID j.tenantID) : getOperation s j.id reply ≠ none := by
  obtain ⟨nonempty,o,member,same,_⟩ := known
  have entered := s.jobs.find_some.mpr ⟨inJobs,rfl⟩
  have stored := s.operations.find_some.mpr ⟨member,same⟩
  simp [getOperation,silent,entered,nonempty,stored]

theorem mem_putOperation (known : Known operations op.id tenantID) :
    o ∈ putOperation operations op ↔ o = op ∨ (o ∈ operations ∧ o.id ≠ op.id) := by
  obtain ⟨_,o',member,same,_⟩ := known
  have found := operations.find_some.mpr ⟨member,same⟩
  have members : o ∈ putOperation operations op ↔ o = { op with id := o'.id } ∨ (o ∈ operations ∧ o.id ≠ op.id) := mem_update_key found
  rw [members,same]
theorem Known.put (known : Known operations id tenantID) (its : Known operations op.id op.tenantID) :
    Known (putOperation operations op) id tenantID := by
  obtain ⟨nonempty,o,member,rfl,rfl⟩ := known
  obtain ⟨_,o',member',same,tenant⟩ := id its
  refine ⟨nonempty,?_⟩
  by_cases written : o.id = op.id
  · obtain rfl : o = o' := operations.eq_of_key member member' (written.trans same.symm)
    exact ⟨op,(mem_putOperation its).mpr (.inl rfl),written.symm,tenant.symm⟩
  · exact ⟨o,(mem_putOperation its).mpr (.inr ⟨member,written⟩),rfl,rfl⟩

theorem assigned_either (store : Store) (operations : Table ExportOperation.id) (op : ExportOperation) :
    assigned store operations op = operations ∨ assigned store operations op = putOperation operations op := by
  cases store
  · exact .inr rfl
  · exact .inl rfl

private theorem ended_final (outcome : Outcome) (op : ExportOperation) : ¬ (ended outcome op).Active := by
  cases outcome <;> simp [ended,ExportOperation.Active,Outcome.operation]
section
variable (inv : Inv s)
include inv

theorem Inv.taken (at_ : s.worker = .waiting) (first : s.pending = jobID :: pending) :
    Inv { s with
      jobs := s.jobs.update (fun j => j.id = jobID) (fun j => { j with status := .running }) (fun _ => rfl)
      pending, worker := .marking jobID } := by
  obtain ⟨job,here,rfl,waits⟩ := inv.custody.queued jobID (first ▸ List.mem_cons_self)
  have found : s.jobs.find job.id = some job := s.jobs.find_some.mpr ⟨here,rfl⟩
  obtain ⟨unqueued,nodup⟩ := List.nodup_cons.mp (first ▸ inv.custody.nodup)
  have members : ∀ j, j ∈ s.jobs.update (fun j => j.id = job.id) (fun j => { j with status := .running }) (fun _ => rfl) ↔
      j = { job with status := .running } ∨ (j ∈ s.jobs ∧ j.id ≠ job.id) := fun j => mem_update_key found
  obtain ⟨exclusive,covered⟩ := inv.same (owns_setJob pending (.marking job.id) here (.inl waits) (by rw [at_]; rfl)
    members rfl rfl rfl (.inl (.inr rfl)) nofun)
  refine ⟨⟨?_,nodup,?_,inv.custody.senders,?_,nofun⟩,exclusive,⟨?_,inv.named.ofCall,nofun,nofun⟩,covered⟩
  · intro id queued
    obtain ⟨j,inJobs,same,pending⟩ := inv.custody.queued id (first ▸ List.mem_cons_of_mem job.id queued)
    exact ⟨j,(members j).mpr (.inr ⟨inJobs,fun other => unqueued (other ▸ same ▸ queued)⟩),same,pending⟩
  · intro c inCalls id inserted
    obtain ⟨unsent,j,inJobs,same,pending⟩ := inv.custody.inserted c inCalls id inserted
    rw [first] at unsent
    obtain ⟨other,unsent⟩ := not_or.mp (mt List.mem_cons.mpr unsent)
    exact ⟨unsent,j,(members j).mpr (.inr ⟨inJobs,fun taken => other (same.symm.trans taken)⟩),same,pending⟩
  · intro id running
    exact ⟨_,(members _).mpr (.inl rfl),Option.some.inj running,rfl⟩
  · intro j inJobs
    obtain rfl | ⟨old,_⟩ := (members j).mp inJobs
    · exact inv.named.ofJob job here
    · exact inv.named.ofJob j old

theorem Inv.exported (at_ : s.worker = .exporting jobID) :
    Inv { s with jobs := setJob s.jobs jobID outcome.job outcome.result outcome.error, worker := .finishing jobID outcome } := by
  obtain ⟨job,here,rfl,runs⟩ := inv.custody.running jobID (by rw [at_]; rfl)
  have active : job.Active := .inr runs
  have found : s.jobs.find job.id = some job := s.jobs.find_some.mpr ⟨here,rfl⟩
  have members : ∀ j, j ∈ ExportJobs.setJob s.jobs job.id outcome.job outcome.result outcome.error ↔
      j = { job with status := outcome.job, result := outcome.result, error := outcome.error } ∨ (j ∈ s.jobs ∧ j.id ≠ job.id) :=
    fun j => mem_update_key found
  have final : ¬ ExportJob.Active { job with status := outcome.job, result := outcome.result, error := outcome.error } :=
    not_or.mpr outcome.job_final
  -- A pending job is not the one that ends.
  have stays : ∀ j ∈ s.jobs, j.status = .pending → j.id ≠ job.id := by
    intro j inJobs waits same
    obtain rfl : j = job := s.jobs.eq_of_key inJobs here same
    rw [runs] at waits
    cases waits
  obtain ⟨exclusive,covered⟩ := inv.same (owns_setJob s.pending (.finishing job.id outcome) here active
    (by rw [at_]; rfl) members rfl rfl rfl (.inr rfl) (by rintro _ ⟨⟩; rfl))
  refine ⟨⟨?_,inv.custody.nodup,?_,inv.custody.senders,nofun,?_⟩,exclusive,⟨?_,inv.named.ofCall,nofun,nofun⟩,covered⟩
  · intro id queued
    obtain ⟨j,inJobs,same,waits⟩ := inv.custody.queued id queued
    exact ⟨j,(members j).mpr (.inr ⟨inJobs,stays j inJobs waits⟩),same,waits⟩
  · intro c inCalls id inserted
    obtain ⟨unsent,j,inJobs,same,waits⟩ := inv.custody.inserted c inCalls id inserted
    exact ⟨unsent,j,(members j).mpr (.inr ⟨inJobs,stays j inJobs waits⟩),same,waits⟩
  · intro id ended
    exact ⟨_,(members _).mpr (.inl rfl),Option.some.inj ended,final⟩
  · intro j inJobs
    obtain rfl | ⟨before,_⟩ := (members j).mp inJobs
    · exact inv.named.ofJob job here
    · exact inv.named.ofJob j before

theorem Inv.written (known : Known s.operations op.id op.tenantID) (covered : op.Active → ∃ w, Owns s op.tenantID (some op.id) w)
    (either : operations = s.operations ∨ operations = putOperation s.operations op) : Inv { s with operations } := by
  obtain rfl | rfl := either
  · exact inv
  · refine ⟨inv.custody,inv.exclusive,⟨fun j inJobs => (inv.named.ofJob j inJobs).put known,
      fun c inCalls id stored => (inv.named.ofCall c inCalls id stored).put known,inv.named.writing,inv.named.recording⟩,?_⟩
    intro o member active
    obtain rfl | ⟨old,_⟩ := (mem_putOperation known).mp member
    · exact covered active
    · exact inv.covered o old active

theorem Inv.moved (running : worker.running = s.worker.running) (ended : worker.ended = s.worker.ended)
    (writing : ∀ id op, worker = .writing id op → OfJob s.jobs id op)
    (recording : ∀ id op, worker = .recording id op → ¬ op.Active ∧ OfJob s.jobs id op) : Inv { s with worker } := by
  obtain ⟨custody,exclusive,named,covered⟩ := inv
  have same : Owns { s with worker } = Owns s := by
    funext tenantID op w
    cases w <;> simp only [Owns,ended]
  refine ⟨⟨custody.queued,custody.nodup,custody.inserted,custody.senders,?_,?_⟩,by rwa [same],
    ⟨named.ofJob,named.ofCall,writing,recording⟩,by rwa [same]⟩
  · exact fun id runs => custody.running id (running ▸ runs)
  · exact fun id ends => custody.ended id (ended ▸ ends)

theorem Inv.released (at_ : s.worker = .recording jobID op) (written : ∀ o ∈ s.operations, o.id = op.id → ¬ o.Active) :
    Inv { s with worker := .waiting } := by
  refine ⟨⟨inv.custody.queued,inv.custody.nodup,inv.custody.inserted,inv.custody.senders,nofun,nofun⟩,inv.fewer ?_,
    ⟨inv.named.ofJob,inv.named.ofCall,nofun,nofun⟩,?_⟩
  · rintro tenantID op (n | id) owns
    · exact ⟨op,owns⟩
    · obtain ⟨j,inJobs,its,tenant,names,lives⟩ := owns
      exact ⟨op,j,inJobs,its,tenant,names,lives.imp_right nofun⟩
  · intro o member active
    obtain ⟨n | id,owns⟩ := inv.covered o member active
    · exact ⟨.call n,owns⟩
    · obtain ⟨j,inJobs,rfl,tenant,names,running | ended⟩ := owns
      · exact ⟨.job j.id,j,inJobs,rfl,tenant,names,.inl running⟩
      · rw [at_] at ended
        obtain ⟨_,j',inJobs',same,its,_⟩ := inv.named.recording jobID op at_
        obtain rfl : j = j' := s.jobs.eq_of_key inJobs inJobs' ((Option.some.inj ended).symm.trans same.symm)
        exact absurd active (written o member ((Option.some.inj names).symm.trans its))

theorem Inv.covered_running (runs : s.worker.running = some jobID) (its : OfJob s.jobs jobID op) :
    ∃ w, Owns s op.tenantID (some op.id) w := by
  obtain ⟨j,inJobs,same,names,tenant⟩ := its
  obtain ⟨j',inJobs',same',running⟩ := inv.custody.running jobID runs
  obtain rfl : j = j' := s.jobs.eq_of_key inJobs inJobs' (same.trans same'.symm)
  exact ⟨.job jobID,j,inJobs,same,tenant,congrArg some names,.inl (.inr running)⟩

theorem Inv.wrote (at_ : s.worker = .writing jobID op) :
    Inv { s with
      operations := if reply.effective then putOperation s.operations op else s.operations, worker := .exporting jobID } := by
  have its := inv.named.writing jobID op at_
  have runs : s.worker.running = some jobID := by rw [at_]; rfl
  obtain ⟨j,inJobs,_,names,tenant⟩ := id its
  have known := inv.named.ofJob j inJobs
  rw [names,tenant] at known
  have either : (if reply.effective then putOperation s.operations op else s.operations) = s.operations ∨
      (if reply.effective then putOperation s.operations op else s.operations) = putOperation s.operations op := by
    split <;> simp
  have written := inv.written known (fun _ => inv.covered_running runs its) either
  exact written.moved runs.symm (by simp only [at_]; rfl) nofun nofun

theorem Inv.recorded (allowed : Undisturbed s (.update reply)) (at_ : s.worker = .recording jobID op) :
    Inv { s with operations := if reply.effective then putOperation s.operations op else s.operations, worker := .waiting } := by
  obtain ⟨inactive,j,inJobs,_,names,tenant⟩ := inv.named.recording jobID op at_
  have known := inv.named.ofJob j inJobs
  rw [names,tenant] at known
  have effective : reply.effective = true := allowed.resolve_left (by rw [at_]; nofun)
  simp only [effective,if_true]
  refine (inv.written known (fun active => absurd active inactive) (.inr rfl)).released at_ ?_
  intro o member same
  obtain rfl | ⟨_,other⟩ := (mem_putOperation known).mp member
  · exact inactive
  · exact absurd same other

variable (found : getOperation s jobID reply = some op)
include found
theorem Inv.known : Known s.operations op.id op.tenantID ∧ OfJob s.jobs jobID op := by
  obtain ⟨j,inJobs,its,names,member⟩ := getOperation_found found
  obtain ⟨nonempty,o,member',same,tenant⟩ := inv.named.ofJob j inJobs
  obtain rfl : op = o := s.operations.eq_of_key member member' (names.symm.trans same.symm)
  exact ⟨⟨names ▸ nonempty,op,member,rfl,rfl⟩,j,inJobs,its,names,tenant.symm⟩
theorem Inv.marked (at_ : s.worker = .marking jobID) : Inv { s with
      operations := assigned store s.operations { op with status := .running }, worker := .writing jobID { op with status := .running } } := by
  obtain ⟨known,its⟩ := inv.known found
  have runs : s.worker.running = some jobID := by rw [at_]; rfl
  have written := @Inv.written s _ { op with status := .running } inv known (fun _ => inv.covered_running runs its) (assigned_either store _ _)
  refine written.moved runs.symm (by simp only [at_]; rfl) ?_ nofun
  rintro _ _ ⟨⟩
  exact its
theorem Inv.finished (at_ : s.worker = .finishing jobID outcome) : Inv { s with
      operations := assigned store s.operations (ended outcome op), worker := .recording jobID (ended outcome op) } := by
  obtain ⟨known,its⟩ := inv.known found
  have written := @Inv.written s _ (ended outcome op) inv known (fun active => absurd active (ended_final outcome op))
    (assigned_either store _ _)
  refine written.moved (by simp only [at_]; rfl) (by simp only [at_]; rfl) nofun ?_
  rintro _ _ ⟨⟩
  exact ⟨ended_final outcome op,its⟩
end

private theorem inv_init : Inv init := by
  refine ⟨⟨?_,List.nodup_nil,?_,?_,nofun,nofun⟩,?_,⟨?_,?_,nofun,nofun⟩,?_⟩
  · simp [init]
  · simp [init]
  · simp [init]
  · rintro tenantID op op' (n | id) w' owns <;> simp [Owns,init] at owns
  · simp [init]
  · simp [init]
  · simp [init]
private theorem inv_step {a : Action} (inv : Inv s) (allowed : Undisturbed s a) (stepped : step store s a = some t) : Inv t := by
  cases a with
  | check number tenantID callerID callerRoles =>
    simp only [step] at stepped
    split at stepped
    next => cases stepped; exact inv
    next free =>
      obtain ⟨calls,entered,rfl⟩ := Option.map_eq_some_iff.mp stepped
      exact inv.checked allowed free entered
  | create number operationID reply =>
    simp only [step] at stepped
    split at stepped <;> try cases stepped
    next found =>
      split at stepped <;> try cases stepped
      next nonempty =>
        obtain ⟨operations,new,rfl⟩ := Option.map_eq_some_iff.mp stepped
        exact inv.created found allowed rfl nonempty new
  | insert number jobID =>
    simp only [step] at stepped
    split at stepped <;> try cases stepped
    next found =>
      obtain ⟨jobs,new,rfl⟩ := Option.map_eq_some_iff.mp stepped
      exact inv.inserted found new rfl
  | send number =>
    simp only [step] at stepped
    split at stepped <;> try cases stepped
    next found =>
      obtain ⟨_,rfl⟩ := guarded stepped
      exact inv.sent found rfl
  | abandon number => exact allowed.elim
  | take =>
    simp only [step] at stepped
    split at stepped <;> cases stepped
    next at_ first => exact inv.taken at_ first
  | get reply =>
    simp only [step] at stepped
    split at stepped <;> try cases stepped
    next jobID at_ =>
      split at stepped <;> cases stepped
      next => exact inv.moved (by rw [at_]; rfl) (by rw [at_]; rfl) (by simp) (by simp)
      next found => exact inv.marked found at_
    next jobID outcome at_ =>
      split at stepped <;> cases stepped
      next missing =>
        -- `Get` finds the operation of a job that has ended.
        obtain ⟨j,inJobs,rfl,_⟩ := inv.custody.ended _ (by rw [at_]; rfl)
        have silent := allowed.resolve_left (by simp [at_,Worker.ended])
        exact absurd missing (getOperation_known inJobs silent (inv.named.ofJob j inJobs))
      next found => exact inv.finished found at_
  | update reply =>
    simp only [step] at stepped
    split at stepped <;> cases stepped
    next at_ => exact inv.wrote at_
    next at_ => exact inv.recorded allowed at_
  | finish outcome =>
    simp only [step] at stepped
    split at stepped <;> cases stepped
    next at_ => exact inv.exported at_
end

def OneExport (s : State) : Prop :=
  ∀ o ∈ s.operations.rows, ∀ o' ∈ s.operations.rows, o.Active → o'.Active → o.tenantID = o'.tenantID → o = o'
  deriving Decidable

/-- Every undisturbed run keeps to one export a tenant. -/
theorem one_export (store : Store) {s : State} (run : Reach (step store) Undisturbed init s) : OneExport s := by
  have inv : Inv s := run.invariant inv_init inv_step
  intro o member o' member' active active' same
  exact inv.single member member' active active' same

/-- An export that ends, the next export of the tenant, and one of another tenant meanwhile. -/
def threeExports : List Action :=
  [.check 0 "acme" "acme" ["merchant"],.create 0 "op-1" .done,.insert 0 "job-1",.send 0,.check 1 "globex" "root" ["admin"],
    .take,.get .done,.check 2 "acme" "root" ["admin"],.create 1 "op-2" .done,.update (.failed "timeout"),
    .finish (.done ⟨"acme.zip","exports/acme.zip",10,"00"⟩),.get .done,.update .done,
    .check 3 "acme" "root" ["admin"],.create 3 "op-3" .done,.insert 1 "job-2",.insert 3 "job-3"]
theorem one_export_three : ∃ s : State, Reach (step .postgres) Undisturbed init s ∧
    s.operations.rows.map (fun o => (o.tenantID,o.status)) = [("acme",.succeeded),("globex",.pending),("acme",.pending)] ∧ OneExport s :=
  reach_seen threeExports (by decide +kernel) (by decide +kernel) (fun _ run _ => one_export .postgres run)
/-- Two calls that both look at the map before either enters its job. -/
theorem exports_overlap : ¬ ∀ (store : Store) (s : State) (_ : Reach (step store) Any init s), OneExport s := by
  intro claim
  obtain ⟨s,ran,overlap⟩ := run_seen (step .memory) init
    [.check 0 "acme" "acme" ["merchant"],.check 1 "acme" "acme" ["merchant"],.create 0 "op-1" .done,.create 1 "op-2" .done]
    (fun s => ¬ OneExport s) (by decide +kernel)
  exact overlap (claim .memory s (run_any ran))

end Stellabill.ExportJobs
