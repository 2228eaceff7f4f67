import Stellabill.Keyed
import Stellabill.Transitions

/-!
Billing jobs and the in-memory job store: the jobs by their ID, a lock for each
job that a worker holds until it releases it or the lock expires, and the lanes
by which the scheduler of a worker chooses its next job.
-/
namespace Stellabill.JobStore
open Keyed Transitions

inductive JobStatus
  | pending | running | completed | failed | deadLetter
  deriving DecidableEq, Repr

abbrev Priority := Int
def priorityHigh : Priority := 10
def priorityNormal : Priority := 20
def priorityLow : Priority := 30
def laneOrder : List Priority := [priorityHigh,priorityNormal,priorityLow]
def defaultLaneWeights : List (Priority × Int) := [(priorityHigh,3),(priorityNormal,2),(priorityLow,1)]

structure Job where
  id : String
  subscriptionID : String
  type : String
  status : JobStatus
  priority : Priority
  scheduledAt : Time
  startedAt : Option Time
  completedAt : Option Time
  attempts : Int
  maxAttempts : Int
  lastError : String
  payload : Option String
  createdAt : Time
  updatedAt : Time
  parentTraceID : String
  deriving DecidableEq, Repr

abbrev Jobs := Table Job.id

structure Lock where
  workerID : String
  expiresAt : Time
  deriving DecidableEq, Repr

/-- `Update`: the job takes the place of the stored one, if there is one. -/
def update (jobs : Jobs) (job : Job) (now : Time) : Option Jobs :=
  if (jobs.find job.id).isSome then some (jobs.upsert { job with updatedAt := now }) else none

def due (now : Time) (job : Job) : Bool := job.status = .pending ∧ job.scheduledAt ≤ now
section
variable (jobs : Jobs) (now : Time)
def queueDepth : Nat := (jobs.rows.filter (due now)).length
def noLater (job job' : Job) : Bool :=
  if job.priority ≠ job'.priority then job.priority ≤ job'.priority else job.scheduledAt ≤ job'.scheduledAt
/-- `ListPending`. Jobs that are equal in the order come in any order; here in that of the rows. -/
def listPending (limit : Nat) : List Job := ((jobs.rows.filter (due now)).mergeSort noLater).take limit
def lane (priority : Priority) : List Job :=
  jobs.rows.filter (fun job => job.priority = priority ∧ due now job)
/-- `ListPendingByPriority` with limit one: a job that is scheduled first; which of several is up to the order of the map. -/
def firstPending (priority : Priority) (job : Job) : Prop :=
  job ∈ lane jobs now priority ∧ ∀ other ∈ lane jobs now priority, job.scheduledAt ≤ other.scheduledAt
  deriving Decidable
end

/-- `AcquireLock`: the lock taken or renewed, unless another worker holds it and it has not expired. -/
def acquireLock (locks : String → Option Lock) (jobID workerID : String) (ttl now : Time) : Option Lock :=
  match locks jobID with
  | none => some ⟨workerID,now+ttl⟩
  | some lock =>
    if lock.expiresAt < now then some ⟨workerID,now+ttl⟩
    else if lock.workerID ≠ workerID then none else some ⟨workerID,now+ttl⟩
def releaseLock (locks : String → Option Lock) (jobID workerID : String) : String → Option Lock :=
  if (locks jobID).any (fun lock => lock.workerID = workerID) then Function.update locks jobID none else locks

variable (weights : List (Priority × Int))
def laneForIdx (idx : Int) (forceLow : Bool) : Priority :=
  if forceLow then priorityLow
  else
    let rec pick (cumulative : Int) : List Priority → Priority
      | [] => priorityNormal
      | p :: rest =>
        let cumulative := cumulative + (weights.lookup p).getD 0
        if idx < cumulative then p else pick cumulative rest
    pick 0 laneOrder
def recalcWeight : Int := weights.foldl (fun total weight => total + weight.2) 0
/-- The lane that `Next` tries first, at the `counter`-th call. -/
def laneOf (counter starvationCount starvationLimit : Int) : Priority :=
  let total := recalcWeight weights
  let total := if total = 0 then 1 else total
  laneForIdx weights ((counter-1).tmod total) (starvationCount ≥ starvationLimit)

variable {now : Time} {locks : String → Option Lock} {jobID workerID : String} {lock : Lock}

theorem mem_listPending {jobs : Jobs} {limit : Nat} {job : Job} (stored : job ∈ jobs) (isDue : due now job = true)
    (all : queueDepth jobs now ≤ limit) : job ∈ listPending jobs now limit := by
  unfold listPending
  rw [List.take_of_length_le (by rw [List.length_mergeSort]; exact all),List.mem_mergeSort]
  exact List.mem_filter.mpr ⟨stored,isDue⟩
theorem mem_update {jobs jobs' : Jobs} {job : Job} (updated : update jobs job now = some jobs') (other : Job) :
    other ∈ jobs' ↔ other = { job with updatedAt := now } ∨ (other ∈ jobs ∧ other.id ≠ job.id) := by
  obtain ⟨_,rfl⟩ := guarded updated
  exact Table.mem_upsert
theorem acquireLock_refused {ttl : Time} (held : locks jobID = some lock) (valid : now ≤ lock.expiresAt) (other : lock.workerID ≠ workerID) :
    acquireLock locks jobID workerID ttl now = none := by
  simp [acquireLock,held,other,Int.not_lt.mpr valid]
theorem acquireLock_some {ttl : Time} (acquired : acquireLock locks jobID workerID ttl now = some lock) : lock = ⟨workerID,now+ttl⟩ := by
  revert acquired
  fun_cases acquireLock locks jobID workerID ttl now
  all_goals intro acquired; cases acquired
  all_goals rfl
theorem releaseLock_other {other : String} (held : locks other = some lock) (different : other = jobID → lock.workerID ≠ workerID) :
    releaseLock locks jobID workerID other = some lock := by
  unfold releaseLock
  split
  · next own =>
    have apart : other ≠ jobID := by
      rintro rfl
      rw [held] at own
      exact different rfl (by simpa using own)
    rw [Function.update_of_ne apart]
    exact held
  · exact held

end Stellabill.JobStore
