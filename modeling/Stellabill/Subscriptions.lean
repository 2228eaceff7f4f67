import Stellabill.Keyed
import Stellabill.Program

/-!
Subscriptions: the rows with their statuses, the state machine of the statuses,
and `ChangeStatus`, which reads the row, checks the change against the state
machine and writes the new status in a statement of its own.
-/
namespace Stellabill.Subscriptions
open Keyed Transitions Program

def statusPending : String := "pending"
def statusActive : String := "active"
def statusPaused : String := "paused"
def statusCancelled : String := "cancelled"
def statusExpired : String := "expired"

def allowedTransitions : List (String × List String) :=
  [(statusPending,[statusActive,statusCancelled]),
   (statusActive,[statusPaused,statusCancelled,statusExpired]),
   (statusPaused,[statusActive,statusCancelled]),
   (statusCancelled,[]),
   (statusExpired,[])]
def knownStatuses : List String := [statusPending,statusActive,statusPaused,statusCancelled,statusExpired]

def isKnownStatus (status : String) : Bool := status ∈ knownStatuses
def canTransition (current target : String) : Option String :=
  if current = target then none
  else match allowedTransitions.lookup current with
    | none => some ("unknown current state: " ++ current)
    | some allowed =>
      if target ∈ allowed then none else some ("invalid transition from " ++ current ++ " to " ++ target)

/-- The change from one status to the other is one of `allowedTransitions`. -/
def Allowed (current target : String) : Prop := ∃ allowed, (current,allowed) ∈ allowedTransitions ∧ target ∈ allowed
def Terminal (status : String) : Prop := ∀ target, ¬ Allowed status target

variable {current target id tenantID : String} {rows : Rows} {row : SubscriptionRow}

private theorem lookup_mem {allowed : List String} (found : allowedTransitions.lookup current = some allowed) :
    (current,allowed) ∈ allowedTransitions := by
  obtain ⟨before,after,split,_⟩ := List.lookup_eq_some_iff.mp found
  rw [split]
  simp
theorem allowed_of_canTransition (passes : canTransition current target = none) (differ : current ≠ target) : Allowed current target := by
  unfold canTransition at passes
  rw [if_neg differ] at passes
  split at passes
  · cases passes
  · next allowed found =>
    split at passes
    · next listed => exact ⟨allowed,lookup_mem found,listed⟩
    · cases passes

/-! ### The rows -/

structure SubscriptionRow where
  id : String
  planID : String
  tenantID : String
  customerID : String
  status : String
  amount : String
  currency : String
  interval : String
  nextBilling : String
  updatedAt : Time
  version : Int
  deletedAt : Option Time
  deriving DecidableEq, Repr

abbrev Rows := Table SubscriptionRow.id

def findByID (rows : Rows) (id : String) : Option SubscriptionRow := rows.find id
def findByIDAndTenant (rows : Rows) (id tenantID : String) : Option SubscriptionRow :=
  (rows.find id).filter (fun row => row.tenantID = tenantID)
/-- The row with the new status, as UPDATE and the trigger on it leave it. -/
def SubscriptionRow.withStatus (row : SubscriptionRow) (status : String) (now : Time) : SubscriptionRow :=
  { row with status, version := row.version+1, updatedAt := now }
theorem withStatus_id (status : String) (now : Time) (row : SubscriptionRow) : (row.withStatus status now).id = row.id := rfl
def updateStatus (rows : Rows) (id tenantID status : String) (now : Time) : Rows :=
  rows.update (fun row => row.id = id ∧ row.tenantID = tenantID) (fun row => row.withStatus status now)
    (withStatus_id status now)

theorem findByID_some : findByID rows id = some row ↔ row ∈ rows ∧ row.id = id := rows.find_some
theorem findByIDAndTenant_some : findByIDAndTenant rows id tenantID = some row ↔ row ∈ rows ∧ row.id = id ∧ row.tenantID = tenantID := by
  simp [findByIDAndTenant,Option.filter_eq_some_iff,rows.find_some,and_assoc]
theorem mem_updateStatus {status : String} {now : Time} :
    row ∈ updateStatus rows id tenantID status now ↔
      ∃ old ∈ rows, row = if old.id = id ∧ old.tenantID = tenantID then old.withStatus status now else old := by
  rw [updateStatus,Table.mem_update]
  simp

inductive ChangeError
  | invalidStatus (target : String)
  | notFound
  | deleted
  | unknownCurrentState (status : String)
  | invalidTransition (reason : String)
  | repository (message : String)
  deriving DecidableEq, Repr

def ChangeError.text : ChangeError → String
  | .invalidStatus target => "invalid status: " ++ target
  | .notFound => "not found"
  | .deleted => "subscription has been deleted"
  | .unknownCurrentState status => "unknown current state: " ++ status
  | .invalidTransition reason => "invalid status transition: " ++ reason
  | .repository message => message

structure StatusChange where
  id : String
  status : String
  previousStatus : String
  changed : Bool
  deriving DecidableEq, Repr

/-- What `ChangeStatus` does once it has read the row: it returns, or it goes on to the update. -/
inductive Checked
  | returns (result : Except ChangeError StatusChange)
  | updates (row : SubscriptionRow)

def checkChange (row : SubscriptionRow) (target : String) : Checked :=
  if row.deletedAt.isSome then .returns (.error .deleted)
  else if !isKnownStatus row.status then .returns (.error (.unknownCurrentState row.status))
  else if row.status = target then .returns (.ok ⟨row.id,row.status,row.status,false⟩)
  else match canTransition row.status target with
    | some reason => .returns (.error (.invalidTransition reason))
    | none => .updates row

/-- The end of `ChangeStatus`: the update affected a row, affected none, or returned an error. -/
def changed (row : SubscriptionRow) (target : String) (affected : Bool) (error : Option String) :
    Except ChangeError StatusChange :=
  match error with
  | some message => .error (.repository message)
  | none => if affected then .ok ⟨row.id,target,row.status,true⟩ else .error (.repository "not found")

theorem checkChange_updates {row' : SubscriptionRow} (goes : checkChange row target = .updates row') :
    row' = row ∧ row.deletedAt = none ∧ Allowed row.status target ∧ row.status ≠ target := by
  revert goes
  fun_cases checkChange row target
  all_goals intro goes; cases goes
  next present _ differ passes => exact ⟨rfl,by simpa using present,allowed_of_canTransition passes differ,differ⟩

end Stellabill.Subscriptions
