import Stellabill.RequestLoader

/-!
A subscription in GraphQL: at the root it comes from the service, as a field of a statement it
is built from the row of the loader.
-/
namespace Stellabill.GraphqlResolvers
open Keyed RequestLoader
open Subscriptions (SubscriptionRow)

/-- The object that both resolvers return; a plan is resolved apart. -/
structure SubscriptionObject where
  id : String
  planID : String
  status : String
  interval : String
  billingSummary : BillingSummary

def nilIfEmpty (text : Option String) : Option String := text.filter (· ≠ "")

def rootObject (d : SubscriptionDetail) : SubscriptionObject :=
  ⟨d.id,d.planID,d.status,d.interval,{ d.billingSummary with nextBillingDate := nilIfEmpty d.billingSummary.nextBillingDate }⟩
section
variable (texts : Texts) (db : Database)
def resolveSubscription (l : Loader) (tenantID callerID id : String) : Except ServiceError SubscriptionObject :=
  (getDetail texts db (some l) tenantID callerID id).map (fun found => rootObject found.1)

/-- The number that `ParseInt` returns, also with an error: zero, or the bound that was passed. -/
def parsedInt (text : String) : Int :=
  match parseInt text with
  | some n => n
  | none =>
    match text.toList with
    | '-' :: digits => if (decimal digits).isSome then -9223372036854775808 else 0
    | '+' :: digits => if (decimal digits).isSome then 9223372036854775807 else 0
    | digits => if (decimal digits).isSome then 9223372036854775807 else 0

def fieldObject (texts : Texts) (row : SubscriptionRow) : SubscriptionObject :=
  let nextBillingDate := if row.nextBilling = "" then none else texts.normalizeUTC row.nextBilling
  ⟨row.id,row.planID,row.status,row.interval,⟨parsedInt row.amount,texts.toUpper row.currency,nilIfEmpty nextBillingDate⟩⟩
def resolveSubscriptionField (l : Loader) (tenantID subscriptionID : String) :
    Except RepoError (Option SubscriptionObject) :=
  if subscriptionID = "" then .ok none
  else (lookupSubscription db (some l) tenantID subscriptionID).map (fun row => some (fieldObject texts row))

/-- The resolver at the root returns the object, as far as it is compared. -/
def Shows (root : Except ServiceError SubscriptionObject) (object : SubscriptionObject) : Prop :=
  ∃ shown, root = .ok shown ∧ shown.status = object.status ∧ shown.interval = object.interval ∧ shown.billingSummary = object.billingSummary
def NoSideDoor (l l' : Loader) (tenantID callerID subscriptionID : String) : Prop :=
  ∀ object, resolveSubscriptionField texts db l tenantID subscriptionID = .ok (some object) →
    Shows (resolveSubscription texts db l' tenantID callerID object.id) object

/-- The amount and the date of the row can be read. -/
def Legible (texts : Texts) (row : SubscriptionRow) : Prop :=
  (parseInt row.amount).isSome ∧ (row.nextBilling = "" ∨ (texts.normalizeUTC row.nextBilling).isSome)
/-- The row is one of the caller's that is not deleted, the plans can be asked for its plan, and it is legible. -/
def Presentable (callerID : String) (row : SubscriptionRow) : Prop :=
  row.deletedAt = none ∧ callerID = row.customerID ∧ (row.planID = "" ∨ db.plansFault = none) ∧ Legible texts row
end

section
variable {texts : Texts} {db : Database} {l : Loader} {tenantID callerID id : String} {row : SubscriptionRow} {object : SubscriptionObject}

@[simp] theorem not_shows_error {e : ServiceError} : ¬ Shows (.error e) object := nofun
private theorem shows_detail {plan : Option TenantExport.PlanRow} {warnings : List String} :
    Shows ((detail texts row plan warnings).map (fun found => rootObject found.1)) (fieldObject texts row) ↔ Legible texts row := by
  cases read : parseInt row.amount with
  | none => simp [detail,read,Except.map,Legible]
  | some cents =>
    by_cases unset : row.nextBilling = ""
    · simp [Shows,detail,read,unset,Except.map,rootObject,fieldObject,parsedInt,Legible]
    · cases normal : texts.normalizeUTC row.nextBilling <;>
        simp [Shows,detail,read,unset,normal,Except.map,rootObject,fieldObject,parsedInt,nilIfEmpty,Legible]
theorem shows_planned {plan : Except RepoError TenantExport.PlanRow} :
    Shows ((planned texts row plan).map (fun found => rootObject found.1)) (fieldObject texts row) ↔
      (¬ ∃ message, plan = .error (.failed message)) ∧ Legible texts row := by
  match plan with
  | .ok plan => simp [planned,shows_detail]
  | .error .notFound => simp [planned,shows_detail]
  | .error (.failed message) => simp [planned,Except.map]
theorem lookupPlan_failed : (∃ message, lookupPlan db (some l) tenantID id = .error (.failed message)) ↔ ¬ (id = "" ∨ db.plansFault = none) := by
  by_cases given : id = ""
  · simp [lookupPlan,loadPlan,given]
  · rw [loadPlan_eq given]
    cases db.plansFault with
    | some message => simp [fetched,given]
    | none => cases (db.plans.find id).filter (fun plan => tenantID = "" ∨ plan.tenantID = tenantID) <;> simp [fetched]
/-- What the root shows of a row that the loader finds. -/
theorem shows_root (found : lookupSubscription db (some l) tenantID id = .ok row) :
    Shows (resolveSubscription texts db l tenantID callerID id) (fieldObject texts row) ↔ Presentable texts db callerID row := by
  unfold resolveSubscription getDetail Presentable
  rw [found]
  by_cases deleted : row.deletedAt.isSome
  · simp [deleted,Except.map,Option.ne_none_iff_isSome.mpr deleted]
  · have kept : row.deletedAt = none := by simpa using deleted
    by_cases own : callerID = row.customerID
    · simp only [kept,own,Option.isSome_none,Bool.false_eq_true,if_false,ne_eq,not_true_eq_false,true_and]
      rw [shows_planned,lookupPlan_failed,not_not]
    · simp [kept,own,Except.map]
end

/-- The rows of the tenant with the ID are presentable just when the field is no side door. -/
theorem no_side_door (texts : Texts) (db : Database) (l l' : Loader) (tenantID callerID subscriptionID : String) :
    NoSideDoor texts db l l' tenantID callerID subscriptionID ↔
      (subscriptionID ≠ "" → db.subscriptionsFault = none → ∀ row ∈ db.subscriptions, row.id = subscriptionID →
        (tenantID = "" ∨ row.tenantID = tenantID) → Presentable texts db callerID row) := by
  unfold NoSideDoor resolveSubscriptionField
  by_cases given : subscriptionID = ""
  · simp [given]
  · have found : ∀ l row, lookupSubscription db (some l) tenantID subscriptionID = .ok row ↔ db.subscriptionsFault = none ∧
        (row ∈ db.subscriptions ∧ row.id = subscriptionID) ∧ (tenantID = "" ∨ row.tenantID = tenantID) := by
      intro l row
      rw [loadSubscription_eq given,fetched_ok,Option.filter_eq_some_iff,Table.find_some]
      simp
    rw [if_neg given]
    constructor
    · intro shown _ answers row member its tenant
      have loaded := fun l => (found l row).mpr ⟨answers,⟨member,its⟩,tenant⟩
      rw [← shows_root (loaded l'),← its]
      exact shown _ (by rw [loaded]; rfl)
    · intro presentable object resolved
      cases loaded : lookupSubscription db (some l) tenantID subscriptionID with
      | error e =>
        rw [loaded] at resolved
        cases resolved
      | ok row =>
        rw [loaded] at resolved
        cases resolved
        obtain ⟨answers,⟨member,its⟩,tenant⟩ := (found l row).mp loaded
        have root := (found l' row).mpr ⟨answers,⟨member,its⟩,tenant⟩
        rw [← its] at root
        exact (shows_root root).mpr (presentable given answers row member its tenant)
/-- The subscription of another customer of the tenant is shown as a field. -/
theorem side_door : ¬ NoSideDoor ⟨id,some⟩ foreignPlan ⟨[],[]⟩ ⟨[],[]⟩ "acme" "cust-2" "sub-1" := by
  intro shown
  obtain ⟨_,resolved,_⟩ := shown (fieldObject ⟨id,some⟩ ⟨"sub-1","plan-1","acme","cust-1","active","1999","usd","monthly","",0,1,none⟩) rfl
  cases resolved

end Stellabill.GraphqlResolvers
