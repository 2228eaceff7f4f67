import Mathlib.Algebra.Group.Nat.Defs
import Stellabill.TenantExport

/-!
The detail of a subscription, with and without a loader in the context of the request.
A loader collects the lookups of a tenant and answers them together: the subscriptions
and the plans are then found by queries other than those of the single lookups.
-/
namespace Stellabill.RequestLoader
open Keyed Transitions
open Subscriptions (SubscriptionRow findByIDAndTenant)
open TenantExport (PlanRow)

inductive RepoError
  | notFound | failed (message : String)
  deriving DecidableEq
def fetched {Row : Type} (fault : Option String) (row : Option Row) : Except RepoError Row :=
  match fault, row with
  | some message, _ => .error (.failed message)
  | none, some row => .ok row
  | none, none => .error .notFound

/-- `FindByIDsAndTenant`: an empty tenant stands for all. -/
def findByIDsAndTenant {Row : Type} {key : Row → String} (t : Table key) (tenantOf : Row → String) (fault : Option String)
    (tenantID : String) (ids : List String) : Except RepoError (List Row) :=
  if ids = [] then .ok []
  else match fault with
    | some message => .error (.failed message)
    | none => .ok (t.rows.filter (fun row => key row ∈ ids ∧ (tenantID = "" ∨ tenantOf row = tenantID)))

section
variable {Row : Type} (key : Row → String)

/-- What `dispatch` finds for an ID: of several rows the last. -/
def result (rows : Except RepoError (List Row)) (id : String) : Except RepoError Row :=
  match rows with
  | .error e => .error e
  | .ok rows => fetched none (rows.reverse.find? (fun row => key row = id))

end

structure Database where
  subscriptions : Subscriptions.Rows
  plans : Table PlanRow.id
  subscriptionsFault : Option String
  plansFault : Option String

structure Loader where
  subscriptions : List String
  plans : List String

def loadSubscription (db : Database) (l : Loader) (tenantID id : String) : Except RepoError SubscriptionRow :=
  if id = "" then .error .notFound
  else result SubscriptionRow.id (findByIDsAndTenant db.subscriptions SubscriptionRow.tenantID db.subscriptionsFault tenantID
    (l.subscriptions ++ [id]).dedup) id
/-- `LoadPlan`; `FindByIDs`, for the empty tenant, is `FindByIDsAndTenant` with it. -/
def loadPlan (db : Database) (l : Loader) (tenantID id : String) : Except RepoError PlanRow :=
  if id = "" then .error .notFound
  else result PlanRow.id (findByIDsAndTenant db.plans PlanRow.tenantID db.plansFault tenantID (l.plans ++ [id]).dedup) id

def lookupSubscription (db : Database) (loader : Option Loader) (tenantID id : String) : Except RepoError SubscriptionRow :=
  match loader with
  | some l => loadSubscription db l tenantID id
  | none => fetched db.subscriptionsFault (findByIDAndTenant db.subscriptions id tenantID)
def lookupPlan (db : Database) (loader : Option Loader) (tenantID id : String) : Except RepoError PlanRow :=
  match loader with
  | some l => loadPlan db l tenantID id
  | none => fetched db.plansFault (db.plans.find id)

def decimal (text : List Char) : Option Nat :=
  if text = [] then none
  else if text.all Char.isDigit then some (text.foldl (fun n c => 10*n+(c.toNat-48)) 0)
  else none
def parseInt (text : String) : Option Int :=
  match text.toList with
  | '-' :: rest => (decimal rest).bind (fun n => if n ≤ 2^63 then some (-n) else none)
  | '+' :: rest => (decimal rest).bind (fun n => if n < 2^63 then some (n : Int) else none)
  | rest => (decimal rest).bind (fun n => if n < 2^63 then some (n : Int) else none)
example : parseInt "1999" = some 1999 ∧ parseInt "-12" = some (-12) ∧ parseInt "19.99" = none ∧ parseInt "" = none := by decide

/-- `strings.ToUpper`, and `NormalizeRFC3339StringToUTC` without its error. -/
structure Texts where
  toUpper : String → String
  normalizeUTC : String → Option String

structure PlanMetadata where
  planID : String
  name : String
  amount : String
  currency : String
  interval : String
  description : String
  deriving DecidableEq
structure BillingSummary where
  amountCents : Int
  currency : String
  nextBillingDate : Option String
  deriving DecidableEq
structure SubscriptionDetail where
  id : String
  planID : String
  customer : String
  status : String
  interval : String
  plan : Option PlanMetadata
  billingSummary : BillingSummary
  deriving DecidableEq

inductive ServiceError
  | notFound | deleted | forbidden | billingParse | repository (message : String)
  deriving DecidableEq

def planMetadata (row : PlanRow) : PlanMetadata := ⟨row.id,row.name,row.amount,row.currency,row.interval,row.description⟩
def detail (texts : Texts) (row : SubscriptionRow) (plan : Option PlanRow) (warnings : List String) :
    Except ServiceError (SubscriptionDetail × List String) :=
  match parseInt row.amount with
  | none => .error .billingParse
  | some amountCents =>
    let nextBillingDate := if row.nextBilling = "" then none else some ((texts.normalizeUTC row.nextBilling).getD row.nextBilling)
    .ok (⟨row.id,row.planID,row.customerID,row.status,row.interval,plan.map planMetadata,
      ⟨amountCents,texts.toUpper row.currency,nextBillingDate⟩⟩,warnings)
def planned (texts : Texts) (row : SubscriptionRow) : Except RepoError PlanRow → Except ServiceError (SubscriptionDetail × List String)
  | .error .notFound => detail texts row none ["plan not found"]
  | .error (.failed message) => .error (.repository message)
  | .ok plan => detail texts row (some plan) []
def getDetail (texts : Texts) (db : Database) (loader : Option Loader) (tenantID callerID subscriptionID : String) :
    Except ServiceError (SubscriptionDetail × List String) :=
  match lookupSubscription db loader tenantID subscriptionID with
  | .error .notFound => .error .notFound
  | .error (.failed message) => .error (.repository message)
  | .ok row =>
    if row.deletedAt.isSome then .error .deleted
    else if callerID ≠ row.customerID then .error .forbidden
    else planned texts row (lookupPlan db loader tenantID row.planID)

section
variable {Row : Type} {key : Row → String} {tenantOf : Row → String} {fault : Option String}

theorem fetched_ok {row : Option Row} {r : Row} : fetched fault row = .ok r ↔ fault = none ∧ row = some r := by
  cases fault <;> cases row <;> simp [fetched]

theorem result_findByIDs (t : Table key) {tenantID id : String} {ids : List String} (asked : id ∈ ids) :
    result key (findByIDsAndTenant t tenantOf fault tenantID ids) id =
      fetched fault ((t.find id).filter (fun row => tenantID = "" ∨ tenantOf row = tenantID)) := by
  unfold findByIDsAndTenant
  rw [if_neg (List.ne_nil_of_mem asked)]
  cases fault with
  | some message => simp [result,fetched]
  | none =>
    let kept := t.rows.filter (fun row => key row ∈ ids ∧ (tenantID = "" ∨ tenantOf row = tenantID))
    have unique : (kept.reverse.map key).Nodup := by
      rw [List.map_reverse,List.nodup_reverse]
      exact (List.filter_sublist.map key).nodup t.unique
    have same : (⟨kept.reverse,unique⟩ : Table key).find id =
        (t.find id).filter (fun row => tenantID = "" ∨ tenantOf row = tenantID) := by
      apply Option.ext
      intro row
      rw [Table.find_some,Option.filter_eq_some_iff,Table.find_some]
      simp only [Table.mem_def,kept,List.mem_reverse,List.mem_filter,decide_eq_true_eq]
      constructor
      · rintro ⟨⟨member,_,tenant⟩,rfl⟩
        exact ⟨⟨member,rfl⟩,tenant⟩
      · rintro ⟨⟨member,rfl⟩,tenant⟩
        exact ⟨⟨member,asked,tenant⟩,rfl⟩
    exact congrArg (fetched none) same

end

/-! ### Transparency -/

/-- The two ways find the same subscription: the loader has no row for the empty ID and those of all tenants for the empty one. -/
def SameRow (db : Database) (tenantID id : String) : Prop :=
  if id = "" then db.subscriptionsFault = none ∧ ∀ row ∈ db.subscriptions.rows, row.id = "" → row.tenantID ≠ tenantID
  else db.subscriptionsFault = none → tenantID = "" → ∀ row ∈ db.subscriptions.rows, row.id = id → row.tenantID = ""
/-- They describe the same plan: the loader has no plan for the empty ID and none of another tenant. -/
def SamePlan (db : Database) (tenantID : String) (row : SubscriptionRow) : Prop :=
  (row.planID = "" → db.plansFault = none) ∧
  (db.plansFault = none → (parseInt row.amount).isSome → ∀ plan ∈ db.plans.rows, plan.id = row.planID →
    row.planID ≠ "" ∧ (tenantID = "" ∨ plan.tenantID = tenantID))
/-- The same subscription, and the same plan if it comes to that. -/
def Alike (db : Database) (tenantID callerID subscriptionID : String) : Prop :=
  SameRow db tenantID subscriptionID ∧
  (db.subscriptionsFault = none → ∀ row ∈ db.subscriptions.rows, row.id = subscriptionID → row.tenantID = tenantID →
    row.deletedAt = none → callerID = row.customerID → SamePlan db tenantID row)

section
variable {texts : Texts} {db : Database} {l : Loader} {loader : Option Loader} {tenantID callerID id : String} {row : SubscriptionRow}

theorem loadSubscription_eq (given : id ≠ "") : lookupSubscription db (some l) tenantID id =
    fetched db.subscriptionsFault ((db.subscriptions.find id).filter (fun row => tenantID = "" ∨ row.tenantID = tenantID)) := by
  simp only [lookupSubscription,loadSubscription,if_neg given]
  exact result_findByIDs db.subscriptions (by simp)
theorem loadPlan_eq (given : id ≠ "") : lookupPlan db (some l) tenantID id =
    fetched db.plansFault ((db.plans.find id).filter (fun plan => tenantID = "" ∨ plan.tenantID = tenantID)) := by
  simp only [lookupPlan,loadPlan,if_neg given]
  exact result_findByIDs db.plans (by simp)

private theorem lookupSubscription_ok : lookupSubscription db none tenantID id = .ok row ↔
    db.subscriptionsFault = none ∧ row ∈ db.subscriptions ∧ row.id = id ∧ row.tenantID = tenantID := by
  rw [lookupSubscription,fetched_ok,Subscriptions.findByIDAndTenant_some]

theorem detail_not_notFound {plan : Option PlanRow} {warnings : List String} : detail texts row plan warnings ≠ .error .notFound := by
  unfold detail
  split <;> nofun
theorem getDetail_notFound :
    getDetail texts db loader tenantID callerID id = .error .notFound ↔ lookupSubscription db loader tenantID id = .error .notFound := by
  unfold getDetail
  cases lookupSubscription db loader tenantID id with
  | error e => cases e <;> simp
  | ok row =>
    have planned_not : ∀ plan, planned texts row plan ≠ .error .notFound := by
      intro plan
      obtain (_ | _) | _ := plan
      · exact detail_not_notFound
      · nofun
      · exact detail_not_notFound
    simp only [reduceCtorEq,iff_false]
    split_ifs
    · nofun
    · nofun
    · exact planned_not _

theorem forall_key {Row : Type} {key : Row → String} (t : Table key) (k : String) {P : Row → Prop} :
    (∀ row ∈ t.rows, key row = k → P row) ↔ ∀ row, t.find k = some row → P row := by
  simp only [Table.find_some,Table.mem_def,and_imp]

/-- The rows are the same exactly under the condition, and otherwise one of the two ways finds none. -/
theorem lookup_cases : (lookupSubscription db (some l) tenantID id = lookupSubscription db none tenantID id ∧ SameRow db tenantID id) ∨
    ((lookupSubscription db (some l) tenantID id = .error .notFound ↔ ¬ lookupSubscription db none tenantID id = .error .notFound) ∧
      ¬ SameRow db tenantID id) := by
  have direct : lookupSubscription db none tenantID id =
      fetched db.subscriptionsFault ((db.subscriptions.find id).filter (fun row => row.tenantID = tenantID)) := rfl
  by_cases given : id = ""
  · subst given
    have missing : lookupSubscription db (some l) tenantID "" = .error .notFound := rfl
    rw [missing,direct,SameRow,forall_key db.subscriptions ""]
    cases db.subscriptionsFault with
    | some message => simp [fetched]
    | none =>
      cases db.subscriptions.find "" with
      | none => simp [fetched]
      | some row => by_cases tenant : row.tenantID = tenantID <;> simp [fetched,Option.filter,tenant]
  · rw [loadSubscription_eq given,direct,SameRow,if_neg given,forall_key db.subscriptions id]
    cases db.subscriptionsFault with
    | some message => simp [fetched]
    | none =>
      cases db.subscriptions.find id with
      | none => simp [fetched]
      | some row =>
        by_cases tenant : row.tenantID = tenantID
        · simp [fetched,Option.filter,tenant]
        · by_cases all : tenantID = ""
          · subst all
            simp [fetched,Option.filter,tenant]
          · simp [fetched,Option.filter,tenant,all]
theorem sameRow_iff : lookupSubscription db (some l) tenantID id = lookupSubscription db none tenantID id ↔ SameRow db tenantID id := by
  obtain ⟨same,its⟩ | ⟨differs,other⟩ := @lookup_cases db l tenantID id
  · exact iff_of_true same its
  · refine iff_of_false (fun same => ?_) other
    rw [same] at differs
    exact iff_not_self differs

private theorem detail_plan {plan : PlanRow} :
    detail texts row none ["plan not found"] = detail texts row (some plan) [] ↔ parseInt row.amount = none := by
  unfold detail
  cases parseInt row.amount <;> simp
theorem planned_iff : planned texts row (lookupPlan db (some l) tenantID row.planID) = planned texts row (lookupPlan db none tenantID row.planID) ↔
    SamePlan db tenantID row := by
  have direct : lookupPlan db none tenantID row.planID = fetched db.plansFault (db.plans.find row.planID) := rfl
  rw [direct,SamePlan,forall_key db.plans row.planID]
  by_cases given : row.planID = ""
  · have missing : lookupPlan db (some l) tenantID row.planID = .error .notFound := by simp [lookupPlan,loadPlan,given]
    rw [missing]
    cases db.plansFault with
    | some message =>
      refine iff_of_false ?_ (fun same => nomatch same.1 given)
      simp only [fetched,planned,detail]
      split <;> nofun
    | none =>
      cases db.plans.find row.planID with
      | none => simp [fetched,planned]
      | some plan =>
        simp only [fetched,planned,detail_plan]
        simp [given]
  · rw [loadPlan_eq given]
    cases db.plansFault with
    | some message => simp [fetched,given]
    | none =>
      cases db.plans.find row.planID with
      | none => simp [fetched]
      | some plan =>
        by_cases tenant : tenantID = "" ∨ plan.tenantID = tenantID
        · simp [fetched,Option.filter,tenant,given]
        · simp only [Option.filter,tenant,decide_false,Bool.false_eq_true,if_false,fetched,planned,detail_plan]
          simp [given,tenant]
end

/-- When the loader is transparent. -/
theorem transparent_iff (texts : Texts) (db : Database) (l : Loader) (tenantID callerID subscriptionID : String) :
    getDetail texts db (some l) tenantID callerID subscriptionID = getDetail texts db none tenantID callerID subscriptionID ↔
      Alike db tenantID callerID subscriptionID := by
  by_cases same : lookupSubscription db (some l) tenantID subscriptionID = lookupSubscription db none tenantID subscriptionID
  · rw [Alike,and_iff_right (sameRow_iff.mp same)]
    unfold getDetail
    rw [same]
    cases found : lookupSubscription db none tenantID subscriptionID with
    | error e =>
      refine iff_of_true (by cases e <;> rfl) ?_
      intro answers row member its tenant
      rw [lookupSubscription_ok.mpr ⟨answers,member,its,tenant⟩] at found
      cases found
    | ok row =>
      obtain ⟨answers,member,its,tenant⟩ := lookupSubscription_ok.mp found
      -- The row is the only one with its ID.
      have only : ∀ row' ∈ db.subscriptions.rows, row'.id = subscriptionID → row' = row := fun row' member' its' =>
        db.subscriptions.eq_of_key member' member (its'.trans its.symm)
      dsimp only
      split_ifs with deleted foreign
      · refine iff_of_true rfl ?_
        intro _ row' member' its' _ kept
        rw [only row' member' its'] at kept
        simp [kept] at deleted
      · refine iff_of_true rfl ?_
        intro _ row' member' its' _ _ owner
        rw [only row' member' its'] at owner
        exact absurd owner foreign
      · rw [planned_iff]
        constructor
        · intro plan _ row' member' its' _ _ _
          rw [only row' member' its']
          exact plan
        · intro every
          exact every answers row member its tenant (by simpa using deleted) (by simpa using foreign)
  · have differs := (lookup_cases.resolve_left (fun both => same both.1)).1
    refine iff_of_false ?_ (fun alike => same (sameRow_iff.mpr alike.1))
    intro equal
    have loaded := @getDetail_notFound texts db (some l) tenantID callerID subscriptionID
    have found := @getDetail_notFound texts db none tenantID callerID subscriptionID
    rw [equal] at loaded
    exact iff_not_self (found.symm.trans (loaded.trans differs))

def foreignPlan : Database where
  subscriptions := ⟨[⟨"sub-1","plan-1","acme","cust-1","active","1999","usd","monthly","",0,1,none⟩],List.nodup_singleton _⟩
  plans := ⟨[⟨"plan-1","globex","Gold","1999","usd","monthly","",0,1⟩],List.nodup_singleton _⟩
  subscriptionsFault := none
  plansFault := none
/-- The loader does not find the plan of another tenant, and the lookup without it does. -/
theorem plan_lost : ¬ ∀ (texts : Texts) (db : Database) (l : Loader) (tenantID callerID subscriptionID : String),
    getDetail texts db (some l) tenantID callerID subscriptionID = getDetail texts db none tenantID callerID subscriptionID := by
  intro claim
  exact absurd (claim ⟨id,some⟩ foreignPlan ⟨[],[]⟩ "acme" "cust-1" "sub-1") (by decide +kernel)

end Stellabill.RequestLoader
