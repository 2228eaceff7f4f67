import Stellabill.SagaOutcomes
import Stellabill.StatementArchive
import Stellabill.StatusChanges

/-!
The saga that cancels a subscription and creates a refund statement. Its first step is
undone with the same `ChangeStatus` that it is done with, and a cancelled subscription has
no other status to go to.
-/
namespace Stellabill.CancelSubscription
open Keyed Transitions Program Sagas SagaOutcomes Subscriptions
open StatementArchive (StatementRow)
open StatusChanges (activeRows terminal_cancelled)

/-- `ChangeStatus`, with the rows it leaves. -/
def changeStatus (rows : Rows) (tenantID subscriptionID target : String) (now : Time) : Except ChangeError StatusChange × Rows :=
  if !isKnownStatus target then (.error (.invalidStatus target),rows)
  else match findByIDAndTenant rows subscriptionID tenantID with
    | none => (.error .notFound,rows)
    | some row =>
      match checkChange row target with
      | .returns result => (result,rows)
      | .updates row => (changed row target true none,updateStatus rows subscriptionID tenantID target now)

/-- What the flow is started with. -/
structure Request where
  sagaID : String
  tenantID : String
  actorID : String
  subscriptionID : String
  customerID : String
  refundAmount : String
  refundCurrency : String
  deriving DecidableEq, Repr

/-- A value of the saga's context. -/
inductive ContextValue
  | text (value : String) | flag (value : Bool)
  deriving DecidableEq, Repr

/-- The tables that the steps change. -/
structure Repositories where
  rows : Rows
  statements : Table StatementRow.id

/-- The clock, how it is written as RFC 3339, and how the creation of the statement ends. -/
structure Setting where
  clock : Repositories → Time
  rfc3339 : Time → String
  creation : Reply

/-- The id of the statement, taken from the saga's. -/
def refundStatementID (request : Request) : String := "stmt-" ++ request.sagaID ++ "-refund"

def cancelStep : Step := ⟨"cancel_subscription",true,none⟩
def refundStep : Step := ⟨"create_refund_statement",true,none⟩

/-- The saga with its two steps, as it is built for a request. -/
def cancelSubscriptionFlow (request : Request) : Saga ContextValue where
  id := request.sagaID
  name := "cancel_subscription_with_refund"
  status := .running
  context :=
    [("tenant_id",.text request.tenantID),("actor_id",.text request.actorID),("subscription_id",.text request.subscriptionID),
      ("customer_id",.text request.customerID),("refund_amount",.text request.refundAmount),
      ("refund_currency",.text request.refundCurrency),("refund_statement_id",.text (refundStatementID request))]
  steps := [cancelStep,refundStep]
  createdAt := none
  updatedAt := none

section
variable (setting : Setting) (request : Request)

/-- The first step cancels and remembers the previous status. -/
def executeCancel (repositories : Repositories) : Option String × Context ContextValue × Repositories :=
  match changeStatus repositories.rows request.tenantID request.subscriptionID statusCancelled (setting.clock repositories) with
  | (.error error,rows) => (some ("cancel subscription: " ++ error.text),[],{ repositories with rows })
  | (.ok change,rows) => (none,[("previous_status",.text change.previousStatus)],{ repositories with rows })
/-- The first step is undone by changing the status back. -/
def compensateCancel (context : Context ContextValue) (repositories : Repositories) :
    Option String × Context ContextValue × Repositories :=
  match context.lookup "previous_status" with
  | none => (some "previous status not found in saga context",[],repositories)
  | some (.flag _) => (some "previous status is not a string",[],repositories)
  | some (.text previous) =>
    match changeStatus repositories.rows request.tenantID request.subscriptionID previous (setting.clock repositories) with
    | (.error error,rows) =>
      (some ("restore subscription status to " ++ previous ++ ": " ++ error.text),[],{ repositories with rows })
    | (.ok _,rows) => (none,[],{ repositories with rows })
def refundStatement (now : String) : StatementRow where
  id := refundStatementID request
  subscriptionID := request.subscriptionID
  customerID := request.customerID
  contents := {
    periodStart := now
    periodEnd := now
    issuedAt := now
    totalAmount := request.refundAmount
    currency := request.refundCurrency
    kind := "refund"
    status := "issued" }
/-- The second step creates the refund statement. -/
def executeRefund (repositories : Repositories) : Option String × Context ContextValue × Repositories :=
  let stmt := refundStatement request (setting.rfc3339 (setting.clock repositories))
  let statements := if setting.creation.effective then repositories.statements.upsert stmt else repositories.statements
  match setting.creation.error with
  | some message => (some ("create refund statement: " ++ message),[],{ repositories with statements })
  | none => (none,[("refund_created",.flag true)],{ repositories with statements })
/-- The second step is undone by voiding the statement. -/
def compensateRefund (context : Context ContextValue) (repositories : Repositories) :
    Option String × Context ContextValue × Repositories :=
  match context.lookup "refund_created" with
  | some (.flag true) =>
    match repositories.statements.find (refundStatementID request) with
    | none => (none,[],repositories)
    | some existing =>
      let voided := { existing with contents := { existing.contents with status := "voided" } }
      (none,[],{ repositories with statements := repositories.statements.upsert voided })
  | _ => (none,[],repositories)

/-- The functions of the steps, by their keys. -/
def flowFunctions : Functions ContextValue Repositories where
  clock := setting.clock
  execute step _ repositories := if step.key = cancelStep.key then executeCancel setting request repositories
    else executeRefund setting request repositories
  compensate step context repositories := if step.key = cancelStep.key then compensateCancel setting request context repositories
    else compensateRefund request context repositories

/-- The tables after `Execute`. -/
def after (w : World ContextValue) (repositories : Repositories) : Repositories :=
  (eval (surround (flowFunctions setting request)) (execute (cancelSubscriptionFlow request)) (w,repositories)).2.2
end

section
variable (request : Request) (repositories : Repositories)
/-- The status of the subscription, if it is there. -/
def subscriptionStatus : Option String :=
  (findByID repositories.rows request.subscriptionID).map SubscriptionRow.status
/-- There is a refund statement that is not voided. -/
def Refunded : Prop :=
  ∃ stmt ∈ repositories.statements.rows, stmt.id = refundStatementID request ∧ stmt.contents.kind = "refund" ∧
    stmt.contents.status = "issued"
  deriving Decidable
/-- The subscription is cancelled and refunded, or has the status it had and is not refunded. -/
def AllOrNothing (request : Request) (before after : Repositories) : Prop :=
  (subscriptionStatus request after = some statusCancelled ∧ Refunded request after) ∨
    (subscriptionStatus request after = subscriptionStatus request before ∧ ¬ Refunded request after)
/-- The subscription of the tenant has a status that can be left for cancelled. -/
def Cancellable : Prop :=
  ∃ row, findByIDAndTenant repositories.rows request.subscriptionID request.tenantID = some row ∧ row.deletedAt = none ∧
    row.status ∈ [statusPending,statusActive,statusPaused]
end

section
variable {Value Outside : Type} {functions : Functions Value Outside} {w : World Value} {outside : Outside} {Result : Type}

theorem eval_timeNow (f : Time → Run Value Result) : eval (surround functions) (timeNow >>= f) (w,outside) =
    eval (surround functions) (f (functions.clock outside)) (w,outside) := rfl
section
variable (step : Step) (context : Context Value) (f : Option String × Context Value → Run Value Result)
private theorem eval_execute :
    eval (surround functions) (step.execute context >>= f) (w,outside) =
      let (error,sets,outside') := functions.execute step context outside
      eval (surround functions) (f (error,sets ++ context)) (w.logged (.executed step sets error),outside') := rfl
private theorem eval_compensate :
    eval (surround functions) (step.compensate context >>= f) (w,outside) =
      let (error,sets,outside') := functions.compensate step context outside
      eval (surround functions) (f (error,sets ++ context)) (w.logged (.compensated step sets error),outside') := rfl
end
private theorem eval_record {sagaID : String} {result : StepResult} {f : Option String → Run Value Result}
    (stored : (w.sagas sagaID).isSome = true) : eval (surround functions) (storeSaveStepResult sagaID result >>= f) (w,outside) =
      eval (surround functions) (f none) (w.record sagaID result .done,outside) := by
  have silent : w.recordError sagaID .done = none := by simp [World.recordError,stored,Reply.error]
  rw [← silent]
  rfl

variable {step first second : Step}

/-- A step without a policy is executed once. -/
theorem runStep_once (once : step.retryPolicy = none) (saga : Saga Value) (stored : (w.sagas saga.id).isSome = true) {error : Option String}
    {sets : Context Value} {outside' : Outside} (executed : functions.execute step saga.context outside = (error,sets,outside')) :
    ∃ w', eval (surround functions) (runStep saga step) (w,outside) =
      ((error,{ saga with context := sets ++ saga.context }),(w',outside')) ∧ (w'.sagas saga.id).isSome = true := by
  rw [runStep,eval_timeNow,attempt,eval_execute,executed]
  cases error with
  | none =>
    dsimp only
    rw [eval_record (w := w.logged (.executed step sets none)) stored]
    exact ⟨_,rfl,stored⟩
  | some message =>
    have never : ¬ shouldRetry step.retryPolicy ((0 : Nat)+1) = true := by simp [shouldRetry,once]
    dsimp only
    rw [if_neg never]
    exact ⟨_,rfl,stored⟩
theorem failAndCompensate_one (has : step.hasCompensate = true) (saga : Saga Value) :
    (eval (surround functions) (failAndCompensate saga [step]) (w,outside)).2.2 =
      (functions.compensate step saga.context outside).2.2 := by
  have compensated : (eval (surround functions) (compensateAll saga [step]) (w,outside)).2.2 =
      (functions.compensate step saga.context outside).2.2 := by
    rw [compensateAll,eval_timeNow,if_pos has,eval_compensate]
    rcases functions.compensate step saga.context outside with ⟨error,sets,outside'⟩
    cases error <;> rfl
  rw [failAndCompensate,eval_bind,← compensated]
  rfl

/-- What is left outside by a saga of two steps. -/
def twoSteps (functions : Functions Value Outside) (first second : Step) (context : Context Value) (outside : Outside) : Outside :=
  match functions.execute first context outside with
  | (some _,_,outside) => outside
  | (none,sets,outside) =>
    match functions.execute second (sets ++ context) outside with
    | (none,_,outside) => outside
    | (some _,sets',outside) => (functions.compensate first (sets' ++ (sets ++ context)) outside).2.2
theorem runFrom_two (once : first.retryPolicy = none) (once' : second.retryPolicy = none) (has : first.hasCompensate = true)
    (saga : Saga Value) (stored : (w.sagas saga.id).isSome = true) :
    (eval (surround functions) (runFrom saga (fun _ => false) [] [first,second]) (w,outside)).2.2 =
      twoSteps functions first second saga.context outside := by
  rcases executed : functions.execute first saga.context outside with ⟨error,sets,outside₁⟩
  obtain ⟨w₁,ran,stored₁⟩ := runStep_once once saga stored executed
  rw [runFrom,if_neg Bool.false_ne_true,eval_bind,ran,twoSteps,executed]
  cases error with
  | some message => rfl
  | none =>
    rcases executed' : functions.execute second (sets ++ saga.context) outside₁ with ⟨error,sets',outside₂⟩
    obtain ⟨w₂,ran',_⟩ := runStep_once once' { saga with context := sets ++ saga.context } stored₁ executed'
    dsimp only
    rw [runFrom,if_neg Bool.false_ne_true,eval_bind,ran',executed']
    cases error with
    | none => rfl
    | some message =>
      rw [eval_bind]
      exact failAndCompensate_one has { saga with context := sets' ++ (sets ++ saga.context) }
private theorem finish_outside (functions : Functions Value Outside) (saga : Saga Value) (w : World Value) (outside : Outside) :
    ∃ now w', (w'.sagas saga.id).isSome = true ∧ (eval (surround functions) (finish saga (fun _ => false)) (w,outside)).2.2 =
      (eval (surround functions) (runFrom (begun saga now) (fun _ => false) [] saga.steps) (w',outside)).2.2 := by
  have started : eval (surround functions) (begin saga) (w,outside) =
    ((none,begun saga (functions.clock outside)),(w.save (begun saga (functions.clock outside)) .done,outside)) := rfl
  refine ⟨functions.clock outside,w.save (begun saga (functions.clock outside)) .done,?_,?_⟩
  · simp [World.save,begun,Reply.effective]
  · rw [finish,eval_bind,started]
    have steps : (begun saga (functions.clock outside)).steps = saga.steps := rfl
    rw [eval_bind,steps]
    rcases eval (surround functions) (runFrom (begun saga (functions.clock outside)) (fun _ => false) [] saga.steps)
      (w.save (begun saga (functions.clock outside)) .done,outside) with ⟨⟨error,saga'⟩,w',outside'⟩
    cases error <;> rfl
/-- `Execute` of a saga of two steps, seen from outside. -/
theorem execute_two (once : first.retryPolicy = none) (once' : second.retryPolicy = none) (has : first.hasCompensate = true)
    {saga : Saga Value} (steps : saga.steps = [first,second]) (named : saga.id ≠ "") :
    (eval (surround functions) (execute saga) (w,outside)).2.2 = twoSteps functions first second saga.context outside := by
  obtain ⟨now,w',stored,finished⟩ := finish_outside functions saga w outside
  rw [execute,if_neg named,if_neg (by simp [steps]),finished,steps]
  exact runFrom_two once once' has (begun saga now) stored
end

/-! ### The step functions -/

/-- A cancelled subscription keeps its status. -/
theorem changeStatus_cancelled {rows : Rows} {tenantID subscriptionID : String}
    (cancelled : ∀ row, findByIDAndTenant rows subscriptionID tenantID = some row → row.status = statusCancelled)
    (target : String) (now : Time) : (changeStatus rows tenantID subscriptionID target now).2 = rows := by
  unfold changeStatus
  split
  · rfl
  · split
    · rfl
    · next row found =>
      split
      · rfl
      · next goes =>
        obtain ⟨_,_,allowed,_⟩ := checkChange_updates goes
        rw [cancelled row found] at allowed
        exact absurd allowed (terminal_cancelled target)
private theorem cancellable_iff : ∀ status ∈ knownStatuses, status ≠ statusCancelled →
    (canTransition status statusCancelled = none ↔ status ∈ [statusPending,statusActive,statusPaused]) := by decide
/-- Exactly a pending, active or paused subscription is cancelled. -/
theorem checkChange_cancel (row : SubscriptionRow) :
    if row.deletedAt = none ∧ row.status ∈ [statusPending,statusActive,statusPaused] then
      checkChange row statusCancelled = .updates row
    else ∃ result, checkChange row statusCancelled = .returns result ∧
      ∀ change, result = .ok change → row.status = statusCancelled ∧ change.previousStatus = statusCancelled := by
  have others : ∀ status ∈ [statusPending,statusActive,statusPaused], isKnownStatus status = true ∧ status ≠ statusCancelled := by
    decide
  split
  · next both =>
    obtain ⟨present,listed⟩ := both
    obtain ⟨known,other⟩ := others row.status listed
    have passes := (cancellable_iff row.status (by simpa [isKnownStatus] using known) other).mpr listed
    simp [checkChange,present,known,other,passes]
  · next neither =>
    unfold checkChange
    split
    · exact ⟨_,rfl,by rintro _ ⟨⟩⟩
    · next present =>
      split
      · exact ⟨_,rfl,by rintro _ ⟨⟩⟩
      · next known =>
        split
        · next is =>
          refine ⟨_,rfl,?_⟩
          rintro change ⟨⟩
          exact ⟨is,is⟩
        · next other =>
          split
          · exact ⟨_,rfl,by rintro _ ⟨⟩⟩
          · next passes =>
            have listed := (cancellable_iff row.status (by simpa [isKnownStatus] using known) other).mp passes
            exact absurd ⟨by simpa using present,listed⟩ neither

section
variable (setting : Setting) (request : Request) (repositories : Repositories)

theorem findByID_of_tenant {rows : Rows} {id tenantID : String} {row : SubscriptionRow}
    (found : findByIDAndTenant rows id tenantID = some row) : findByID rows id = some row := by
  obtain ⟨member,sameID,_⟩ := findByIDAndTenant_some.mp found
  exact findByID_some.mpr ⟨member,sameID⟩
theorem known_cancelled : isKnownStatus statusCancelled = true := by decide
/-- The first step cancels what can be cancelled. -/
theorem executeCancel_cancellable (cancellable : Cancellable request repositories) :
    ∃ previous rows, executeCancel setting request repositories =
        (none,[("previous_status",.text previous)],{ repositories with rows }) ∧
      previous ≠ statusCancelled ∧ subscriptionStatus request repositories = some previous ∧
      subscriptionStatus request { repositories with rows } = some statusCancelled := by
  obtain ⟨row,found,both⟩ := cancellable
  obtain ⟨member,sameID,sameTenant⟩ := findByIDAndTenant_some.mp found
  have goes := checkChange_cancel row
  rw [if_pos both] at goes
  have other : row.status ≠ statusCancelled := (checkChange_updates goes).2.2.2
  let now := setting.clock repositories
  let rows := updateStatus repositories.rows request.subscriptionID request.tenantID statusCancelled now
  have changes : changeStatus repositories.rows request.tenantID request.subscriptionID statusCancelled now =
    (.ok ⟨row.id,statusCancelled,row.status,true⟩,rows) := by simp [changeStatus,known_cancelled,found,goes,changed,rows]
  have after : findByID rows request.subscriptionID = some (row.withStatus statusCancelled now) := by
    refine findByID_some.mpr ⟨mem_updateStatus.mpr ⟨row,member,?_⟩,sameID⟩
    rw [if_pos ⟨sameID,sameTenant⟩]
  refine ⟨row.status,rows,?_,other,?_,?_⟩
  · rw [executeCancel,changes]
  · rw [subscriptionStatus,findByID_of_tenant found]
    rfl
  · rw [subscriptionStatus,after]
    rfl
theorem executeCancel_other (not_ : ¬ Cancellable request repositories) :
    (∃ message, executeCancel setting request repositories = (some message,[],repositories)) ∨
      (subscriptionStatus request repositories = some statusCancelled ∧ executeCancel setting request repositories =
        (none,[("previous_status",.text statusCancelled)],repositories)) := by
  cases found : findByIDAndTenant repositories.rows request.subscriptionID request.tenantID with
  | none =>
    have changes : changeStatus repositories.rows request.tenantID request.subscriptionID statusCancelled
      (setting.clock repositories) = (.error .notFound,repositories.rows) := by simp [changeStatus,known_cancelled,found]
    rw [executeCancel,changes]
    exact .inl ⟨_,rfl⟩
  | some row =>
    have goes := checkChange_cancel row
    rw [if_neg (fun both => not_ ⟨row,found,both⟩)] at goes
    obtain ⟨result,returns,unchanged⟩ := goes
    have changes : changeStatus repositories.rows request.tenantID request.subscriptionID statusCancelled
      (setting.clock repositories) = (result,repositories.rows) := by simp [changeStatus,known_cancelled,found,returns]
    rw [executeCancel,changes]
    cases result with
    | error error => exact .inl ⟨_,rfl⟩
    | ok change =>
      obtain ⟨is,previous⟩ := unchanged change rfl
      right
      dsimp only
      rw [subscriptionStatus,findByID_of_tenant found,Option.map_some,is,previous]
      exact ⟨rfl,rfl⟩
/-- Undoing the first step changes nothing. -/
theorem compensateCancel_cancelled (context : Context ContextValue)
    (cancelled : subscriptionStatus request repositories = some statusCancelled) :
    (compensateCancel setting request context repositories).2.2 = repositories := by
  have is : ∀ row, findByIDAndTenant repositories.rows request.subscriptionID request.tenantID = some row →
      row.status = statusCancelled := by
    intro row found
    rw [subscriptionStatus,findByID_of_tenant found] at cancelled
    simpa using cancelled
  unfold compensateCancel
  split
  · rfl
  · rfl
  · next previous _ =>
    have stays := changeStatus_cancelled is previous (setting.clock repositories)
    split
    · next changes =>
      rw [changes] at stays
      exact congrArg (fun rows => { repositories with rows }) stays
    · next changes =>
      rw [changes] at stays
      exact congrArg (fun rows => { repositories with rows }) stays
theorem executeRefund_statements :
    (setting.creation.effective = true → Refunded request (executeRefund setting request repositories).2.2) ∧
    (setting.creation.effective = false → (executeRefund setting request repositories).2.2 = repositories) ∧
    subscriptionStatus request (executeRefund setting request repositories).2.2 = subscriptionStatus request repositories := by
  unfold executeRefund
  cases setting.creation with
  | done | lost message => exact ⟨fun _ => ⟨_,Table.mem_upsert.mpr (.inl rfl),rfl,rfl,rfl⟩,by simp [Reply.effective],rfl⟩
  | failed message => exact ⟨by simp [Reply.effective],fun _ => rfl,rfl⟩
end

section
variable {setting : Setting} {request : Request} {w : World ContextValue} {repositories : Repositories}

theorem after_eq (named : request.sagaID ≠ "") : after setting request w repositories =
    twoSteps (flowFunctions setting request) cancelStep refundStep (cancelSubscriptionFlow request).context repositories :=
  execute_two rfl rfl rfl rfl named

variable {sets : Context ContextValue}

theorem after_refused {message : String} (named : request.sagaID ≠ "")
    (refused : executeCancel setting request repositories = (some message,sets,repositories)) :
    after setting request w repositories = repositories := by
  have executed : ∀ context, (flowFunctions setting request).execute cancelStep context repositories =
    (some message,sets,repositories) := fun _ => refused
  rw [after_eq named,twoSteps,executed]
/-- After the first step, the tables are left as the second leaves them. -/
theorem after_cancelled {repositories' : Repositories} (named : request.sagaID ≠ "")
    (cancels : executeCancel setting request repositories = (none,sets,repositories'))
    (cancelled : subscriptionStatus request repositories' = some statusCancelled) :
    after setting request w repositories = (executeRefund setting request repositories').2.2 := by
  have executed : ∀ context, (flowFunctions setting request).execute cancelStep context repositories =
    (none,sets,repositories') := fun _ => cancels
  have executed' : ∀ context, (flowFunctions setting request).execute refundStep context repositories' =
    executeRefund setting request repositories' := fun _ => rfl
  have still := (executeRefund_statements setting request repositories').2.2
  rw [after_eq named,twoSteps,executed]
  dsimp only
  rw [executed']
  rcases ran : executeRefund setting request repositories' with ⟨error,sets',repositories''⟩
  rw [ran,cancelled] at still
  cases error with
  | none => rfl
  | some message => exact compensateCancel_cancelled setting request repositories'' _ still
end

/-- Without an earlier refund statement, `Execute` leaves all or nothing exactly unless the subscription can be
    cancelled and the creation of the statement has no effect. -/
theorem allOrNothing_iff (setting : Setting) (request : Request) (w : World ContextValue) (repositories : Repositories)
    (fresh : ¬ Refunded request repositories) : AllOrNothing request repositories (after setting request w repositories) ↔
      ¬ (request.sagaID ≠ "" ∧ Cancellable request repositories ∧ setting.creation.effective = false) := by
  by_cases named : request.sagaID = ""
  · have noID : (cancelSubscriptionFlow request).id = "" := named
    have unchanged : after setting request w repositories = repositories := by
      rw [after,execute,if_pos noID]
      rfl
    rw [unchanged]
    exact ⟨fun _ ⟨has,_⟩ => has named,fun _ => .inr ⟨rfl,fresh⟩⟩
  by_cases cancellable : Cancellable request repositories
  · obtain ⟨previous,rows,cancels,other,before,cancelled⟩ := executeCancel_cancellable setting request repositories cancellable
    obtain ⟨effective,ineffective,same⟩ := executeRefund_statements setting request { repositories with rows }
    rw [after_cancelled named cancels cancelled]
    cases took : setting.creation.effective with
    | true =>
      exact ⟨fun _ => by simp,fun _ => .inl ⟨same.trans cancelled,effective took⟩⟩
    | false =>
      rw [ineffective took]
      constructor
      · rintro (⟨_,refunded⟩ | ⟨restored,_⟩)
        · exact absurd refunded fresh
        · rw [cancelled,before] at restored
          injection restored with is
          exact absurd is.symm other
      · exact fun not_ => absurd ⟨named,cancellable,rfl⟩ not_
  · refine ⟨fun _ ⟨_,is,_⟩ => cancellable is,fun _ => ?_⟩
    rcases executeCancel_other setting request repositories cancellable with ⟨message,refused⟩ | ⟨cancelled,already⟩
    · rw [after_refused named refused]
      exact .inr ⟨rfl,fresh⟩
    · obtain ⟨effective,ineffective,same⟩ := executeRefund_statements setting request repositories
      rw [after_cancelled named already cancelled]
      cases took : setting.creation.effective with
      | true => exact .inl ⟨same.trans cancelled,effective took⟩
      | false =>
        rw [ineffective took]
        exact .inr ⟨rfl,fresh⟩

def cancellation : Request :=
  { sagaID := "saga-1", tenantID := "tenant-1", actorID := "actor-1", subscriptionID := "sub-1", customerID := "cust-1"
    refundAmount := "-2999", refundCurrency := "usd" }
def activeOnly : Repositories := ⟨activeRows,.empty⟩
def endingWith (creation : Reply) : Setting := ⟨fun _ => 0,fun _ => "1970-01-01T00:00:00Z",creation⟩
/-- The statement cannot be created, and the subscription stays cancelled. -/
theorem cancelled_unrefunded : ¬ ∀ (setting : Setting) (request : Request) (w : World ContextValue) (repositories : Repositories),
    ¬ Refunded request repositories → AllOrNothing request repositories (after setting request w repositories) := by
  intro claim
  have ends := claim (endingWith (.failed "db connection lost")) cancellation .empty activeOnly (by decide)
  have seen : let left := after (endingWith (.failed "db connection lost")) cancellation .empty activeOnly
    subscriptionStatus cancellation left = some statusCancelled ∧ ¬ Refunded cancellation left := by decide +kernel
  have before : subscriptionStatus cancellation activeOnly = some statusActive := by decide
  rcases ends with ⟨_,refunded⟩ | ⟨restored,_⟩
  · exact seen.2 refunded
  · rw [seen.1,before] at restored
    exact absurd restored (by decide)
theorem allOrNothing_iff_answerLost : ¬ Refunded cancellation activeOnly ∧
    AllOrNothing cancellation activeOnly (after (endingWith (.lost "timeout")) cancellation .empty activeOnly) := by
  have fresh : ¬ Refunded cancellation activeOnly := by decide
  refine ⟨fresh,(allOrNothing_iff (endingWith (.lost "timeout")) cancellation .empty activeOnly fresh).mpr ?_⟩
  rintro ⟨_,_,ineffective⟩
  cases ineffective

end Stellabill.CancelSubscription
