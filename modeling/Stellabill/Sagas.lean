import Stellabill.Keyed
import Stellabill.Program

/-!
Sagas: the coordinator that runs the steps of a saga, records how each of them ended, and
compensates the steps before one that fails; and the in-memory store. An execution can stop
at any of its calls.
-/
namespace Stellabill.Sagas
open Keyed Transitions Program Function

inductive StepStatus
  | pending | running | retrying | completed | failed | compensating | compensated | compensationFailed
  deriving DecidableEq, Repr
inductive SagaStatus
  | running | completed | failed | compensating | compensated
  deriving DecidableEq, Repr

structure RetryPolicy where
  maxAttempts : Int
  deriving DecidableEq, Repr

def shouldRetry (policy : Option RetryPolicy) (retries : Int) : Bool :=
  match policy with
  | none => false
  | some p => retries < p.maxAttempts ∧ retries ≥ 0

/-- A step. What its functions do is up to the surroundings; `Compensate` may be nil. -/
structure Step where
  key : String
  hasCompensate : Bool
  retryPolicy : Option RetryPolicy
  deriving DecidableEq, Repr

structure StepResult where
  sagaID : String
  stepKey : String
  status : StepStatus
  errorMessage : String
  executedAt : Option Time
  compensatedAt : Option Time
  retryAttempt : Nat
  deriving DecidableEq, Repr

/-- `SagaContext`: the entries set so far, the newest first. A key has its newest value. -/
abbrev Context (Value : Type) := List (String × Value)

structure Saga (Value : Type) where
  id : String
  name : String
  status : SagaStatus
  context : Context Value
  steps : List Step
  createdAt : Option Time
  updatedAt : Option Time
  deriving DecidableEq, Repr

/-- The clock, the functions of a step, the store, and the wait for the next attempt, which the context may cut short. -/
inductive Call (Value : Type)
  | now
  | execute (step : Step) (context : Context Value)
  | compensate (step : Step) (context : Context Value)
  | save (saga : Saga Value)
  | saveStepResult (sagaID : String) (result : StepResult)
  | load (sagaID : String)
  | wait (retries : Nat)

/-- What each call answers: an error is its message, and the functions of a step give the context they have set. -/
def Answer {Value : Type} : Call Value → Type
  | .now => Time
  | .execute .. | .compensate .. => Option String × Context Value
  | .save _ | .saveStepResult .. | .wait _ => Option String
  | .load _ => Except String (Saga Value × List StepResult)

abbrev Run (Value : Type) := Prog (Call Value) Answer

variable {Value : Type}

def timeNow : Run Value Time := call (.now : Call Value)
def Step.execute (step : Step) (context : Context Value) : Run Value (Option String × Context Value) :=
  call (Call.execute step context)
def Step.compensate (step : Step) (context : Context Value) : Run Value (Option String × Context Value) :=
  call (Call.compensate step context)
section
variable (saga : Saga Value)
def storeSave : Run Value (Option String) := call (Call.save saga)
def storeSaveStepResult (sagaID : String) (result : StepResult) : Run Value (Option String) :=
  call (.saveStepResult sagaID result : Call Value)
def storeLoad (sagaID : String) : Run Value (Except String (Saga Value × List StepResult)) :=
  call (.load sagaID : Call Value)
def waitDelay (retries : Nat) : Run Value (Option String) := call (.wait retries : Call Value)

def save : Run Value (Option String × Saga Value) := do
  let now ← timeNow
  let saga := { saga with updatedAt := some now }
  let error ← storeSave saga
  return (error,saga)

def begin : Run Value (Option String × Saga Value) := do
  let now ← timeNow
  let saga := { saga with status := .running, createdAt := saga.createdAt.or (some now), updatedAt := some now }
  let error ← storeSave saga
  return (error,saga)

def executedResult (step : Step) (status : StepStatus) (errorMessage : String) (retryAttempt : Nat)
    (now : Time) : StepResult where
  sagaID := saga.id
  stepKey := step.key
  status := status
  errorMessage := errorMessage
  executedAt := some now
  compensatedAt := none
  retryAttempt := retryAttempt
def compensatedResult (step : Step) (status : StepStatus) (errorMessage : String) (compAt : Time) :
    StepResult where
  sagaID := saga.id
  stepKey := step.key
  status := status
  errorMessage := errorMessage
  executedAt := none
  compensatedAt := some compAt
  retryAttempt := 0

def attempt (saga : Saga Value) (step : Step) (now : Time) (retries : Nat) : Run Value (Option String × Saga Value) := do
  let (error,context) ← step.execute saga.context
  let saga := { saga with context }
  match error with
  | none =>
    let error ← storeSaveStepResult saga.id (executedResult saga step .completed "" 0 now)
    return (error,saga)
  | some message =>
    if shouldRetry step.retryPolicy (retries+1) then
      let error ← storeSaveStepResult saga.id (executedResult saga step .retrying "" (retries+1) now)
      match error with
      | some message => return (some message,saga)
      | none =>
        let cancelled ← waitDelay (retries+1)
        match cancelled with
        | some message => return (some message,saga)
        | none => attempt saga step now (retries+1)
    else
      let _ ← storeSaveStepResult saga.id (executedResult saga step .failed message 0 now)
      return (some message,saga)
termination_by (step.retryPolicy.elim 0 RetryPolicy.maxAttempts - retries).toNat
decreasing_by
  next again =>
  cases policy : step.retryPolicy with
  | none => simp [shouldRetry,policy] at again
  | some p =>
    simp only [shouldRetry,policy,decide_eq_true_eq] at again
    simp only [Option.elim]
    omega
def runStep (step : Step) : Run Value (Option String × Saga Value) := do
  let now ← timeNow
  attempt saga step now 0

/-- The loop of `failAndCompensate` over the steps before the failed one, the last first: whether a compensation failed. -/
def compensateAll (saga : Saga Value) : List Step → Run Value (Bool × Saga Value)
  | [] => return (false,saga)
  | step :: rest => do
    let compAt ← timeNow
    if step.hasCompensate then
      let (error,context) ← step.compensate saga.context
      let saga := { saga with context }
      match error with
      | some message =>
        let _ ← storeSaveStepResult saga.id (compensatedResult saga step .compensationFailed message compAt)
        return (true,saga)
      | none =>
        let _ ← storeSaveStepResult saga.id (compensatedResult saga step .compensated "" compAt)
        compensateAll saga rest
    else
      let _ ← storeSaveStepResult saga.id (compensatedResult saga step .compensated "" compAt)
      compensateAll saga rest
def failAndCompensate (before : List Step) : Run Value (Saga Value) := do
  let (compFailed,saga) ← compensateAll saga before
  let (_,saga) ← save { saga with status := if compFailed then .failed else .compensated }
  return saga

/-- `runFrom`, with the steps behind it (the last first) and the steps before it. -/
def runFrom (saga : Saga Value) (done : String → Bool) (before : List Step) :
    List Step → Run Value (Option String × Saga Value)
  | [] => return (none,saga)
  | step :: rest =>
    if done step.key then runFrom saga done (step :: before) rest
    else do
      let (error,saga) ← runStep saga step
      match error with
      | some message =>
        let saga ← failAndCompensate saga before
        return (some message,saga)
      | none => runFrom saga done (step :: before) rest

def finish (done : String → Bool) : Run Value (Option String × Saga Value) := do
  let (error,saga) ← begin saga
  match error with
  | some message => return (some message,saga)
  | none =>
    let (error,saga) ← runFrom saga done [] saga.steps
    match error with
    | some message => return (some message,saga)
    | none => save { saga with status := .completed }
end
def execute (saga : Saga Value) : Run Value (Option String × Saga Value) :=
  if saga.id = "" then return (some "saga execution requires a saga ID",saga)
  else if saga.steps = [] then return (some ("saga " ++ saga.id ++ " has no steps to execute"),saga)
  else finish saga (fun _ => false)

def doneSteps (results : List StepResult) : String → Bool :=
  results.foldl (fun done result => update done result.stepKey (result.status = .completed)) (fun _ => false)
def resume (constructor : Option (Saga Value → Except String (Saga Value))) (sagaID : String) :
    Run Value (Option String × Option (Saga Value)) := do
  match ← storeLoad sagaID with
  | .error message => return (some ("load saga " ++ sagaID ++ " for resume: " ++ message),none)
  | .ok (saga,results) =>
    match constructor.elim (.ok saga) (fun rebuild => rebuild saga) with
    | .error message => return (some ("reconstruct saga " ++ sagaID ++ ": " ++ message),none)
    | .ok saga =>
      if saga.steps = [] then return (some ("saga " ++ sagaID ++ " has no steps to resume"),some saga)
      else
        let (error,saga) ← finish saga (doneSteps results)
        return (error,some saga)

section
variable (results : List StepResult) (unique : (results.map StepResult.stepKey).Nodup) (key : String)
include unique
private theorem doneSteps_foldl (done : String → Bool) :
    results.foldl (fun done result => update done result.stepKey (result.status = .completed)) done key = true ↔
      (∃ result ∈ results, result.stepKey = key ∧ result.status = .completed) ∨
        (done key = true ∧ ∀ result ∈ results, result.stepKey ≠ key) := by
  induction results generalizing done with
  | nil => simp
  | cons result rest ih =>
    obtain ⟨new,unique⟩ := List.nodup_cons.mp unique
    rw [List.foldl_cons,ih unique]
    by_cases same : result.stepKey = key
    · have absent : ∀ other ∈ rest, other.stepKey ≠ key := fun other member equal =>
        new (by rw [same,← equal]; exact List.mem_map_of_mem member)
      have unmatched : ¬ ∃ other ∈ rest, other.stepKey = key ∧ other.status = .completed := fun ⟨other,member,equal,_⟩ =>
        absent other member equal
      simp [same,unmatched]
      exact fun _ => absent
    · have different : key ≠ result.stepKey := Ne.symm same
      simp [same,different]
theorem doneSteps_iff : doneSteps results key = true ↔ ∃ result ∈ results, result.stepKey = key ∧ result.status = .completed := by
  rw [doneSteps,doneSteps_foldl results unique]
  simp
end

/-! ### The store and the surroundings -/

/-- What has happened: a call of `Execute` or `Resume`, a function of a step with what it set, and the writes of the store. -/
inductive Entry (Value : Type)
  | entered
  | executed (step : Step) (sets : Context Value) (error : Option String)
  | compensated (step : Step) (sets : Context Value) (error : Option String)
  | saved (saga : Saga Value) (reply : Reply)
  | recorded (sagaID : String) (result : StepResult) (error : Option String) (took : Bool)
  deriving DecidableEq

structure World (Value : Type) where
  sagas : String → Option (Saga Value)
  results : String → Table StepResult.stepKey
  log : List (Entry Value)

def World.empty : World Value := ⟨fun _ => none,fun _ => .empty,[]⟩
section
variable (w : World Value)
def World.logged (entry : Entry Value) : World Value := { w with log := entry :: w.log }
def World.save (saga : Saga Value) (reply : Reply) : World Value :=
  { w with
    sagas := if reply.effective then update w.sagas saga.id (some saga) else w.sagas
    log := .saved saga reply :: w.log }
/-- The error of `SaveStepResult`: a saga that was never saved is not found. -/
def World.recordError (sagaID : String) (reply : Reply) : Option String :=
  if (w.sagas sagaID).isSome then reply.error else some "saga not found"
/-- Whether `SaveStepResult` takes effect. -/
def World.records (sagaID : String) (reply : Reply) : Bool :=
  (w.sagas sagaID).isSome && reply.effective
/-- `SaveStepResult`: the result takes the place of the step's earlier one. -/
def World.record (sagaID : String) (result : StepResult) (reply : Reply) : World Value :=
  { w with
    results := if w.records sagaID reply then update w.results sagaID ((w.results sagaID).upsert result)
      else w.results
    log := .recorded sagaID result (w.recordError sagaID reply) (w.records sagaID reply) :: w.log }

/-- How a call is answered: the instant, the error of a step function and what it set, the reply of the store, the order
    of `Load`, and the error of a done context. -/
inductive Choice (Value : Type)
  | time (now : Time)
  | function (error : Option String) (sets : Context Value)
  | reply (reply : Reply)
  | order (results : List StepResult)
  | wait (cancelled : Option String)

def perform : (c : Call Value) → Choice Value → Option (Answer c × World Value)
  | .now, .time now => some (now,w)
  | .execute step context, .function error sets => some ((error,sets ++ context),w.logged (.executed step sets error))
  | .compensate step context, .function error sets => some ((error,sets ++ context),w.logged (.compensated step sets error))
  | .save saga, .reply reply => some (reply.error,w.save saga reply)
  | .saveStepResult sagaID result, .reply reply => some (w.recordError sagaID reply,w.record sagaID result reply)
  | .load _, .reply reply => reply.error.map (fun message => (.error message,w))
  | .load sagaID, .order results =>
    match w.sagas sagaID with
    | none => some (.error "saga not found",w)
    | some saga => if results.Perm (w.results sagaID).rows then some (.ok (saga,results),w) else none
  | .wait _, .wait cancelled => some (cancelled,w)
  | _, _ => none

/-- A step function that is cut off has been called; what it set in the context is gone. -/
def interrupt : Call Value → World Value
  | .execute step _ => w.logged (.executed step [] (some "interrupted"))
  | .compensate step _ => w.logged (.compensated step [] (some "interrupted"))
  | _ => w
end

inductive Entering
  | execute | resume
  deriving DecidableEq, Repr

def enter (constructor : Option (Saga Value → Except String (Saga Value))) (saga : Saga Value) (w : World Value) :
    Entering → Option (World Value × Run Value (Option String))
  | .execute =>
    if w.log.isEmpty then
      some (w.logged .entered,do
        let (error,_) ← execute saga
        return error)
    else none
  | .resume =>
    some (w.logged .entered,do
      let (error,_) ← resume constructor saga.id
      return error)

/-- The store and the call of `Execute` or `Resume` that is going on. -/
abbrev Sessions (Value : Type) := Machine (Call Value) Answer (Option String) (World Value)
def sessionMove (constructor : Option (Saga Value → Except String (Saga Value))) (saga : Saga Value) :
    Sessions Value → Move Entering (Choice Value) → Option (Sessions Value) :=
  Machine.move perform (enter constructor saga) interrupt
def noSession : Sessions Value := ⟨.empty,none⟩

/-- The step whose `Execute` is being called, and the context it is passed. -/
def executing (m : Sessions Value) : Option (Step × Context Value) :=
  match m.session with
  | some (.call (.execute step context) _) => some (step,context)
  | _ => none
/-- The step whose `Compensate` is being called, and the context it is passed. -/
def compensating (m : Sessions Value) : Option (Step × Context Value) :=
  match m.session with
  | some (.call (.compensate step context) _) => some (step,context)
  | _ => none

variable {m : Sessions Value} {step : Step} {context : Context Value}

theorem executing_some (calls : executing m = some (step,context)) : ∃ next, m.session = some (.call (.execute step context) next) := by
  unfold executing at calls
  split at calls <;> cases calls
  next next session => exact ⟨next,session⟩
theorem compensating_some (calls : compensating m = some (step,context)) : ∃ next, m.session = some (.call (.compensate step context) next) := by
  unfold compensating at calls
  split at calls <;> cases calls
  next next session => exact ⟨next,session⟩

/-- A constructor gives the saga its steps and changes nothing else. -/
def Rebuilds (constructor : Option (Saga Value → Except String (Saga Value))) (steps : List Step) : Prop :=
  ∀ rebuild ∈ constructor, ∀ saga saga', rebuild saga = .ok saga' → saga' = { saga with steps }

theorem rebuilt {constructor : Option (Saga Value → Except String (Saga Value))} {steps : List Step}
    (rebuilds : Rebuilds constructor steps) {loaded saga : Saga Value}
    (built : constructor.elim (.ok loaded) (fun rebuild => rebuild loaded) = .ok saga) :
    saga.id = loaded.id ∧ saga.context = loaded.context ∧ (saga.steps = loaded.steps ∨ saga.steps = steps) := by
  cases constructor with
  | none => cases built; exact ⟨rfl,rfl,.inl rfl⟩
  | some rebuild => rw [rebuilds rebuild rfl loaded saga built]; exact ⟨rfl,rfl,.inr rfl⟩

section
variable {Result : Type} {guard : World Value → Call Value → Prop} {post : Result → World Value → Prop} {w : World Value}

theorem safe_timeNow {f : Time → Run Value Result} (guarded : guard w .now)
    (rest : ∀ now, Safe perform guard post (f now) w) : Safe perform guard post (timeNow >>= f) w := by
  refine safe_call_bind guarded ?_
  intro choice answer w' performed
  cases choice <;> cases performed
  exact rest _

variable {step : Step} {context : Context Value} {sagaID : String}

theorem safe_execute {f : Option String × Context Value → Run Value Result} (guarded : guard w (.execute step context))
    (rest : ∀ error sets, Safe perform guard post (f (error,sets ++ context)) (w.logged (.executed step sets error))) :
    Safe perform guard post (step.execute context >>= f) w := by
  refine safe_call_bind guarded ?_
  intro choice answer w' performed
  cases choice <;> cases performed
  exact rest _ _
theorem safe_compensate {f : Option String × Context Value → Run Value Result} (guarded : guard w (.compensate step context))
    (rest : ∀ error sets, Safe perform guard post (f (error,sets ++ context)) (w.logged (.compensated step sets error))) :
    Safe perform guard post (step.compensate context >>= f) w := by
  refine safe_call_bind guarded ?_
  intro choice answer w' performed
  cases choice <;> cases performed
  exact rest _ _

variable {saga : Saga Value} {f : Option String → Run Value Result}

theorem safe_storeSave (guarded : guard w (.save saga)) (rest : ∀ reply, Safe perform guard post (f reply.error) (w.save saga reply)) :
    Safe perform guard post (storeSave saga >>= f) w := by
  refine safe_call_bind guarded ?_
  intro choice answer w' performed
  cases choice <;> cases performed
  exact rest _
theorem safe_storeSaveStepResult {result : StepResult} (guarded : guard w (.saveStepResult sagaID result))
    (rest : ∀ reply, Safe perform guard post (f (w.recordError sagaID reply)) (w.record sagaID result reply)) :
    Safe perform guard post (storeSaveStepResult sagaID result >>= f) w := by
  refine safe_call_bind guarded ?_
  intro choice answer w' performed
  cases choice <;> cases performed
  exact rest _
theorem safe_waitDelay {retries : Nat} (guarded : guard w (.wait retries)) (rest : ∀ cancelled, Safe perform guard post (f cancelled) w) :
    Safe perform guard post (waitDelay retries >>= f) w := by
  refine safe_call_bind guarded ?_
  intro choice answer w' performed
  cases choice <;> cases performed
  exact rest _
theorem safe_storeLoad {f : Except String (Saga Value × List StepResult) → Run Value Result} (guarded : guard w (.load sagaID))
    (missing : ∀ message, Safe perform guard post (f (.error message)) w)
    (found : ∀ saga results, w.sagas sagaID = some saga → results.Perm (w.results sagaID).rows →
      Safe perform guard post (f (.ok (saga,results))) w) : Safe perform guard post (storeLoad sagaID >>= f) w := by
  refine safe_call_bind guarded ?_
  intro choice answer w' performed
  cases choice with
  | reply reply =>
    obtain ⟨message,_,same⟩ := Option.map_eq_some_iff.mp performed
    cases same
    exact missing message
  | order results =>
    simp only [perform] at performed
    split at performed
    · cases performed; exact missing _
    · next saga stored =>
      split at performed <;> cases performed
      next listed => exact found saga results stored listed
  | time | function | wait => cases performed
variable {post : Option String × Saga Value → World Value → Prop} (clock : guard w .now)
include clock
theorem safe_save (guarded : ∀ now, guard w (.save { saga with updatedAt := some now }))
    (ends : ∀ now reply, post (reply.error,{ saga with updatedAt := some now }) (w.save { saga with updatedAt := some now } reply)) :
    Safe perform guard post (save saga) w :=
  safe_timeNow clock (fun now => safe_storeSave (guarded now) (fun reply => safe_pure (ends now reply)))
def begun (saga : Saga Value) (now : Time) : Saga Value :=
  { saga with status := .running, createdAt := saga.createdAt.or (some now), updatedAt := some now }
theorem safe_begin (guarded : ∀ now, guard w (.save (begun saga now)))
    (ends : ∀ now reply, post (reply.error,begun saga now) (w.save (begun saga now) reply)) : Safe perform guard post (begin saga) w :=
  safe_timeNow clock (fun now => safe_storeSave (guarded now) (fun reply => safe_pure (ends now reply)))
end

end Stellabill.Sagas
