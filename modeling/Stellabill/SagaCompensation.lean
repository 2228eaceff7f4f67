import Stellabill.Sagas

/-!
What a compensated saga has undone. The coordinator compensates the steps before
the one that failed, so a step whose function succeeded but whose completion the
store refused to record counts as failed and is left standing.
-/
namespace Stellabill.SagaCompensation
open Keyed Transitions Program Sagas

variable {Value : Type}

def compensable (step : Step) : Option Step := if step.hasCompensate then some step else none
variable (log : List (Entry Value))
/-- The steps with a `Compensate` whose `Execute` returned nil, the latest first. -/
def succeeded : List Step :=
  log.filterMap (fun
    | .executed step _ none => compensable step
    | _ => none)
def undone : List Step :=
  log.filterMap (fun
    | .compensated step _ none => some step
    | _ => none)
/-- The keys of the steps whose completion was reported as not recorded. -/
def unrecorded : List String :=
  log.filterMap (fun
    | .recorded _ result (some _) _ => if result.status = .completed then some result.stepKey else none
    | _ => none)

/-- Any call may be made. -/
def Free (_ : World Value) (_ : Call Value) : Prop := True
/-- What the log shows of successes, compensations and refused records. -/
structure Shows (w : World Value) (successes compensations : List Step) (refused : List String) : Prop where
  succeeded : succeeded w.log = successes
  undone : undone w.log = compensations
  unrecorded : unrecorded w.log = refused

section
variable {w : World Value} {S U : List Step} {R : List String}

section
variable (shows_ : Shows w S U R)
include shows_
variable (step : Step) (sets : Context Value)
theorem shows_failed (message : String) : Shows (w.logged (.executed step sets (some message))) S U R :=
  ⟨shows_.succeeded,shows_.undone,shows_.unrecorded⟩
private theorem shows_executed : Shows (w.logged (.executed step sets none)) ((compensable step).toList ++ S) U R := by
  refine ⟨?_,shows_.undone,shows_.unrecorded⟩
  rw [← shows_.succeeded]
  cases kept : compensable step <;> simp [World.logged,succeeded,kept]
theorem shows_compensated : Shows (w.logged (.compensated step sets none)) S (step :: U) R :=
  ⟨shows_.succeeded,by rw [← shows_.undone]; rfl,shows_.unrecorded⟩
theorem shows_save (saga : Saga Value) (reply : Reply) : Shows (w.save saga reply) S U R :=
  ⟨shows_.succeeded,shows_.undone,shows_.unrecorded⟩
theorem shows_record (sagaID : String) (result : StepResult) (other : result.status ≠ .completed)
    (reply : Reply) : Shows (w.record sagaID result reply) S U R := by
  refine ⟨shows_.succeeded,shows_.undone,?_⟩
  rw [← shows_.unrecorded]
  cases failed : w.recordError sagaID reply <;> simp [World.record,unrecorded,failed,other]
private theorem shows_completed (sagaID : String) (result : StepResult)
    (completed : result.status = .completed)
    (reply : Reply) : Shows (w.record sagaID result reply) S U
      (if (w.recordError sagaID reply).isSome then result.stepKey :: R else R) := by
  refine ⟨shows_.succeeded,shows_.undone,?_⟩
  rw [← shows_.unrecorded]
  cases failed : w.recordError sagaID reply <;> simp [World.record,unrecorded,failed,completed]

variable {saga : Saga Value}

/-- A step without an error has succeeded and is recorded; one with an error has not succeeded, or is not recorded. -/
theorem attempt_shows (now : Time) (retries : Nat) :
    Safe perform Free (fun (error,_) w' =>
      if error.isSome then Shows w' S U R ∨ Shows w' ((compensable step).toList ++ S) U (step.key :: R)
      else Shows w' ((compensable step).toList ++ S) U R) (attempt saga step now retries) w := by
  induction saga, retries using attempt.induct step generalizing w with
  | case1 saga retries ih =>
    rw [attempt]
    refine safe_execute trivial (fun error sets => ?_)
    cases error with
    | none =>
      have executed := shows_executed shows_ step sets
      refine safe_storeSaveStepResult trivial (fun reply => safe_pure ?_)
      have recorded := shows_completed executed saga.id
        (executedResult { saga with context := sets ++ saga.context } step .completed "" 0 now) rfl reply
      cases failed : (w.logged (.executed step sets none)).recordError saga.id reply with
      | none => simpa [failed] using recorded
      | some message => exact .inr (by simpa [failed,executedResult] using recorded)
    | some message =>
      have failed := shows_failed shows_ step sets message
      dsimp only
      split
      · next again =>
        refine safe_storeSaveStepResult trivial (fun reply => ?_)
        have retrying := shows_record failed saga.id
          (executedResult { saga with context := sets ++ saga.context } step .retrying "" (retries+1) now)
          (by simp [executedResult]) reply
        split
        · exact safe_pure (.inl retrying)
        · refine safe_waitDelay trivial (fun cancelled => ?_)
          cases cancelled with
          | some message => exact safe_pure (.inl retrying)
          | none => exact ih (sets ++ saga.context) again retrying
      · refine safe_storeSaveStepResult trivial (fun reply => safe_pure ?_)
        exact .inl (shows_record failed saga.id _ (by simp [executedResult]) reply)

theorem runStep_shows :
    Safe perform Free (fun (error,_) w' =>
      if error.isSome then Shows w' S U R ∨ Shows w' ((compensable step).toList ++ S) U (step.key :: R)
      else Shows w' ((compensable step).toList ++ S) U R) (runStep saga step) w :=
  safe_timeNow trivial (fun now => attempt_shows shows_ step now 0)
private theorem compensateAll_shows (before : List Step) :
    Safe perform Free (fun (compFailed,_) w' => compFailed = false → Shows w' S ((before.filterMap compensable).reverse ++ U) R)
      (compensateAll saga before) w := by
  induction before generalizing U saga w with
  | nil => exact safe_pure (fun _ => shows_)
  | cons step rest ih =>
    refine safe_timeNow trivial (fun compAt => ?_)
    split
    · next has =>
      refine safe_compensate trivial (fun error sets => ?_)
      cases error with
      | some message =>
        refine safe_storeSaveStepResult trivial (fun reply => safe_pure ?_)
        intro impossible
        cases impossible
      | none =>
        have compensated := shows_compensated shows_ step sets
        refine safe_storeSaveStepResult trivial (fun reply => ?_)
        have recorded := shows_record compensated saga.id
          (compensatedResult { saga with context := sets ++ saga.context } step .compensated "" compAt)
          (by simp [compensatedResult]) reply
        refine (ih recorded).mono ?_
        simp [compensable,has]
    · next nil =>
      refine safe_storeSaveStepResult trivial (fun reply => ?_)
      have recorded := shows_record shows_ saga.id (compensatedResult saga step .compensated "" compAt)
        (by simp [compensatedResult]) reply
      refine (ih recorded).mono ?_
      simp [compensable,nil]
end
theorem failAndCompensate_shows {saga : Saga Value} (shows_ : Shows w S [] R) (before : List Step) :
    Safe perform Free (fun saga' w' => saga'.status = .compensated → Shows w' S (before.filterMap compensable).reverse R)
      (failAndCompensate saga before) w := by
  refine safe_bind ((compensateAll_shows shows_ before).mono ?_)
  rintro ⟨compFailed,saga'⟩ w' rolled
  refine safe_bind (safe_save trivial (fun _ => trivial) (fun now reply => safe_pure ?_))
  intro compensated
  cases compFailed with
  | true => simp at compensated
  | false => simpa using shows_save (rolled rfl) _ reply
end

/-- The successes are undone, each once and in reverse order, exactly when every step with a `Compensate` was recorded. -/
def Undoes (steps : List Step) (w : World Value) : Prop :=
  (undone w.log).reverse = succeeded w.log ↔ ∀ step ∈ steps, step.hasCompensate = true → step.key ∉ unrecorded w.log

variable {steps before : List Step} {w : World Value}

theorem undoes_of_failed (shows_ : Shows w (before.filterMap compensable) (before.filterMap compensable).reverse []) : Undoes steps w := by
  rw [Undoes,shows_.undone,shows_.succeeded,shows_.unrecorded]
  simp
private theorem undoes_of_unrecorded {step : Step} (distinct : (steps.map Step.key).Nodup) (member : step ∈ steps)
    (shows_ : Shows w ((compensable step).toList ++ before.filterMap compensable) (before.filterMap compensable).reverse [step.key]) :
    Undoes steps w := by
  rw [Undoes,shows_.undone,shows_.succeeded,shows_.unrecorded]
  cases has : step.hasCompensate with
  | true =>
    constructor
    · intro same
      have lengths := congrArg List.length same
      simp [compensable,has] at lengths
    · intro none_
      exact absurd (List.mem_singleton.mpr rfl) (none_ step member has)
  | false =>
    refine ⟨fun _ other present compensates same => ?_,fun _ => by simp [compensable,has]⟩
    have equal : other = step := List.inj_on_of_nodup_map distinct present member (List.mem_singleton.mp same)
    rw [equal,has] at compensates
    cases compensates
private theorem runFrom_undoes (distinct : (steps.map Step.key).Nodup) (rest before : List Step) (split : steps = before.reverse ++ rest)
    (saga : Saga Value) (w : World Value) (shows_ : Shows w (before.filterMap compensable) [] []) :
    Safe perform Free (fun (error,saga') w' => error.isSome → saga'.status = .compensated → Undoes steps w')
      (runFrom saga (fun _ => false) before rest) w := by
  induction rest generalizing before saga w with
  | nil => exact safe_pure (by simp)
  | cons step rest ih =>
    have member : step ∈ steps := by simp [split]
    refine safe_bind ((runStep_shows shows_ step).mono ?_)
    rintro ⟨error,saga'⟩ w' ended
    cases error with
    | none =>
      refine ih (step :: before) (by simp [split]) saga' w' ?_
      cases has : compensable step with
      | none | some => simpa [has] using ended
    | some message =>
      -- Either `Execute` failed for good, or it succeeded and its result was not saved.
      rcases ended with failed | refused
      · refine safe_bind ((failAndCompensate_shows failed before).mono ?_)
        intro saga'' w'' rolled
        exact safe_pure (fun _ compensated => undoes_of_failed (rolled compensated))
      · refine safe_bind ((failAndCompensate_shows refused before).mono ?_)
        intro saga'' w'' rolled
        exact safe_pure (fun _ compensated => undoes_of_unrecorded distinct member (rolled compensated))
private theorem execute_undoes (saga : Saga Value) (distinct : (saga.steps.map Step.key).Nodup) (w : World Value) (fresh : w.log = []) :
    Safe perform Free (fun (_,saga') w' => saga'.status = .compensated → Undoes saga.steps w') (execute saga) w := by
  have start : Shows w (([] : List Step).filterMap compensable) [] [] := by
    constructor <;> rw [fresh] <;> rfl
  have trivial_ : Undoes saga.steps w := @undoes_of_failed Value saga.steps [] w start
  rw [execute]
  split
  · exact safe_pure (fun _ => trivial_)
  · split
    · exact safe_pure (fun _ => trivial_)
    · refine safe_bind (safe_begin trivial (fun _ => trivial) (fun now reply => ?_))
      cases reply.error with
      | some message => exact safe_pure (by simp [begun])
      | none =>
        refine safe_bind ((runFrom_undoes distinct saga.steps [] (by simp) (begun saga now) _
          (shows_save start (begun saga now) reply)).mono ?_)
        rintro ⟨error,saga'⟩ w' ended
        cases error with
        | some message => exact safe_pure (ended rfl)
        | none => exact safe_save trivial (fun _ => trivial) (fun now reply => by simp)

/-- When `Execute` leaves a saga compensated, the steps that succeeded have been compensated, each once and in reverse
    order, exactly when the store has not refused to record the completion of one with a `Compensate`. -/
theorem compensated_iff_recorded (saga : Saga Value) (distinct : (saga.steps.map Step.key).Nodup) (w : World Value)
    (fresh : w.log = []) {choices : List (Choice Value)} {w' : World Value} {error : Option String} {saga' : Saga Value}
    (ran : answers perform w choices (execute saga) = some (w',.done (error,saga'))) (compensated : saga'.status = .compensated) :
    (undone w'.log).reverse = succeeded w'.log ↔ ∀ step ∈ saga.steps, step.hasCompensate = true → step.key ∉ unrecorded w'.log :=
  safe_answers (execute_undoes saga distinct w fresh) ran compensated

def refund : Saga String where
  id := "saga-1"
  name := "cancel_subscription_with_refund"
  status := .running
  context := []
  steps := [⟨"cancel_subscription",true,none⟩,⟨"create_refund_statement",true,none⟩]
  createdAt := none
  updatedAt := none
def recordFails : List (Choice String) :=
  [.time 1,.reply .done,.time 2,.function none [("previous_status","active")],.reply (.failed "connection reset"),
    .time 3,.reply .done]
theorem compensated_standing : ¬ ∀ (saga : Saga String) (w w' : World String) (choices : List (Choice String))
    (error : Option String) (saga' : Saga String), (saga.steps.map Step.key).Nodup → w.log = [] →
    answers perform w choices (execute saga) = some (w',.done (error,saga')) → saga'.status = .compensated →
    (undone w'.log).reverse = succeeded w'.log := by
  intro claim
  obtain ⟨⟨error,saga'⟩,w',ran,compensated,standing⟩ := answers_seen perform World.empty recordFails (execute refund)
    (fun (_,saga') w' => saga'.status = .compensated ∧ (undone w'.log).reverse ≠ succeeded w'.log) (by decide +kernel)
  exact standing (claim refund World.empty w' recordFails error saga' (by decide) rfl ran compensated)
def secondFails : List (Choice String) :=
  [.time 1,.reply .done,.time 2,.function none [("previous_status","active")],.reply .done,
    .time 3,.function (some "refused") [],.reply .done,.time 4,.function none [],.reply .done,.time 5,.reply .done]
theorem compensated_iff_recorded_secondFails : ∃ w' error saga',
    answers perform World.empty secondFails (execute refund) = some (w',.done (error,saga')) ∧
      (undone w'.log).reverse = succeeded w'.log := by
  obtain ⟨⟨error,saga'⟩,w',ran,compensated,recorded⟩ := answers_seen perform World.empty secondFails (execute refund)
    (fun (_,saga') w' => saga'.status = .compensated ∧ unrecorded w'.log = []) (by decide +kernel)
  refine ⟨w',error,saga',ran,(compensated_iff_recorded refund (by decide) World.empty rfl ran compensated).mpr ?_⟩
  rw [recorded]
  simp

end Stellabill.SagaCompensation
