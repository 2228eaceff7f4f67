import Stellabill.Sagas

/-!
How an execution of a saga ends. When the store does not fail and the context is not
cancelled, only the step functions decide.
-/
namespace Stellabill.SagaOutcomes
open Keyed Transitions Program Sagas List

variable {Value Outside : Type}

/-- Surroundings that answer every call: the store, and what the step functions work on. -/
abbrev Surroundings (Value Outside : Type) := World Value × Outside → (c : Call Value) → Answer c × (World Value × Outside)

/-- A store that does what it is asked to, and a context that is not done. -/
def Untroubled : Choice Value → Prop
  | .reply reply => reply = .done
  | .wait cancelled => cancelled = none
  | .time _ | .function .. | .order _ => True
/-- Every call is answered in one of the ways it can be, without trouble. -/
def Calm (handle : Surroundings Value Outside) : Prop :=
  ∀ w outside c, ∃ choice, Untroubled choice ∧ perform w c choice = some ((handle (w,outside) c).1,(handle (w,outside) c).2.1)

/-- What the step functions do: their error, what they set, and what becomes of the things they work on. The clock is free. -/
structure Functions (Value Outside : Type) where
  clock : Outside → Time
  execute : Step → Context Value → Outside → Option String × Context Value × Outside
  compensate : Step → Context Value → Outside → Option String × Context Value × Outside
def surround (functions : Functions Value Outside) : Surroundings Value Outside
  | (w,outside), .now => (functions.clock outside,(w,outside))
  | (w,outside), .execute step context =>
    let (error,sets,outside') := functions.execute step context outside
    ((error,sets ++ context),(w.logged (.executed step sets error),outside'))
  | (w,outside), .compensate step context =>
    let (error,sets,outside') := functions.compensate step context outside
    ((error,sets ++ context),(w.logged (.compensated step sets error),outside'))
  | (w,outside), .save saga => (none,(w.save saga .done,outside))
  | (w,outside), .saveStepResult sagaID result => (w.recordError sagaID .done,(w.record sagaID result .done,outside))
  | (w,outside), .load sagaID =>
    ((w.sagas sagaID).elim (.error "saga not found") (fun saga => .ok (saga,(w.results sagaID).rows)),(w,outside))
  | (w,outside), .wait _ => (none,(w,outside))
theorem calm_surround (functions : Functions Value Outside) : Calm (surround functions) := by
  intro w outside c
  cases c with
  | now => exact ⟨.time (functions.clock outside),trivial,rfl⟩
  | execute step context =>
    exact ⟨.function (functions.execute step context outside).1 (functions.execute step context outside).2.1,trivial,rfl⟩
  | compensate step context =>
    exact ⟨.function (functions.compensate step context outside).1 (functions.compensate step context outside).2.1,trivial,rfl⟩
  | save saga | saveStepResult sagaID result => exact ⟨.reply .done,rfl,rfl⟩
  | load sagaID =>
    refine ⟨.order (w.results sagaID).rows,trivial,?_⟩
    simp only [perform,surround]
    cases w.sagas sagaID with
    | none => rfl
    | some saga => exact if_pos (List.Perm.refl _)
  | wait retries => exact ⟨.wait none,rfl,rfl⟩

section
variable {handle : Surroundings Value Outside} {w w' : World Value} {outside : Outside}

section
variable (c : Call Value) {answer : Answer c} (performed : some (answer,w') = some ((handle (w,outside) c).1,(handle (w,outside) c).2.1))
include performed
private theorem handled : ∃ outside', handle (w,outside) c = (answer,(w',outside')) := by
  injection performed with same
  exact ⟨_,Prod.ext (congrArg Prod.fst same).symm (Prod.ext (congrArg Prod.snd same).symm rfl)⟩
theorem eval_handled {Result : Type} (f : Answer c → Run Value Result) :
    ∃ outside', eval handle (call c >>= f) (w,outside) = eval handle (f answer) (w',outside') := by
  obtain ⟨outside',is⟩ := handled c performed
  rw [eval_call,is]
  exact ⟨outside',rfl⟩
end

variable {Result : Type} (calm : Calm handle) (w outside)
include calm

theorem Calm.timeNow (f : Time → Run Value Result) :
    ∃ now outside', eval handle (timeNow >>= f) (w,outside) = eval handle (f now) (w,outside') := by
  obtain ⟨choice,_,performed⟩ := calm w outside .now
  cases choice with
  | time now => exact ⟨now,eval_handled .now performed f⟩
  | function | reply | order | wait => cases performed
section
variable (step : Step) (context : Context Value) (f : Option String × Context Value → Run Value Result)
theorem Calm.execute : ∃ error sets outside', eval handle (step.execute context >>= f) (w,outside) =
      eval handle (f (error,sets ++ context)) (w.logged (.executed step sets error),outside') := by
  obtain ⟨choice,_,performed⟩ := calm w outside (.execute step context)
  cases choice with
  | function error sets => exact ⟨error,sets,eval_handled (.execute step context) performed f⟩
  | time | reply | order | wait => cases performed
theorem Calm.compensate : ∃ error sets outside', eval handle (step.compensate context >>= f) (w,outside) =
      eval handle (f (error,sets ++ context)) (w.logged (.compensated step sets error),outside') := by
  obtain ⟨choice,_,performed⟩ := calm w outside (.compensate step context)
  cases choice with
  | function error sets => exact ⟨error,sets,eval_handled (.compensate step context) performed f⟩
  | time | reply | order | wait => cases performed
end
theorem Calm.storeSave (saga : Saga Value) (f : Option String → Run Value Result) :
    ∃ outside', eval handle (storeSave saga >>= f) (w,outside) = eval handle (f none) (w.save saga .done,outside') := by
  obtain ⟨choice,untroubled,performed⟩ := calm w outside (.save saga)
  cases choice with
  | reply reply =>
    cases untroubled
    exact eval_handled (.save saga) performed f
  | time | function | order | wait => cases performed
theorem Calm.storeSaveStepResult {sagaID : String} (stored : (w.sagas sagaID).isSome = true) (result : StepResult)
    (f : Option String → Run Value Result) : ∃ outside', eval handle (storeSaveStepResult sagaID result >>= f) (w,outside) =
      eval handle (f none) (w.record sagaID result .done,outside') := by
  obtain ⟨choice,untroubled,performed⟩ := calm w outside (.saveStepResult sagaID result)
  cases choice with
  | reply reply =>
    cases untroubled
    have silent : w.recordError sagaID .done = none := by simp [World.recordError,stored,Reply.error]
    rw [← silent]
    exact eval_handled (.saveStepResult sagaID result) performed f
  | time | function | order | wait => cases performed
theorem Calm.waitDelay (retries : Nat) (f : Option String → Run Value Result) :
    ∃ outside', eval handle (waitDelay retries >>= f) (w,outside) = eval handle (f none) (w,outside') := by
  obtain ⟨choice,untroubled,performed⟩ := calm w outside (.wait retries)
  cases choice with
  | wait cancelled =>
    cases untroubled
    exact eval_handled (.wait retries) performed f
  | time | function | reply | order => cases performed
end

def budget (step : Step) : Nat := (max 1 (step.retryPolicy.elim 1 RetryPolicy.maxAttempts)).toNat
/-- Failed attempts of a step, with what they set in the context and their errors. -/
def failures (step : Step) (errors : List (Context Value × String)) : List (Entry Value) :=
  errors.map (fun (sets,message) => .executed step sets (some message))
/-- The attempts of a step: one of them succeeds, or as many as there may be fail. -/
inductive Tried (step : Step) (attempts : Nat) : List (Entry Value) → Option String → Prop
  | succeeded {errors : List (Context Value × String)} {sets : Context Value} (within : errors.length < attempts) :
    Tried step attempts (failures step errors ++ [.executed step sets none]) none
  | exhausted {errors : List (Context Value × String)} {sets : Context Value} {message : String} (all : errors.length+1 = attempts) :
    Tried step attempts (failures step errors ++ [.executed step sets (some message)]) (some message)
/-- Each of the steps succeeds within its budget, one after the other. -/
inductive Succeeded : List Step → List (Entry Value) → Prop
  | nil : Succeeded [] []
  | cons {step : Step} {rest : List Step} {first later : List (Entry Value)} (tried : Tried step (budget step) first none)
    (others : Succeeded rest later) : Succeeded (step :: rest) (first ++ later)
/-- Each of the steps is compensated, one after the other; one without `Compensate` needs no call. -/
inductive Undone : List Step → List (Entry Value) → Prop
  | nil : Undone [] []
  | skipped {step : Step} {rest : List Step} {later : List (Entry Value)} (none_ : step.hasCompensate = false)
    (others : Undone rest later) : Undone (step :: rest) later
  | called {step : Step} {rest : List Step} {later : List (Entry Value)} {sets : Context Value} (has : step.hasCompensate = true)
    (others : Undone rest later) : Undone (step :: rest) (.compensated step sets none :: later)

/-- The statuses of steps by their keys, where those of some steps are replaced. -/
def marked (steps : List Step) (status : StepStatus) (old : String → Option StepStatus) : String → Option StepStatus :=
  fun key => if key ∈ steps.map Step.key then some status else old key

/-- How a saga may end, with the calls of step functions, its final status and the statuses of its steps. -/
inductive Ending (steps : List Step) (old : String → Option StepStatus) :
    List (Entry Value) → SagaStatus → (String → Option StepStatus) → Prop
  | completed {calls : List (Entry Value)} (all : Succeeded steps calls) :
    Ending steps old calls .completed (marked steps .completed old)
  | compensated {before after : List Step} {failed : Step} {calls calls' calls'' : List (Entry Value)} {message : String}
    (is : steps = before ++ failed :: after) (succeeded : Succeeded before calls)
    (exhausted : Tried failed (budget failed) calls' (some message)) (undone : Undone before.reverse calls'') :
    Ending steps old (calls ++ calls' ++ calls'') .compensated (marked before .compensated (marked [failed] .failed old))
  | failed {kept undone after : List Step} {stuck failed : Step} {calls calls' calls'' : List (Entry Value)}
    {message message' : String} {sets : Context Value} (is : steps = kept ++ stuck :: undone ++ failed :: after)
    (succeeded : Succeeded (kept ++ stuck :: undone) calls) (exhausted : Tried failed (budget failed) calls' (some message))
    (later : Undone undone.reverse calls'') (has : stuck.hasCompensate = true) :
    Ending steps old (calls ++ calls' ++ (calls'' ++ [.compensated stuck sets (some message')])) .failed
      (marked kept .completed (marked [stuck] .compensationFailed (marked undone .compensated (marked [failed] .failed old))))

def isCall : Entry Value → Bool
  | .executed .. | .compensated .. => true
  | .entered | .saved .. | .recorded .. => false
def callsOf (w : World Value) : List (Entry Value) := w.log.filter isCall
def lastStatus (w : World Value) (id : String) : String → Option StepStatus :=
  fun key => ((w.results id).find key).map StepResult.status

/-- From one state of the store to another, where the saga itself is not saved. -/
structure Went (id : String) (w w' : World Value) (calls : List (Entry Value)) (statuses : String → Option StepStatus) : Prop where
  sagas : w'.sagas = w.sagas
  calls : callsOf w' = calls.reverse ++ callsOf w
  statuses : lastStatus w' id = statuses

section
variable {id : String} {w w' w'' : World Value} {calls calls' : List (Entry Value)} {statuses statuses' : String → Option StepStatus}

theorem Went.refl : Went id w w [] (lastStatus w id) := ⟨rfl,rfl,rfl⟩
theorem Went.trans (first : Went id w w' calls statuses) (second : Went id w' w'' calls' statuses') :
    Went id w w'' (calls ++ calls') statuses' where
  sagas := second.sagas.trans first.sagas
  calls := by rw [second.calls,first.calls,reverse_append,append_assoc]
  statuses := second.statuses
section
variable (stored : (w.sagas id).isSome = true) (result : StepResult) (step : Step) (its : result.stepKey = step.key)
include stored its
theorem went_record : Went id w (w.record id result .done) [] (marked [step] result.status (lastStatus w id)) := by
  have took : w.records id .done = true := by simp [World.records,stored,Reply.effective]
  refine ⟨rfl,by simp [callsOf,World.record,isCall],?_⟩
  funext key
  simp only [lastStatus,World.record,took,if_true,Function.update_self,Table.find_upsert,marked,map_cons,map_nil,mem_singleton,its]
  by_cases its' : key = step.key <;> simp [its']
theorem went_called {entry : Entry Value} (call : isCall entry = true) :
    Went id w ((w.logged entry).record id result .done) [entry] (marked [step] result.status (lastStatus w id)) := by
  have logged : Went id w (w.logged entry) [entry] (lastStatus w id) := ⟨rfl,by simp [callsOf,World.logged,call],rfl⟩
  have recorded := went_record (w := w.logged entry) stored result step its
  exact logged.trans recorded
end

theorem marked_again (steps : List Step) (status status' : StepStatus) (old : String → Option StepStatus) :
    marked steps status (marked steps status' old) = marked steps status old := by
  funext key
  simp only [marked]
  split <;> rfl
theorem marked_append (steps steps' : List Step) (status : StepStatus) (old : String → Option StepStatus) :
    marked steps' status (marked steps status old) = marked (steps ++ steps') status old := by
  funext key
  simp only [marked,map_append,mem_append]
  by_cases first : key ∈ steps.map Step.key <;> by_cases second : key ∈ steps'.map Step.key <;> simp [first,second]
end

/-! ### The loops -/

def triedStatus : Option String → StepStatus
  | none => .completed
  | some _ => .failed

theorem shouldRetry_iff (step : Step) (retries : Nat) : shouldRetry step.retryPolicy (retries+1) = true ↔ retries+1 < budget step := by
  unfold shouldRetry budget
  cases step.retryPolicy with
  | none => simp
  | some policy =>
    simp only [decide_eq_true_eq,Option.elim]
    omega

theorem tried_first (step : Step) (left : Nat) (sets : Context Value) : Tried step (left+1) [.executed step sets none] none := by
  have within : ([] : List (Context Value × String)).length < left+1 := Nat.succ_pos left
  exact .succeeded within
theorem tried_last (step : Step) (sets : Context Value) (message : String) :
    Tried step 1 [.executed step sets (some message)] (some message) := by
  have all : ([] : List (Context Value × String)).length+1 = 1 := rfl
  exact .exhausted all

variable {step : Step} {calls calls' : List (Entry Value)} {statuses : String → Option StepStatus}

theorem tried_again {left : Nat} {error : Option String} (tried : Tried step left calls error) (sets : Context Value) (message : String) :
    Tried step (left+1) (.executed step sets (some message) :: calls) error := by
  cases tried with
  | @succeeded errors sets' within =>
    have within' : ((sets,message) :: errors).length < left+1 := Nat.succ_lt_succ within
    exact .succeeded within'
  | @exhausted errors sets' message' all =>
    have all' : ((sets,message) :: errors).length+1 = left+1 := congrArg Nat.succ all
    exact .exhausted all'

/-- How a compensation may go: all are compensated, or one fails and the ones after it are left alone. -/
inductive Undoing (steps : List Step) (old : String → Option StepStatus) :
    List (Entry Value) → Bool → (String → Option StepStatus) → Prop
  | all {calls : List (Entry Value)} (undone : Undone steps calls) : Undoing steps old calls false (marked steps .compensated old)
  | stopped {undone kept : List Step} {stuck : Step} {calls : List (Entry Value)} {sets : Context Value} {message : String}
    (is : steps = undone ++ stuck :: kept) (has : stuck.hasCompensate = true) (earlier : Undone undone calls) :
    Undoing steps old (calls ++ [.compensated stuck sets (some message)]) true
      (marked [stuck] .compensationFailed (marked undone .compensated old))

variable {rest : List Step} {first later : List (Entry Value)} {old : String → Option StepStatus} {compFailed : Bool} {failed : Step}

private theorem undone_cons (one : Undone [step] first) (others : Undone rest later) : Undone (step :: rest) (first ++ later) := by
  cases one with
  | skipped none_ nothing =>
    cases nothing
    exact .skipped none_ others
  | called has nothing =>
    cases nothing
    exact .called has others
theorem undoing_cons (one : Undone [step] first) (others : Undoing rest (marked [step] .compensated old) later compFailed statuses) :
    Undoing (step :: rest) old (first ++ later) compFailed statuses := by
  cases others with
  | all undone =>
    rw [marked_append]
    exact .all (undone_cons one undone)
  | stopped is has earlier =>
    rw [marked_append,← append_assoc]
    exact .stopped (by rw [is]; rfl) has (undone_cons one earlier)

theorem succeeded_append {steps steps' : List Step} (first : Succeeded steps calls) (second : Succeeded steps' calls') :
    Succeeded (steps ++ steps') (calls ++ calls') := by
  induction first with
  | nil => exact second
  | cons tried others ih =>
    rw [append_assoc]
    exact .cons tried ih
theorem succeeded_one (tried : Tried step (budget step) calls none) : Succeeded [step] calls := by
  have one := Succeeded.cons tried .nil
  rwa [append_nil] at one
private theorem marked_compensated (before : List Step) (old : String → Option StepStatus) :
    marked before.reverse .compensated (marked [failed] .failed (marked before .completed old)) =
      marked before .compensated (marked [failed] .failed old) := by
  funext key
  simp only [marked,map_reverse,mem_reverse]
  by_cases member : key ∈ before.map Step.key <;> simp [member]
private theorem marked_stopped {kept undone : List Step} {stuck : Step} (old : String → Option StepStatus)
    (distinct : ((kept ++ stuck :: undone ++ [failed]).map Step.key).Nodup) :
    marked [stuck] .compensationFailed (marked undone.reverse .compensated
        (marked [failed] .failed (marked (kept ++ stuck :: undone) .completed old))) =
      marked kept .completed (marked [stuck] .compensationFailed (marked undone .compensated (marked [failed] .failed old))) := by
  simp only [map_append,map_cons,map_nil,append_assoc,cons_append] at distinct
  have apart := (nodup_append.mp distinct).2.2
  funext key
  simp only [marked,map_append,map_cons,map_nil,map_reverse,mem_append,mem_cons,mem_reverse,not_mem_nil,or_false]
  by_cases first : key ∈ kept.map Step.key
  · have other := apart key first
    have notStuck : key ≠ stuck.key := other _ (by simp)
    have notFailed : key ≠ failed.key := other _ (by simp)
    have notUndone : key ∉ undone.map Step.key := fun member => other key (by simp [member]) rfl
    simp [first,notStuck,notFailed,notUndone]
  · simp only [first,false_or]
    by_cases second : key = stuck.key <;> by_cases third : key ∈ undone.map Step.key <;>
      simp only [second,third,if_true,if_false,or_false]
theorem ending_undoing {before after : List Step} {calls'' : List (Entry Value)} {message : String}
    (distinct : ((before ++ failed :: after).map Step.key).Nodup) (succeeded : Succeeded before calls)
    (exhausted : Tried failed (budget failed) calls' (some message))
    (undoing : Undoing before.reverse (marked [failed] .failed (marked before .completed old)) calls'' compFailed statuses) :
    Ending (before ++ failed :: after) old (calls ++ calls' ++ calls'') (if compFailed then .failed else .compensated) statuses := by
  cases undoing with
  | all undone =>
    rw [marked_compensated]
    exact .compensated rfl succeeded exhausted undone
  | @stopped undone kept stuck calls'' sets message' is has earlier =>
    obtain ⟨undone,rfl⟩ : ∃ undone', undone = undone'.reverse := ⟨undone.reverse,(reverse_reverse undone).symm⟩
    have split : before = kept.reverse ++ stuck :: undone := by
      rw [← reverse_reverse before,is]
      simp
    subst split
    have distinct' : ((kept.reverse ++ stuck :: undone ++ [failed]).map Step.key).Nodup := by
      refine distinct.sublist ?_
      simp
    rw [marked_stopped old distinct']
    exact .failed rfl succeeded exhausted earlier has

/-- From one state of the store to another, in which the saga is saved as it ended. -/
structure Ended (id : String) (w w' : World Value) (saga : Saga Value) (calls : List (Entry Value))
    (statuses : String → Option StepStatus) : Prop where
  calls : callsOf w' = calls.reverse ++ callsOf w
  statuses : lastStatus w' id = statuses
  saved : w'.sagas id = some saga
theorem Ended.after {id : String} {w w' w'' : World Value} {saga : Saga Value} {statuses' : String → Option StepStatus}
    (ended : Ended id w' w'' saga calls' statuses') (went : Went id w w' calls statuses) : Ended id w w'' saga (calls ++ calls') statuses' where
  calls := by rw [ended.calls,went.calls,reverse_append,append_assoc]
  statuses := ended.statuses
  saved := ended.saved
/-- How `runFrom` leaves the saga: every step has succeeded, or the saga has ended otherwise. -/
def RunEnded (steps : List Step) (saga : Saga Value) (w w' : World Value) (saga' : Saga Value) (calls : List (Entry Value)) :
    Option String → Prop
  | none => (∃ context, saga' = { saga with context }) ∧ Succeeded steps calls ∧
    Went saga.id w w' calls (marked steps .completed (lastStatus w saga.id))
  | some _ => saga'.status ≠ .completed ∧ ∃ statuses, Ending steps (lastStatus w saga.id) calls saga'.status statuses ∧
    Ended saga.id w w' saga' calls statuses

section
variable {handle : Surroundings Value Outside} (calm : Calm handle)
include calm

private theorem attempt_tried (step : Step) (now : Time) (left retries : Nat) (saga : Saga Value) (w : World Value) (outside : Outside)
    (all : retries + (left+1) = budget step) (stored : (w.sagas saga.id).isSome = true) :
    ∃ error context w' outside' calls,
      eval handle (attempt saga step now retries) (w,outside) = ((error,{ saga with context }),(w',outside')) ∧
      Tried step (left+1) calls error ∧ Went saga.id w w' calls (marked [step] (triedStatus error) (lastStatus w saga.id)) := by
  rw [attempt]
  obtain ⟨error,sets,outside₁,executed⟩ := calm.execute w outside step saga.context _
  rw [executed]
  cases error with
  | none =>
    obtain ⟨outside₂,recorded⟩ := calm.storeSaveStepResult (w.logged (.executed step sets none)) outside₁ stored _ _
    rw [recorded]
    exact ⟨none,sets ++ saga.context,_,outside₂,_,rfl,tried_first step left sets,went_called stored _ step rfl rfl⟩
  | some message =>
    dsimp only
    cases left with
    | zero =>
      obtain ⟨outside₂,recorded⟩ := calm.storeSaveStepResult (w.logged (.executed step sets (some message))) outside₁ stored _ _
      have last : ¬ shouldRetry step.retryPolicy (retries+1) = true := by
        rw [shouldRetry_iff]
        omega
      rw [if_neg last,recorded]
      exact ⟨some message,sets ++ saga.context,_,outside₂,_,rfl,tried_last step sets message,went_called stored _ step rfl rfl⟩
    | succ left =>
      have again : shouldRetry step.retryPolicy (retries+1) = true := by
        rw [shouldRetry_iff]
        omega
      let saga₁ : Saga Value := { saga with context := sets ++ saga.context }
      let result := executedResult saga₁ step .retrying "" (retries+1) now
      let w₁ := (w.logged (.executed step sets (some message))).record saga.id result .done
      obtain ⟨outside₂,recorded⟩ := calm.storeSaveStepResult (w.logged (.executed step sets (some message))) outside₁ stored result _
      obtain ⟨outside₃,waited⟩ := calm.waitDelay w₁ outside₂ (retries+1) _
      have retrying : Went saga.id w w₁ _ _ := went_called stored result step rfl rfl
      obtain ⟨error,context,w',outside',calls,is,tried,went⟩ :=
        attempt_tried step now left (retries+1) saga₁ w₁ outside₃ (by omega) stored
      rw [retrying.statuses,marked_again] at went
      rw [if_pos again,recorded]
      rw [waited]
      exact ⟨error,context,w',outside',_,is,tried_again tried sets message,retrying.trans went⟩
variable (saga : Saga Value) (w : World Value) (outside : Outside)
theorem save_ended {w₀ : World Value} {calls : List (Entry Value)}
    {statuses : String → Option StepStatus} (went : Went saga.id w₀ w calls statuses) :
    ∃ saga' w' outside', eval handle (save saga) (w,outside) = ((none,saga'),(w',outside')) ∧ saga'.status = saga.status ∧
      Ended saga.id w₀ w' saga' calls statuses := by
  obtain ⟨now,outside₁,read⟩ := calm.timeNow w outside _
  obtain ⟨outside₂,saved⟩ := calm.storeSave w outside₁ { saga with updatedAt := some now } _
  rw [save,read]
  rw [saved]
  exact ⟨_,_,outside₂,rfl,rfl,went.calls,went.statuses,by simp [World.save,Reply.effective]⟩
section
variable (stored : (w.sagas saga.id).isSome = true)
include stored
theorem runStep_tried (step : Step) :
    ∃ error context w' outside' calls,
      eval handle (runStep saga step) (w,outside) = ((error,{ saga with context }),(w',outside')) ∧
      Tried step (budget step) calls error ∧ Went saga.id w w' calls (marked [step] (triedStatus error) (lastStatus w saga.id)) := by
  obtain ⟨now,outside₁,read⟩ := calm.timeNow w outside (fun now => attempt saga step now 0)
  obtain ⟨left,is⟩ : ∃ left, budget step = left+1 := by
    refine ⟨budget step-1,?_⟩
    unfold budget
    omega
  rw [runStep,read,is]
  exact attempt_tried calm step now left 0 saga w outside₁ (by omega) stored
private theorem compensateAll_undoing (steps : List Step) :
    ∃ compFailed context w' outside' calls statuses,
      eval handle (compensateAll saga steps) (w,outside) = ((compFailed,{ saga with context }),(w',outside')) ∧
      Undoing steps (lastStatus w saga.id) calls compFailed statuses ∧ Went saga.id w w' calls statuses := by
  induction steps generalizing saga w outside with
  | nil => exact ⟨false,saga.context,w,outside,[],_,rfl,.all .nil,.refl⟩
  | cons step rest ih =>
    rw [compensateAll]
    obtain ⟨compAt,outside₁,read⟩ := calm.timeNow w outside _
    rw [read]
    by_cases has : step.hasCompensate = true
    · obtain ⟨error,sets,outside₂,called⟩ := calm.compensate w outside₁ step saga.context _
      rw [if_pos has,called]
      cases error with
      | some message =>
        obtain ⟨outside₃,recorded⟩ := calm.storeSaveStepResult (w.logged (.compensated step sets (some message))) outside₂ stored _ _
        have stopped : Undoing (step :: rest) (lastStatus w saga.id) [.compensated step sets (some message)] true _ :=
          .stopped (nil_append _).symm has .nil
        rw [recorded]
        exact ⟨true,sets ++ saga.context,_,outside₃,_,_,rfl,stopped,went_called stored _ step rfl rfl⟩
      | none =>
        let saga₁ : Saga Value := { saga with context := sets ++ saga.context }
        let result := compensatedResult saga₁ step .compensated "" compAt
        obtain ⟨outside₃,recorded⟩ := calm.storeSaveStepResult (w.logged (.compensated step sets none)) outside₂ stored result _
        let w₁ := (w.logged (.compensated step sets none)).record saga.id result .done
        have first : Went saga.id w w₁ [.compensated step sets none] _ := went_called stored result step rfl rfl
        obtain ⟨compFailed,context,w',outside',calls,statuses,is,undoing,went⟩ := ih saga₁ w₁ outside₃ stored
        rw [first.statuses] at undoing
        rw [recorded]
        exact ⟨compFailed,context,w',outside',_,statuses,is,undoing_cons (.called has .nil) undoing,first.trans went⟩
    · let result := compensatedResult saga step .compensated "" compAt
      obtain ⟨outside₂,recorded⟩ := calm.storeSaveStepResult w outside₁ stored result _
      have first : Went saga.id w (w.record saga.id result .done) _ _ := went_record stored result step rfl
      obtain ⟨compFailed,context,w',outside',calls,statuses,is,undoing,went⟩ :=
        ih saga (w.record saga.id result .done) outside₂ stored
      rw [first.statuses] at undoing
      rw [if_neg has,recorded]
      exact ⟨compFailed,context,w',outside',_,statuses,is,undoing_cons (.skipped (by simpa using has) .nil) undoing,
        first.trans went⟩
private theorem failAndCompensate_ended (before : List Step) :
    ∃ saga' w' outside' calls statuses compFailed,
      eval handle (failAndCompensate saga before) (w,outside) = (saga',(w',outside')) ∧
      saga'.status = (if compFailed then .failed else .compensated) ∧
      Undoing before (lastStatus w saga.id) calls compFailed statuses ∧ Ended saga.id w w' saga' calls statuses := by
  obtain ⟨compFailed,context,w₁,outside₁,calls,statuses,undid,undoing,went⟩ := compensateAll_undoing calm saga w outside stored before
  obtain ⟨saga',w',outside',saved,status,ended⟩ :=
    save_ended calm { saga with context, status := if compFailed then .failed else .compensated } w₁ outside₁ went
  rw [failAndCompensate,eval_bind,undid]
  rw [eval_bind,saved]
  exact ⟨saga',w',outside',calls,statuses,compFailed,rfl,status,undoing,ended⟩
private theorem runFrom_ended (rest before : List Step) {w₀ : World Value} {calls : List (Entry Value)}
    (distinct : ((before.reverse ++ rest).map Step.key).Nodup) (succeeded : Succeeded before.reverse calls)
    (went : Went saga.id w₀ w calls (marked before.reverse .completed (lastStatus w₀ saga.id))) : ∃ error saga' w' outside' calls',
      eval handle (runFrom saga (fun _ => false) before rest) (w,outside) = ((error,saga'),(w',outside')) ∧
      RunEnded (before.reverse ++ rest) saga w₀ w' saga' calls' error := by
  induction rest generalizing before saga w outside calls with
  | nil =>
    rw [append_nil]
    exact ⟨none,saga,w,outside,calls,rfl,⟨saga.context,rfl⟩,succeeded,went⟩
  | cons step rest ih =>
    obtain ⟨error,context,w₁,outside₁,calls₁,ran,tried,went₁⟩ := runStep_tried calm saga w outside stored step
    have stored₁ : (w₁.sagas saga.id).isSome = true := by rw [went₁.sagas]; exact stored
    rw [went.statuses] at went₁
    rw [runFrom,if_neg Bool.false_ne_true,eval_bind,ran]
    cases error with
    | none =>
      have reversed : before.reverse ++ step :: rest = (step :: before).reverse ++ rest := by simp
      rw [reversed] at distinct ⊢
      have succeeded₁ : Succeeded (step :: before).reverse (calls ++ calls₁) := by
        rw [reverse_cons]
        exact succeeded_append succeeded (succeeded_one tried)
      have went₂ : Went saga.id w₀ w₁ (calls ++ calls₁) (marked (step :: before).reverse .completed (lastStatus w₀ saga.id)) := by
        rw [reverse_cons,← marked_append]
        exact went.trans went₁
      exact ih { saga with context } w₁ outside₁ stored₁ (step :: before) distinct succeeded₁ went₂
    | some message =>
      obtain ⟨saga',w',outside',calls₂,statuses,compFailed,undid,status,undoing,ended⟩ :=
        failAndCompensate_ended calm { saga with context } w₁ outside₁ stored₁ before
      have undoing' : Undoing before.reverse.reverse (marked [step] .failed (marked before.reverse .completed (lastStatus w₀ saga.id)))
          calls₂ compFailed statuses := by
        rw [reverse_reverse]
        rw [went₁.statuses] at undoing
        exact undoing
      rw [eval_bind,undid]
      refine ⟨some message,saga',w',outside',calls ++ calls₁ ++ calls₂,rfl,?_,statuses,?_,ended.after (went.trans went₁)⟩
      · rw [status]
        split <;> simp
      · rw [status]
        exact ending_undoing distinct succeeded tried undoing'
end
private theorem begin_begun : ∃ now outside',
    eval handle (begin saga) (w,outside) = ((none,begun saga now),(w.save (begun saga now) .done,outside')) := by
  obtain ⟨now,outside₁,read⟩ := calm.timeNow w outside _
  obtain ⟨outside₂,saved⟩ := calm.storeSave w outside₁ (begun saga now) _
  rw [begin,read]
  exact ⟨now,outside₂,saved⟩
theorem finish_ended (distinct : (saga.steps.map Step.key).Nodup) :
    ∃ error saga' w' outside' calls statuses, eval handle (finish saga (fun _ => false)) (w,outside) = ((error,saga'),(w',outside')) ∧
      (error = none ↔ saga'.status = .completed) ∧ Ending saga.steps (lastStatus w saga.id) calls saga'.status statuses ∧
      Ended saga.id w w' saga' calls statuses := by
  obtain ⟨now,outside₁,started⟩ := begin_begun calm saga w outside
  have stored : ((w.save (begun saga now) .done).sagas saga.id).isSome = true := by simp [World.save,begun,Reply.effective]
  obtain ⟨error,saga₁,w₁,outside₂,calls,ran,ended⟩ :=
    runFrom_ended calm (begun saga now) _ outside₁ stored saga.steps [] distinct .nil .refl
  have ran' : eval handle (runFrom (begun saga now) (fun _ => false) [] (begun saga now).steps)
    (w.save (begun saga now) .done,outside₁) = ((error,saga₁),(w₁,outside₂)) := ran
  rw [finish,eval_bind,started]
  rw [eval_bind,ran']
  cases error with
  | none =>
    obtain ⟨⟨context,rfl⟩,succeeded,went⟩ := ended
    obtain ⟨saga',w',outside',saved,status,ended⟩ := save_ended calm { begun saga now with context, status := .completed } w₁ outside₂ went
    refine ⟨none,saga',w',outside',calls,_,saved,by simp [status],?_,ended.calls,ended.statuses,ended.saved⟩
    rw [status]
    exact .completed succeeded
  | some message =>
    obtain ⟨other,statuses,ending,ended⟩ := ended
    exact ⟨some message,saga₁,w₁,outside₂,calls,statuses,rfl,by simp [other],ending,ended.calls,ended.statuses,ended.saved⟩
end

/-! ### The calls of an ending -/

def executes (step : Step) : Entry Value → Bool
  | .executed step' _ _ => step' = step
  | .compensated .. | .entered | .saved .. | .recorded .. => false

section
variable {step failed : Step} {steps before : List Step} {attempts : Nat} {error : Option String} {message : String}
variable {calls calls' calls'' : List (Entry Value)}

private theorem mem_failures {errors : List (Context Value × String)} {entry : Entry Value} (member : entry ∈ failures step errors) :
    ∃ sets message, entry = .executed step sets (some message) := by
  obtain ⟨⟨sets,message⟩,_,rfl⟩ := mem_map.mp member
  exact ⟨sets,message,rfl⟩
theorem tried_calls (tried : Tried step attempts calls error) :
    calls.length ≤ attempts ∧ ∀ entry ∈ calls, ∃ sets result, entry = .executed step sets result ∧ (error ≠ none → result ≠ none) := by
  cases tried with
  | @succeeded errors sets within =>
    refine ⟨by simp only [failures,length_append,length_map,length_singleton]; omega,?_⟩
    intro entry member
    rcases mem_append.mp member with failure | last
    · obtain ⟨sets',message,is⟩ := mem_failures failure
      exact ⟨sets',some message,is,by simp⟩
    · exact ⟨sets,none,mem_singleton.mp last,by simp⟩
  | @exhausted errors sets message all =>
    refine ⟨by simp [failures,all],?_⟩
    intro entry member
    rcases mem_append.mp member with failure | last
    · obtain ⟨sets',message',is⟩ := mem_failures failure
      exact ⟨sets',some message',is,by simp⟩
    · exact ⟨sets,some message,mem_singleton.mp last,by simp⟩
theorem tried_count (tried : Tried step (budget step) calls error) (step' : Step) :
    calls.countP (executes step') ≤ if step' = step then budget step else 0 := by
  obtain ⟨bounded,its⟩ := tried_calls tried
  split
  · exact Nat.le_trans countP_le_length bounded
  · next different =>
    rw [Nat.le_zero,countP_eq_zero]
    intro entry member
    obtain ⟨sets,result,rfl,_⟩ := its entry member
    simpa [executes] using Ne.symm different
private theorem succeeded_calls (succeeded : Succeeded steps calls) :
    (∀ entry ∈ calls, ∃ step ∈ steps, ∃ sets result, entry = .executed step sets result) ∧
      ∀ step ∈ steps, ∃ sets, .executed step sets none ∈ calls := by
  induction succeeded with
  | nil => simp
  | @cons step rest first later tried others ih =>
    constructor
    · intro entry member
      rcases mem_append.mp member with here | there
      · obtain ⟨sets,result,is,_⟩ := (tried_calls tried).2 entry here
        exact ⟨step,mem_cons_self,sets,result,is⟩
      · obtain ⟨step',member',its⟩ := ih.1 entry there
        exact ⟨step',mem_cons_of_mem _ member',its⟩
    · intro step' member
      rcases mem_cons.mp member with rfl | there
      · cases tried with
        | @succeeded errors sets within => exact ⟨sets,by simp⟩
      · obtain ⟨sets,called⟩ := ih.2 step' there
        exact ⟨sets,mem_append_right _ called⟩
theorem succeeded_count (succeeded : Succeeded steps calls) (distinct : steps.Nodup) (step : Step) :
    calls.countP (executes step) ≤ if step ∈ steps then budget step else 0 := by
  induction succeeded with
  | nil => simp
  | @cons first rest calls later tried others ih =>
    obtain ⟨new,distinct⟩ := nodup_cons.mp distinct
    have here := tried_count tried step
    have there := ih distinct
    rw [countP_append]
    by_cases same : step = first
    · subst same
      rw [if_pos rfl] at here
      rw [if_neg new] at there
      rw [if_pos mem_cons_self]
      omega
    · rw [if_neg same] at here
      simp only [mem_cons,same,false_or]
      omega
private theorem undone_calls (undone : Undone steps calls) : ∀ entry ∈ calls, ∀ step, executes step entry = false := by
  induction undone with
  | nil => simp
  | skipped none_ others ih => exact ih
  | called has others ih =>
    intro entry member
    rcases mem_cons.mp member with rfl | there
    · exact fun _ => rfl
    · exact ih entry there
private theorem exhausted_calls (distinct : (before ++ [failed]).Nodup) (member : failed ∈ steps) (succeeded : Succeeded before calls)
    (exhausted : Tried failed (budget failed) calls' (some message))
    (compensations : ∀ entry ∈ calls'', ∀ step, executes step entry = false) : ¬ Succeeded steps (calls ++ calls' ++ calls'') ∧
      ∀ step, (calls ++ calls' ++ calls'').countP (executes step) ≤ budget step := by
  obtain ⟨distinct,_,apart⟩ := nodup_append.mp distinct
  have new : failed ∉ before := fun member => apart failed member failed (mem_singleton.mpr rfl) rfl
  constructor
  · intro all
    obtain ⟨sets,called⟩ := (succeeded_calls all).2 failed member
    rcases mem_append.mp called with earlier | later
    · rcases mem_append.mp earlier with earlier | tried
      · obtain ⟨step,member',_,_,is⟩ := (succeeded_calls succeeded).1 _ earlier
        injection is with same
        exact new (same ▸ member')
      · obtain ⟨_,result,is,fails⟩ := (tried_calls exhausted).2 _ tried
        injection is with _ _ none_
        exact fails (by simp) none_.symm
    · have not_ := compensations _ later failed
      simp [executes] at not_
  · intro step
    have none_ : calls''.countP (executes step) = 0 := by
      rw [countP_eq_zero]
      intro entry member
      simp [compensations entry member step]
    have first := succeeded_count succeeded distinct step
    have second := tried_count exhausted step
    rw [countP_append,countP_append]
    by_cases same : step = failed
    · subst same
      rw [if_neg new] at first
      rw [if_pos rfl] at second
      omega
    · rw [if_neg same] at second
      split at first <;> omega
private theorem ending_calls {old statuses : String → Option StepStatus} {status : SagaStatus} (distinct : steps.Nodup)
    (ending : Ending steps old calls status statuses) :
    (status = .completed ↔ Succeeded steps calls) ∧ ∀ step, calls.countP (executes step) ≤ budget step := by
  cases ending with
  | completed all =>
    refine ⟨by simp [all],fun step => Nat.le_trans (succeeded_count all distinct step) ?_⟩
    split <;> omega
  | @compensated before after failed _ _ _ _ is succeeded exhausted undone =>
    subst is
    have distinct' : (before ++ [failed]).Nodup := distinct.sublist (by simp)
    have member : failed ∈ before ++ failed :: after := by simp
    obtain ⟨never,bounded⟩ := exhausted_calls distinct' member succeeded exhausted (undone_calls undone)
    exact ⟨⟨fun is => (by cases is),fun all => absurd all never⟩,bounded⟩
  | @failed kept undone after stuck failed _ _ calls'' _ message' sets is succeeded exhausted later has =>
    subst is
    have distinct' : (kept ++ stuck :: undone ++ [failed]).Nodup := distinct.sublist (by simp)
    have compensations : ∀ entry ∈ calls'' ++ [.compensated stuck sets (some message')], ∀ step, executes step entry = false := by
      intro entry member
      rcases mem_append.mp member with earlier | last
      · exact undone_calls later entry earlier
      · obtain rfl := mem_singleton.mp last
        exact fun _ => rfl
    have member : failed ∈ kept ++ stuck :: undone ++ failed :: after := by simp
    obtain ⟨never,bounded⟩ := exhausted_calls distinct' member succeeded exhausted compensations
    exact ⟨⟨fun is => (by cases is),fun all => absurd all never⟩,bounded⟩
end

/-- With a store that does not fail and a context that is not cancelled, `Execute` returns for every saga with distinct
    keys. It refuses one without an ID or steps and calls nothing. Otherwise the saga ends in one of the ways above:
    completed exactly when every step succeeds within its budget, none is tried more often, and the store has its final
    status and what became of each step. -/
theorem execute_ending {handle : Surroundings Value Outside} (calm : Calm handle) (saga : Saga Value)
    (distinct : (saga.steps.map Step.key).Nodup) (w : World Value) (outside : Outside) :
    ∃ error saga' w' outside', eval handle (execute saga) (w,outside) = ((error,saga'),(w',outside')) ∧
      (saga.id = "" ∨ saga.steps = [] → error ≠ none ∧ saga' = saga ∧ w' = w ∧ outside' = outside) ∧
      (saga.id ≠ "" → saga.steps ≠ [] → ∃ calls statuses, Ending saga.steps (lastStatus w saga.id) calls saga'.status statuses ∧
        callsOf w' = calls.reverse ++ callsOf w ∧ lastStatus w' saga.id = statuses ∧ w'.sagas saga.id = some saga' ∧
        (error = none ↔ saga'.status = .completed) ∧ (saga'.status = .completed ↔ Succeeded saga.steps calls) ∧
        ∀ step, calls.countP (executes step) ≤ budget step) := by
  unfold execute
  by_cases noID : saga.id = ""
  · rw [if_pos noID]
    exact ⟨_,saga,w,outside,rfl,fun _ => ⟨by simp,rfl,rfl,rfl⟩,fun has => absurd noID has⟩
  · rw [if_neg noID]
    by_cases noSteps : saga.steps = []
    · rw [if_pos noSteps]
      exact ⟨_,saga,w,outside,rfl,fun _ => ⟨by simp,rfl,rfl,rfl⟩,fun _ has => absurd noSteps has⟩
    · rw [if_neg noSteps]
      obtain ⟨error,saga',w',outside',calls,statuses,ran,silent,ending,ended⟩ := finish_ended calm saga w outside distinct
      obtain ⟨completed,bounded⟩ := ending_calls distinct.of_map ending
      refine ⟨error,saga',w',outside',ran,?_,fun _ _ => ?_⟩
      · rintro (refused | refused)
        · exact absurd refused noID
        · exact absurd refused noSteps
      · exact ⟨calls,statuses,ending,ended.calls,ended.statuses,ended.saved,silent,completed,bounded⟩

/-- The step functions end as listed, one after the other. -/
def scripted : Functions Unit (List (Option String)) where
  clock _ := 0
  execute _ _ script := (script.headD none,[],script.tail)
  compensate _ _ script := (script.headD none,[],script.tail)
def shipment : Saga Unit where
  id := "saga-1"
  name := "shipment"
  status := .running
  context := []
  steps := [⟨"reserve",true,none⟩,⟨"charge",true,some ⟨2⟩⟩,⟨"ship",false,none⟩]
  createdAt := none
  updatedAt := none
/-- The charge succeeds the second time, the shipping fails, and so does the compensation of the first step. -/
def lostParcel : List (Option String) := [none,some "busy",none,some "down",none,some "gone"]
theorem execute_ending_lostParcel : ∃ saga' w' script calls statuses,
    eval (surround scripted) (execute shipment) (.empty,lostParcel) = ((some "down",saga'),(w',script)) ∧ saga'.status = .failed ∧
    Ending shipment.steps (fun _ => none) calls .failed statuses ∧ callsOf w' = calls.reverse ∧
    lastStatus w' "saga-1" = statuses ∧ w'.sagas "saga-1" = some saga' := by
  have seen : (eval (surround scripted) (execute shipment) (.empty,lostParcel)).1.1 = some "down" ∧
    (eval (surround scripted) (execute shipment) (.empty,lostParcel)).1.2.status = .failed := by decide +kernel
  obtain ⟨error,saga',w',script,ran,_,ends⟩ := execute_ending (calm_surround scripted) shipment (by decide) .empty lostParcel
  obtain ⟨calls,statuses,ending,called,recorded,saved,_⟩ := ends (by decide) (by decide)
  rw [ran] at seen ⊢
  obtain ⟨rfl,status⟩ := seen
  rw [status] at ending
  exact ⟨saga',w',script,calls,statuses,rfl,status,ending,by simpa [callsOf,World.empty] using called,recorded,saved⟩

end Stellabill.SagaOutcomes
