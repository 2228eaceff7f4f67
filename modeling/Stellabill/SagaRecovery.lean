import Stellabill.Sagas

/-!
What a saga does after a crash. The recorded results say which steps need not run again;
a rollback overwrites them, so a saga that is resumed after it began runs forward again.
-/
namespace Stellabill.SagaRecovery
open Keyed Transitions Program Sagas List

variable {Value : Type}

/-- The step is recorded as completed. -/
def Recorded (id : String) (w : World Value) (key : String) : Prop :=
  ∃ result ∈ w.results id, result.stepKey = key ∧ result.status = .completed

/-- A compensation was run, a step was recorded as compensated or skipped, or the saga became compensated or failed. -/
def rollsBack : Entry Value → Bool
  | .compensated .. => true
  | .recorded _ result _ took => took && (result.status = .compensated ∨ result.status = .compensationFailed)
  | .saved saga _ => saga.status = .compensated ∨ saga.status = .failed
  | _ => false
def NoRollback (w : World Value) : Prop := ∀ entry ∈ w.log, rollsBack entry = false
  deriving Decidable

/-- What an entry means for the store before a rollback: a step recorded completed still is, and a saga saved as ended
    has all steps recorded. -/
def Holds (id : String) (steps : List Step) (w : World Value) : Entry Value → Prop
  | .recorded sagaID result _ took => sagaID = id → took = true → result.status = .completed → Recorded id w result.stepKey
  | .saved saved _ => saved.status ≠ .running → ∀ step ∈ steps, Recorded id w step.key
  | _ => True
structure Consistent (id : String) (steps : List Step) (w : World Value) : Prop where
  stored : ∀ saga, w.sagas id = some saga → saga.id = id ∧ saga.steps = steps
  fresh : w.log = [] → ∀ key, ¬ Recorded id w key
  steady : NoRollback w → ∀ entry ∈ w.log, Holds id steps w entry

/-- The step may run: it was never recorded completed, nothing was compensated, and the saga was never saved as ended. -/
structure Forward (id : String) (w : World Value) (step : Step) : Prop where
  recorded : ∀ result error, .recorded id result error true ∈ w.log → result.status = .completed →
    result.stepKey ≠ step.key
  compensated : ∀ other sets error, .compensated other sets error ∉ w.log
  ended : ∀ saved reply, .saved saved reply ∈ w.log → saved.status = .running

section
variable {id : String} {steps : List Step} {w : World Value}

theorem forward_of_consistent {step : Step} (consistent : Consistent id steps w) (clean : NoRollback w)
    (member : step ∈ steps) (open_ : ¬ Recorded id w step.key) : Forward id w step := by
  have steady := consistent.steady clean
  refine ⟨?_,?_,?_⟩
  · intro result error logged completed same
    exact open_ (same ▸ steady _ logged rfl rfl completed)
  · intro other sets error logged
    cases clean _ logged
  · intro saved reply logged
    by_contra ended
    exact open_ (steady _ logged ended step member)

variable {entry : Entry Value} {reply : Reply} {result : StepResult}

theorem noRollback_logged (same : rollsBack entry = false) : NoRollback (w.logged entry) ↔ NoRollback w := by
  simp [NoRollback,World.logged,same]
theorem noRollback_save {saga : Saga Value} :
    NoRollback (w.save saga reply) ↔ saga.status ≠ .compensated ∧ saga.status ≠ .failed ∧ NoRollback w := by
  simp [NoRollback,World.save,rollsBack,and_assoc]
theorem noRollback_record : NoRollback (w.record id result reply) ↔ NoRollback w ∧ (w.records id reply = true →
      result.status ≠ .compensated ∧ result.status ≠ .compensationFailed) := by
  simp only [NoRollback,World.record,forall_mem_cons,rollsBack]
  cases w.records id reply <;> simp [and_comm]

theorem recorded_record {key : String} :
    Recorded id (w.record id result reply) key ↔
      if w.records id reply = true ∧ key = result.stepKey then result.status = .completed else Recorded id w key := by
  cases took : w.records id reply with
  | false => simp [Recorded,World.record,took]
  | true =>
    simp only [Recorded,World.record,took,if_true,Function.update_self,Table.mem_upsert]
    by_cases same : key = result.stepKey
    · simp only [same,and_self,if_true]
      constructor
      · rintro ⟨other,rfl | ⟨_,different⟩,equal,completed⟩
        · exact completed
        · exact absurd equal different
      · intro completed
        exact ⟨result,.inl rfl,rfl,completed⟩
    · simp only [same,and_false,if_false]
      constructor
      · rintro ⟨other,rfl | ⟨member,_⟩,equal,completed⟩
        · exact absurd equal.symm same
        · exact ⟨other,member,equal,completed⟩
      · rintro ⟨other,member,equal,completed⟩
        exact ⟨other,.inr ⟨member,by rw [equal]; exact same⟩,equal,completed⟩

variable {w' : World Value}

private theorem holds_mono (keeps : ∀ key, Recorded id w key → Recorded id w' key) (holds : Holds id steps w entry) :
    Holds id steps w' entry := by
  cases entry with
  | recorded sagaID result error took => exact fun same effective completed => keeps _ (holds same effective completed)
  | saved saved reply => exact fun ended step member => keeps _ (holds ended step member)
  | entered | executed | compensated => trivial
section
variable (consistent : Consistent id steps w)
include consistent
theorem consistent_cons (log : w'.log = entry :: w.log) (stored : ∀ saga, w'.sagas id = some saga → saga.id = id ∧ saga.steps = steps)
    (keeps : NoRollback w' → ∀ key, Recorded id w key → Recorded id w' key) (new : NoRollback w' → Holds id steps w' entry) :
    Consistent id steps w' := by
  refine ⟨stored,by simp [log],?_⟩
  intro clean other logged
  rw [log] at logged
  rcases mem_cons.mp logged with rfl | before
  · exact new clean
  · have earlier : NoRollback w := fun old member => clean old (by rw [log]; exact mem_cons_of_mem _ member)
    exact holds_mono (keeps clean) (consistent.steady earlier other before)
theorem consistent_entered : Consistent id steps (w.logged .entered) :=
  consistent_cons consistent rfl consistent.stored (fun _ _ kept => kept) (fun _ => trivial)
theorem consistent_executed (step : Step) (sets : Context Value) (error : Option String) :
    Consistent id steps (w.logged (.executed step sets error)) :=
  consistent_cons consistent rfl consistent.stored (fun _ _ kept => kept) (fun _ => trivial)
theorem consistent_compensated (step : Step) (sets : Context Value) (error : Option String) :
    Consistent id steps (w.logged (.compensated step sets error)) :=
  consistent_cons consistent rfl consistent.stored (fun _ _ kept => kept) (fun _ => trivial)
theorem consistent_save (saga : Saga Value) (same : saga.id = id ∧ saga.steps = steps)
    (complete : saga.status = .completed → ∀ step ∈ steps, Recorded id w step.key) (defined : saga.status ≠ .compensating)
    (reply : Reply) : Consistent id steps (w.save saga reply) := by
  refine consistent_cons consistent rfl ?_ (fun _ _ kept => kept) ?_
  · intro stored found
    cases effective : reply.effective with
    | false => exact consistent.stored stored (by simpa [World.save,effective] using found)
    | true =>
      have equal : saga = stored := by simpa [World.save,effective,same.1] using found
      exact equal ▸ same
  · intro clean ended
    obtain ⟨notCompensated,notFailed,_⟩ := noRollback_save.mp clean
    apply complete
    cases status : saga.status <;> simp_all
theorem consistent_record (open_ : ¬ Recorded id w result.stepKey) (reply : Reply) : Consistent id steps (w.record id result reply) := by
  refine consistent_cons consistent rfl consistent.stored ?_ ?_
  · intro _ key recorded
    rw [recorded_record,if_neg]
    · exact recorded
    · rintro ⟨_,rfl⟩
      exact open_ recorded
  · intro _ _ took completed
    rw [recorded_record,if_pos ⟨took,rfl⟩]
    exact completed
theorem consistent_record_rollback (rollback : result.status = .compensated ∨ result.status = .compensationFailed) (reply : Reply) :
    Consistent id steps (w.record id result reply) := by
  have untaken : NoRollback (w.record id result reply) → w.records id reply ≠ true := by
    intro clean took
    have forbidden := (noRollback_record.mp clean).2 took
    rcases rollback with same | same <;> simp [same] at forbidden
  refine consistent_cons consistent rfl consistent.stored ?_ ?_
  · intro clean key recorded
    rwa [recorded_record,if_neg (fun both => untaken clean both.1)]
  · intro clean _ took _
    exact absurd took (untaken clean)
end
end

/-! ### What the coordinator does -/

/-- The calls of a saga that recovers: forward only where the step may run. -/
def Guarded (id : String) (steps : List Step) (w : World Value) (c : Call Value) : Prop :=
  Consistent id steps w ∧ ∀ step context, c = .execute step context → Forward id w step
/-- While a step runs: it is not recorded, and the records of the others are those of the world `before`. -/
structure Running (id : String) (steps : List Step) (step : Step) (before w : World Value) : Prop where
  consistent : Consistent id steps w
  clean : NoRollback w
  others : ∀ key, key ≠ step.key → (Recorded id w key ↔ Recorded id before key)
  unrecorded : ¬ Recorded id w step.key
structure Went (id : String) (steps : List Step) (step : Step) (before : World Value) (error : Option String) (saga : Saga Value)
    (w : World Value) : Prop where
  same : saga.id = id ∧ saga.steps = steps
  consistent : Consistent id steps w
  clean : NoRollback w
  others : ∀ key, key ≠ step.key → (Recorded id w key ↔ Recorded id before key)
  recorded : error = none → Recorded id w step.key

section
variable {id : String} {steps : List Step} {step : Step} {before w : World Value}

theorem guarded_other (consistent : Consistent id steps w) {c : Call Value} (other : ∀ step context, c ≠ .execute step context) :
    Guarded id steps w c :=
  ⟨consistent,fun step context same => absurd same (other step context)⟩
private theorem guarded_execute (running : Running id steps step before w) (member : step ∈ steps) (context : Context Value) :
    Guarded id steps w (.execute step context) := by
  refine ⟨running.consistent,fun other _ same => ?_⟩
  cases same
  exact forward_of_consistent running.consistent running.clean member running.unrecorded
private theorem running_executed (running : Running id steps step before w) (sets : Context Value) (error : Option String) :
    Running id steps step before (w.logged (.executed step sets error)) :=
  ⟨consistent_executed running.consistent step sets error,(noRollback_logged rfl).mpr running.clean,running.others,
    running.unrecorded⟩

variable {result : StepResult} {saga : Saga Value}

section
variable (running : Running id steps step before w)
include running
theorem running_record (own : result.stepKey = step.key) (forward : result.status = .retrying ∨ result.status = .failed) (reply : Reply) :
    Running id steps step before (w.record id result reply) := by
  refine ⟨consistent_record running.consistent (by rw [own]; exact running.unrecorded) reply,
    noRollback_record.mpr ⟨running.clean,fun _ => ?_⟩,?_,?_⟩
  · rcases forward with same | same <;> simp [same]
  · intro key different
    rw [recorded_record,own,if_neg (fun both => different both.2)]
    exact running.others key different
  · rw [recorded_record]
    split
    · rcases forward with same | same <;> simp [same]
    · exact running.unrecorded
variable (same : saga.id = id ∧ saga.steps = steps)
include same
private theorem went_failed (message : String) : Went id steps step before (some message) saga w :=
  ⟨same,running.consistent,running.clean,running.others,by simp⟩
private theorem went_completed (own : result.stepKey = step.key) (completed : result.status = .completed) (reply : Reply) :
    Went id steps step before (w.recordError id reply) saga (w.record id result reply) := by
  refine ⟨same,consistent_record running.consistent (by rw [own]; exact running.unrecorded) reply,
    noRollback_record.mpr ⟨running.clean,fun _ => by simp [completed]⟩,?_,?_⟩
  · intro key different
    rw [recorded_record,own,if_neg (fun both => different both.2)]
    exact running.others key different
  · intro silent
    have found : (w.sagas id).isSome = true := by
      by_contra missing
      simp [World.recordError,missing] at silent
    have effective : reply.effective = true := Reply.effective_of_error (by simpa [World.recordError,found] using silent)
    rw [recorded_record,own,if_pos ⟨by simp [World.records,found,effective],rfl⟩]
    exact completed
private theorem attempt_went (member : step ∈ steps) (now : Time) (retries : Nat) :
    Safe perform (Guarded id steps) (fun (error,saga') w' => Went id steps step before error saga' w')
      (attempt saga step now retries) w := by
  induction saga, retries using attempt.induct step generalizing w with
  | case1 saga retries ih =>
    obtain ⟨rfl,sameSteps⟩ := same
    rw [attempt]
    refine safe_execute (guarded_execute running member _) (fun error sets => ?_)
    have executed := running_executed running sets error
    cases error with
    | none =>
      refine safe_storeSaveStepResult (guarded_other executed.consistent (by simp)) (fun reply => safe_pure ?_)
      exact went_completed executed (by exact ⟨rfl,sameSteps⟩) rfl rfl reply
    | some message =>
      dsimp only
      split
      · next again =>
        refine safe_storeSaveStepResult (guarded_other executed.consistent (by simp)) (fun reply => ?_)
        have retrying : Running saga.id steps step before ((w.logged (.executed step sets (some message))).record saga.id
            (executedResult { saga with context := sets ++ saga.context } step .retrying "" (retries+1) now) reply) :=
          running_record executed rfl (.inl rfl) reply
        split
        · exact safe_pure (went_failed retrying (by exact ⟨rfl,sameSteps⟩) _)
        · refine safe_waitDelay (guarded_other retrying.consistent (by simp)) (fun cancelled => ?_)
          cases cancelled with
          | some message => exact safe_pure (went_failed retrying (by exact ⟨rfl,sameSteps⟩) message)
          | none => exact ih (sets ++ saga.context) again retrying ⟨rfl,sameSteps⟩
      · refine safe_storeSaveStepResult (guarded_other executed.consistent (by simp)) (fun reply => safe_pure ?_)
        exact went_failed (running_record executed rfl (.inr rfl) reply) (by exact ⟨rfl,sameSteps⟩) message
end

variable (same : saga.id = id ∧ saga.steps = steps) (consistent : Consistent id steps w)
include same consistent

theorem runStep_went (member : step ∈ steps) (clean : NoRollback w) (unrecorded : ¬ Recorded id w step.key) :
    Safe perform (Guarded id steps) (fun (error,saga') w' => Went id steps step w error saga' w') (runStep saga step) w :=
  safe_timeNow (guarded_other consistent (by simp)) (fun now =>
    attempt_went ⟨consistent,clean,fun _ _ => Iff.rfl,unrecorded⟩ same member now 0)
private theorem compensateAll_consistent (passed : List Step) :
    Safe perform (Guarded id steps) (fun (_,saga') w' => (saga'.id = id ∧ saga'.steps = steps) ∧ Consistent id steps w')
      (compensateAll saga passed) w := by
  induction passed generalizing saga w with
  | nil => exact safe_pure ⟨same,consistent⟩
  | cons step rest ih =>
    obtain ⟨rfl,sameSteps⟩ := same
    refine safe_timeNow (guarded_other consistent (by simp)) (fun compAt => ?_)
    split
    · refine safe_compensate (guarded_other consistent (by simp)) (fun error sets => ?_)
      have compensated := consistent_compensated consistent step sets error
      cases error with
      | some message =>
        refine safe_storeSaveStepResult (guarded_other compensated (by simp)) (fun reply => safe_pure ⟨⟨rfl,sameSteps⟩,?_⟩)
        exact consistent_record_rollback compensated (.inr rfl) reply
      | none =>
        refine safe_storeSaveStepResult (guarded_other compensated (by simp)) (fun reply => ?_)
        exact ih ⟨rfl,sameSteps⟩ (consistent_record_rollback compensated (.inl rfl) reply)
    · refine safe_storeSaveStepResult (guarded_other consistent (by simp)) (fun reply => ?_)
      exact ih ⟨rfl,sameSteps⟩ (consistent_record_rollback consistent (.inl rfl) reply)
private theorem failAndCompensate_consistent (passed : List Step) :
    Safe perform (Guarded id steps) (fun _ w' => Consistent id steps w') (failAndCompensate saga passed) w := by
  refine safe_bind ((compensateAll_consistent same consistent passed).mono ?_)
  rintro ⟨compFailed,saga'⟩ w' ⟨same',consistent'⟩
  refine safe_bind (safe_save (guarded_other consistent' (by simp)) (fun _ => guarded_other consistent' (by simp))
    (fun now reply => safe_pure ?_))
  cases compFailed with
  | true | false => exact consistent_save consistent' _ (by exact same') (by simp) (by simp) reply

theorem runFrom_recorded (distinct : (steps.map Step.key).Nodup) (done : String → Bool) (rest passed : List Step)
    (split : steps = passed.reverse ++ rest) (clean : NoRollback w) (ahead : ∀ step ∈ rest, done step.key = true ↔ Recorded id w step.key)
    (behind : ∀ step ∈ passed, Recorded id w step.key) : Safe perform (Guarded id steps) (fun (error,saga') w' => Consistent id steps w' ∧
      (error = none → (saga'.id = id ∧ saga'.steps = steps) ∧ ∀ step ∈ steps, Recorded id w' step.key))
      (runFrom saga done passed rest) w := by
  -- Over the steps ahead; those behind are recorded as completed, skipped ones included.
  induction rest generalizing passed saga w with
  | nil =>
    refine safe_pure ⟨consistent,fun _ => ⟨same,fun step member => behind step ?_⟩⟩
    simpa [split] using member
  | cons step rest ih =>
    have member : step ∈ steps := by simp [split]
    rw [runFrom]
    cases skipped : done step.key with
    | true =>
      refine ih same consistent (step :: passed) (by simp [split]) clean (fun other inRest =>
        ahead other (mem_cons_of_mem _ inRest)) (fun other inPassed => ?_)
      rcases mem_cons.mp inPassed with rfl | earlier
      · exact (ahead other mem_cons_self).mp skipped
      · exact behind other earlier
    | false =>
      have unrecorded : ¬ Recorded id w step.key := fun recorded => by
        rw [(ahead step mem_cons_self).mpr recorded] at skipped
        cases skipped
      refine safe_bind ((runStep_went same consistent member clean unrecorded).mono ?_)
      rintro ⟨error,saga'⟩ w' went
      cases error with
      | some message =>
        refine safe_bind ((failAndCompensate_consistent went.same went.consistent passed).mono ?_)
        intro saga'' w'' consistent''
        exact safe_pure ⟨consistent'',by simp⟩
      | none =>
        have keys : step.key ∉ passed.map Step.key ∧ step.key ∉ rest.map Step.key := by
          rw [split,map_append,nodup_append] at distinct
          refine ⟨fun early => ?_,(nodup_cons.mp distinct.2.1).1⟩
          exact distinct.2.2 step.key (by simpa using early) step.key mem_cons_self rfl
        refine ih went.same went.consistent (step :: passed) (by simp [split]) went.clean ?_ ?_
        · intro other inRest
          have different : other.key ≠ step.key := fun equal => keys.2 (equal ▸ mem_map_of_mem inRest)
          rw [went.others other.key different]
          exact ahead other (mem_cons_of_mem _ inRest)
        · intro other inPassed
          rcases mem_cons.mp inPassed with rfl | earlier
          · exact went.recorded rfl
          · have different : other.key ≠ step.key := fun equal => keys.1 (equal ▸ mem_map_of_mem earlier)
            exact (went.others other.key different).mpr (behind other earlier)
theorem finish_consistent (distinct : (steps.map Step.key).Nodup) (done : String → Bool) (clean : NoRollback w)
    (matches_ : ∀ key, done key = true ↔ Recorded id w key) :
    Safe perform (Guarded id steps) (fun _ w' => Consistent id steps w') (finish saga done) w := by
  refine safe_bind (safe_begin (guarded_other consistent (by simp)) (fun _ => guarded_other consistent (by simp))
    (fun now reply => ?_))
  have begun_ : Consistent id steps (w.save (begun saga now) reply) :=
    consistent_save consistent _ (by exact same) (by simp [begun]) (by simp [begun]) reply
  have clean' : NoRollback (w.save (begun saga now) reply) := noRollback_save.mpr ⟨by simp [begun],by simp [begun],clean⟩
  cases reply.error with
  | some message => exact safe_pure begun_
  | none =>
    refine safe_bind ((runFrom_recorded (by exact same) begun_ distinct done _ [] same.2.symm clean' (fun step _ => matches_ step.key) (by simp)).mono ?_)
    rintro ⟨error,saga'⟩ w' ⟨consistent',complete⟩
    cases error with
    | some message => exact safe_pure consistent'
    | none =>
      obtain ⟨same',recorded⟩ := complete rfl
      exact safe_save (guarded_other consistent' (by simp)) (fun _ => guarded_other consistent' (by simp))
        (fun now reply => consistent_save consistent' _ (by exact same') (fun _ => recorded) (by simp) reply)
end

section
variable {id : String} {steps : List Step} {w : World Value}

theorem execute_consistent (saga : Saga Value) (distinct : (saga.steps.map Step.key).Nodup)
    (consistent : Consistent saga.id saga.steps w) (clean : NoRollback w) (new : ∀ key, ¬ Recorded saga.id w key) :
    Safe perform (Guarded saga.id saga.steps) (fun _ w' => Consistent saga.id saga.steps w') (execute saga) w := by
  rw [execute]
  split
  · exact safe_pure consistent
  · split
    · exact safe_pure consistent
    · exact finish_consistent ⟨rfl,rfl⟩ consistent distinct _ clean (fun key => by simp [new key])
theorem resume_consistent {constructor : Option (Saga Value → Except String (Saga Value))} (rebuilds : Rebuilds constructor steps)
    (distinct : (steps.map Step.key).Nodup) (consistent : Consistent id steps w) (clean : NoRollback w) :
    Safe perform (Guarded id steps) (fun _ w' => Consistent id steps w') (resume constructor id) w := by
  refine safe_storeLoad (guarded_other consistent (by simp)) (fun message => safe_pure consistent) ?_
  intro loaded results stored listed
  obtain ⟨same,sameSteps⟩ := consistent.stored loaded stored
  dsimp only
  split
  · exact safe_pure consistent
  · next saga built =>
    split
    · exact safe_pure consistent
    · obtain ⟨sameID,_,either⟩ := rebuilt rebuilds built
      have is : saga.id = id ∧ saga.steps = steps := ⟨sameID.trans same,either.elim (·.trans sameSteps) (fun equal => equal)⟩
      refine safe_bind ((finish_consistent is consistent distinct _ clean ?_).mono
        (fun _ w' consistent' => safe_pure consistent'))
      intro key
      rw [doneSteps_iff results ((listed.map StepResult.stepKey).nodup_iff.mpr (w.results id).unique)]
      simp only [listed.mem_iff]
      rfl
end

/-! ### The guarantee -/

def ResumesForward (m : Sessions Value) : Move Entering (Choice Value) → Prop
  | .start .resume => NoRollback m.world
  | _ => True

instance (m : Sessions Value) (move : Move Entering (Choice Value)) : Decidable (ResumesForward m move) := by
  unfold ResumesForward
  split <;> infer_instance

private theorem consistent_empty (id : String) (steps : List Step) : Consistent id steps (World.empty : World Value) := by
  refine ⟨by simp [World.empty],?_,?_⟩
  · rintro _ key ⟨result,member,_⟩
    exact Table.not_mem_empty result member
  · intro _ entry logged
    cases logged

variable {w : World Value}

private theorem enter_safe {constructor : Option (Saga Value → Except String (Saga Value))} {saga : Saga Value}
    (distinct : (saga.steps.map Step.key).Nodup) (rebuilds : Rebuilds constructor saga.steps) {w' : World Value} {entering : Entering}
    {p : Run Value (Option String)} (consistent : Consistent saga.id saga.steps w) (clean : entering = .resume → NoRollback w)
    (entered : enter constructor saga w entering = some (w',p)) :
    Safe perform (Guarded saga.id saga.steps) (fun _ w => Consistent saga.id saga.steps w) p w' := by
  cases entering with
  | execute =>
    simp only [enter] at entered
    split at entered
    · next isEmpty =>
      have empty : w.log = [] := isEmpty_iff.mp isEmpty
      cases entered
      have clean' : NoRollback w := by simp [NoRollback,empty]
      exact safe_bind ((execute_consistent saga distinct (consistent_entered consistent) ((noRollback_logged rfl).mpr clean')
        (consistent.fresh empty)).mono (fun _ w' consistent' => safe_pure consistent'))
    · cases entered
  | resume =>
    cases entered
    exact safe_bind ((resume_consistent rebuilds distinct (consistent_entered consistent)
      ((noRollback_logged rfl).mpr (clean rfl))).mono (fun _ w' consistent' => safe_pure consistent'))
private theorem interrupt_consistent {id : String} {steps : List Step} (consistent : Consistent id steps w) (c : Call Value) :
    Consistent id steps (interrupt w c) := by
  cases c with
  | execute step context => exact consistent_executed consistent step [] _
  | compensate step context => exact consistent_compensated consistent step [] _
  | now | save | saveStepResult | load | wait => exact consistent

/-- Whatever crashes, as long as a saga is resumed only before a rollback, no step runs that was recorded completed, and
    none after a compensation or the end of the saga. -/
theorem executes_forward (constructor : Option (Saga Value → Except String (Saga Value))) (saga : Saga Value)
    (distinct : (saga.steps.map Step.key).Nodup) (rebuilds : Rebuilds constructor saga.steps) {m : Sessions Value}
    (run : Reach (sessionMove constructor saga) ResumesForward noSession m) {step : Step} {context : Context Value}
    (executes : executing m = some (step,context)) : Forward saga.id m.world step := by
  have safe := Machine.safe (Consistent saga.id saga.steps) (fun w entering => entering = .resume → NoRollback w)
    (Guarded saga.id saga.steps) (fun _ w => Consistent saga.id saga.steps w)
    (fun _ _ guarded => guarded.1) (fun _ c guarded => interrupt_consistent guarded.1 c) (fun _ _ consistent => consistent)
    (fun m entering allowed resumes => by subst resumes; exact allowed)
    (fun w entering w' p consistent clean entered => enter_safe distinct rebuilds consistent clean entered)
    (consistent_empty saga.id saga.steps) rfl run
  obtain ⟨next,pending⟩ := executing_some executes
  exact (safe.2 _ pending).1.2 step context rfl

def twoSteps : Saga String where
  id := "saga-1"
  name := "cancel_subscription_with_refund"
  status := .running
  context := []
  steps := [⟨"cancel_subscription",true,none⟩,⟨"create_refund_statement",true,none⟩]
  createdAt := none
  updatedAt := none
def firstStep : List (Move Entering (Choice String)) :=
  [.start .execute,.answer (.time 1),.answer (.reply .done),.answer (.time 2),.answer (.function none []),.answer (.reply .done),
    .answer (.time 3)]
/-- The second step fails, the first is compensated, and the saga is resumed. -/
def resumedRollback : List (Move Entering (Choice String)) :=
  firstStep ++ [.answer (.function (some "refused") []),.answer (.reply .done),.answer (.time 4),
    .answer (.function none []),.answer (.reply .done),.answer (.time 5),.answer (.reply .done),.start .resume,
    .answer (.order [⟨"saga-1","create_refund_statement",.failed,"refused",some 3,none,0⟩,
      ⟨"saga-1","cancel_subscription",.compensated,"",none,some 4,0⟩]),
    .answer (.time 6),.answer (.reply .done),.answer (.time 7)]
theorem executes_again : ¬ ∀ (constructor : Option (Saga String → Except String (Saga String))) (saga : Saga String)
    (m : Sessions String) (step : Step) (context : Context String), (saga.steps.map Step.key).Nodup →
    Rebuilds constructor saga.steps → Reach (sessionMove constructor saga) Any noSession m →
    executing m = some (step,context) → Forward saga.id m.world step := by
  intro claim
  obtain ⟨m,ran,executes,compensated⟩ := run_seen (sessionMove none twoSteps) noSession resumedRollback
    (fun m => executing m = some (⟨"cancel_subscription",true,none⟩,[]) ∧
      .compensated ⟨"cancel_subscription",true,none⟩ [] none ∈ m.world.log) (by decide +kernel)
  have forward := claim none twoSteps m _ _ (by decide) (by simp [Rebuilds]) (run_any ran) executes
  exact forward.compensated _ _ _ compensated
def resumedForward : List (Move Entering (Choice String)) :=
  firstStep ++ [.crash,.start .resume,.answer (.order [⟨"saga-1","cancel_subscription",.completed,"",some 2,none,0⟩]),
    .answer (.time 4),.answer (.reply .done),.answer (.time 5)]
theorem executes_forward_resumed : ∃ m, Reach (sessionMove none twoSteps) ResumesForward noSession m ∧
    Forward "saga-1" m.world ⟨"create_refund_statement",true,none⟩ :=
  exists_reach resumedForward (fun m => executing m = some (⟨"create_refund_statement",true,none⟩,[])) (by decide +kernel)
    (by decide +kernel) (fun _ reached executes => executes_forward none twoSteps (by decide) (by simp [Rebuilds]) reached executes)

end Stellabill.SagaRecovery
