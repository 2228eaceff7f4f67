import Stellabill.SagaRecovery

/-!
What becomes of the context of a saga. The steps set its entries in memory; the store gets
them only at the beginning and at the end of a call of the coordinator, while a step is
recorded as completed in between.
-/
namespace Stellabill.SagaContext
open Keyed Transitions Program Sagas SagaRecovery

variable {Value : Type}

def stepWrites (key : String) : List (Entry Value) → Context Value
  | [] | .entered :: _ => []
  | .executed step sets _ :: rest => if step.key = key then sets ++ stepWrites key rest else stepWrites key rest
  | _ :: rest => stepWrites key rest
def completes (id key : String) : Entry Value → Bool
  | .recorded sagaID result _ took => took && (sagaID = id ∧ result.stepKey = key ∧ result.status = .completed)
  | _ => false
def saves (id : String) : Entry Value → Bool
  | .saved saga reply => saga.id = id ∧ reply.effective = true
  | _ => false
/-- What the step had set when it was last recorded completed. -/
def completedWrites (id key : String) : List (Entry Value) → Context Value
  | [] => []
  | entry :: rest => if completes id key entry then stepWrites key rest else completedWrites id key rest
/-- The part of it that was set after the saga was last saved. -/
def unsavedWrites (id key : String) : List (Entry Value) → Context Value
  | [] => []
  | entry :: rest =>
    if completes id key entry then stepWrites key rest
    else if saves id entry then [] else unsavedWrites id key rest

/-- The context has everything the steps recorded as completed have set. -/
def Carries (id : String) (w : World Value) (context : Context Value) : Prop :=
  ∀ key, Recorded id w key → completedWrites id key w.log ⊆ context

/-- What the store does not have in the saved context was set after the saga was last saved. -/
structure Kept (id : String) (w : World Value) : Prop where
  stored : ∀ saga, w.sagas id = some saga → saga.id = id
  fresh : w.log = [] → ∀ key, ¬ Recorded id w key
  writes : ∀ key, Recorded id w key → ∀ entry ∈ completedWrites id key w.log,
    entry ∈ unsavedWrites id key w.log ∨ ∃ saga, w.sagas id = some saga ∧ entry ∈ saga.context
/-- The invariant of a session with the context it has in memory. -/
structure Carrying (id : String) (w : World Value) (context : Context Value) : Prop where
  kept : Kept id w
  carries : Carries id w context
  session : ∀ key, stepWrites key w.log ⊆ context

section
variable {id : String} {w : World Value} {context : Context Value}

theorem carrying_called (carrying : Carrying id w context) {step : Step} {sets : Context Value} {error : Option String} {entry : Entry Value}
    (called : entry = .executed step sets error ∨ entry = .compensated step sets error) : Carrying id (w.logged entry) (sets ++ context) := by
  have before key := List.Subset.trans (carrying.session key) (List.subset_append_right sets context)
  have recorded key had := List.Subset.trans (carrying.carries key had) (List.subset_append_right sets context)
  rcases called with rfl | rfl
  · refine ⟨⟨carrying.kept.stored,by simp [World.logged],carrying.kept.writes⟩,recorded,fun key => ?_⟩
    simp only [World.logged,stepWrites]
    split
    · exact List.append_subset.mpr ⟨List.subset_append_left ..,before key⟩
    · exact before key
  · exact ⟨⟨carrying.kept.stored,by simp [World.logged],carrying.kept.writes⟩,recorded,before⟩
theorem recorded_after {result : StepResult} {reply : Reply} {key : String} (recorded : Recorded id (w.record id result reply) key) :
    completes id key (.recorded id result (w.recordError id reply) (w.records id reply) : Entry Value) = true ∨ Recorded id w key := by
  rw [recorded_record] at recorded
  split at recorded
  · next hit => exact .inl (by simp [completes,hit.1,hit.2,recorded])
  · exact .inr recorded
theorem carrying_record (carrying : Carrying id w context) (result : StepResult) (reply : Reply) :
    Carrying id (w.record id result reply) context := by
  have old : ∀ key, Recorded id (w.record id result reply) key →
      ¬ completes id key (.recorded id result (w.recordError id reply) (w.records id reply) : Entry Value) = true →
      Recorded id w key := fun key recorded miss => (recorded_after recorded).resolve_left miss
  refine ⟨⟨carrying.kept.stored,by simp [World.record],?_⟩,?_,carrying.session⟩
  · intro key recorded entry member
    simp only [World.record,completedWrites,unsavedWrites] at member ⊢
    split at member
    · next hit => rw [if_pos hit]; exact .inl member
    · next miss =>
      rw [if_neg miss]
      exact carrying.kept.writes key (old key recorded miss) entry member
  · intro key recorded
    simp only [World.record,completedWrites]
    split
    · exact carrying.session key
    · next miss => exact carrying.carries key (old key recorded miss)
theorem carrying_save (saga : Saga Value) (carrying : Carrying id w saga.context) (same : saga.id = id) (reply : Reply) :
    Carrying id (w.save saga reply) saga.context := by
  refine ⟨⟨?_,by simp [World.save],?_⟩,carrying.carries,carrying.session⟩
  · intro stored found
    cases effective : reply.effective with
    | false => exact carrying.kept.stored stored (by simpa [World.save,effective] using found)
    | true =>
      have equal : saga = stored := by simpa [World.save,effective,same] using found
      exact equal ▸ same
  · intro key recorded entry member
    cases effective : reply.effective with
    | false =>
      have before := carrying.kept.writes key recorded entry member
      simpa [World.save,unsavedWrites,completes,saves,effective] using before
    | true =>
      refine .inr ⟨saga,by simp [World.save,effective,same],carrying.carries key recorded member⟩
theorem kept_interrupt (kept : Kept id w) (c : Call Value) : Kept id (interrupt w c) := by
  cases c with
  | execute | compensate => exact ⟨kept.stored,by simp [interrupt,World.logged],kept.writes⟩
  | now | save | saveStepResult | load | wait => exact kept
theorem kept_empty (id : String) : Kept id (World.empty : World Value) := by
  refine ⟨by simp [World.empty],?_,?_⟩
  · rintro _ key ⟨result,member,_⟩
    exact Table.not_mem_empty result member
  · rintro key _ entry member
    cases member
end

def Guarded (id : String) (w : World Value) (c : Call Value) : Prop :=
  Kept id w ∧ ∀ step context, c = .execute step context ∨ c = .compensate step context → Carries id w context
/-- A coordinator function ends with the saga and its context carried. -/
def Ends (id : String) (saga : Saga Value) (w : World Value) : Prop := saga.id = id ∧ Carrying id w saga.context

section
variable {id : String} {w : World Value} {saga : Saga Value} (ends : Ends id saga w)
include ends

theorem guarded_other {c : Call Value}
    (other : ∀ step context, c ≠ .execute step context ∧ c ≠ .compensate step context) : Guarded id w c := by
  refine ⟨ends.2.kept,?_⟩
  rintro step context (same | same)
  · exact absurd same (other step context).1
  · exact absurd same (other step context).2
theorem guarded_function (step : Step) : Guarded id w (.execute step saga.context) ∧ Guarded id w (.compensate step saga.context) := by
  refine ⟨⟨ends.2.kept,?_⟩,⟨ends.2.kept,?_⟩⟩
  · rintro other context (same | same) <;> cases same
    exact ends.2.carries
  · rintro other context (same | same) <;> cases same
    exact ends.2.carries
private theorem attempt_ends (step : Step) (now : Time) (retries : Nat) :
    Safe perform (Guarded id) (fun (_,saga') w' => Ends id saga' w') (attempt saga step now retries) w := by
  induction saga, retries using attempt.induct step generalizing w with
  | case1 saga retries ih =>
    obtain ⟨rfl,carrying⟩ := ends
    rw [attempt]
    refine safe_execute (guarded_function ⟨rfl,carrying⟩ step).1 (fun error sets => ?_)
    have executed : Ends saga.id { saga with context := sets ++ saga.context } (w.logged (.executed step sets error)) :=
      ⟨rfl,carrying_called carrying (.inl rfl)⟩
    cases error with
    | none =>
      refine safe_storeSaveStepResult (guarded_other executed (by simp)) (fun reply => safe_pure ?_)
      exact ⟨rfl,carrying_record executed.2 _ reply⟩
    | some message =>
      dsimp only
      split
      · next again =>
        refine safe_storeSaveStepResult (guarded_other executed (by simp)) (fun reply => ?_)
        have retrying : Ends saga.id { saga with context := sets ++ saga.context }
            ((w.logged (.executed step sets (some message))).record saga.id
              (executedResult { saga with context := sets ++ saga.context } step .retrying "" (retries+1) now) reply) :=
          ⟨rfl,carrying_record executed.2 _ reply⟩
        split
        · exact safe_pure retrying
        · refine safe_waitDelay (guarded_other retrying (by simp)) (fun cancelled => ?_)
          cases cancelled with
          | some message => exact safe_pure retrying
          | none => exact ih (sets ++ saga.context) again retrying
      · refine safe_storeSaveStepResult (guarded_other executed (by simp)) (fun reply => safe_pure ?_)
        exact ⟨rfl,carrying_record executed.2 _ reply⟩
theorem runStep_ends (step : Step) : Safe perform (Guarded id) (fun (_,saga') w' => Ends id saga' w') (runStep saga step) w :=
  safe_timeNow (guarded_other ends (by simp)) (fun now => attempt_ends ends step now 0)
private theorem compensateAll_ends (passed : List Step) :
    Safe perform (Guarded id) (fun (_,saga') w' => Ends id saga' w') (compensateAll saga passed) w := by
  induction passed generalizing saga w with
  | nil => exact safe_pure ends
  | cons step rest ih =>
    obtain ⟨rfl,carrying⟩ := ends
    refine safe_timeNow (guarded_other ⟨rfl,carrying⟩ (by simp)) (fun compAt => ?_)
    split
    · refine safe_compensate (guarded_function ⟨rfl,carrying⟩ step).2 (fun error sets => ?_)
      have compensated : Ends saga.id { saga with context := sets ++ saga.context } (w.logged (.compensated step sets error)) :=
        ⟨rfl,carrying_called carrying (.inr rfl)⟩
      cases error with
      | some message =>
        refine safe_storeSaveStepResult (guarded_other compensated (by simp)) (fun reply => safe_pure ?_)
        exact ⟨rfl,carrying_record compensated.2 _ reply⟩
      | none =>
        refine safe_storeSaveStepResult (guarded_other compensated (by simp)) (fun reply => ?_)
        exact ih ⟨rfl,carrying_record compensated.2 _ reply⟩
    · refine safe_storeSaveStepResult (guarded_other ⟨rfl,carrying⟩ (by simp)) (fun reply => ?_)
      exact ih ⟨rfl,carrying_record carrying _ reply⟩
theorem save_ends : Safe perform (Guarded id) (fun (_,saga') w' => Ends id saga' w') (save saga) w :=
  safe_save (guarded_other ends (by simp)) (fun _ => guarded_other ends (by simp))
    (fun now reply => ⟨ends.1,carrying_save _ (by exact ends.2) (by exact ends.1) reply⟩)
private theorem failAndCompensate_ends (passed : List Step) :
    Safe perform (Guarded id) (fun saga' w' => Ends id saga' w') (failAndCompensate saga passed) w := by
  refine safe_bind ((compensateAll_ends ends passed).mono ?_)
  rintro ⟨compFailed,saga'⟩ w' ends'
  refine safe_bind ((save_ends (by exact ends')).mono ?_)
  rintro ⟨_,saga''⟩ w'' ends''
  exact safe_pure ends''
private theorem runFrom_ends (done : String → Bool) (rest passed : List Step) :
    Safe perform (Guarded id) (fun (_,saga') w' => Ends id saga' w') (runFrom saga done passed rest) w := by
  induction rest generalizing passed saga w with
  | nil => exact safe_pure ends
  | cons step rest ih =>
    rw [runFrom]
    split
    · exact ih ends (step :: passed)
    · refine safe_bind ((runStep_ends ends step).mono ?_)
      rintro ⟨error,saga'⟩ w' ends'
      cases error with
      | none => exact ih ends' (step :: passed)
      | some message =>
        refine safe_bind ((failAndCompensate_ends ends' passed).mono ?_)
        intro saga'' w'' ends''
        exact safe_pure ends''
theorem finish_ends (done : String → Bool) : Safe perform (Guarded id) (fun _ w' => Kept id w') (finish saga done) w := by
  refine safe_bind (safe_begin (guarded_other ends (by simp)) (fun _ => guarded_other ends (by simp)) (fun now reply => ?_))
  have begun_ : Ends id (begun saga now) (w.save (begun saga now) reply) :=
    ⟨ends.1,carrying_save _ (by exact ends.2) (by exact ends.1) reply⟩
  cases reply.error with
  | some message => exact safe_pure begun_.2.kept
  | none =>
    refine safe_bind ((runFrom_ends begun_ done _ []).mono ?_)
    rintro ⟨error,saga'⟩ w' ends'
    cases error with
    | some message => exact safe_pure ends'.2.kept
    | none => exact (save_ends (by exact ends')).mono (fun _ w' ends' => ends'.2.kept)
end

/-! ### The guarantee -/

/-- A saga is resumed only when it has been saved since its recorded steps set anything. -/
def ResumesSaved (id : String) (m : Sessions Value) : Move Entering (Choice Value) → Prop
  | .start .resume => ∀ result ∈ (m.world.results id).rows, result.status = .completed →
    unsavedWrites id result.stepKey m.world.log = []
  | _ => True

instance [DecidableEq Value] (id : String) (m : Sessions Value) (move : Move Entering (Choice Value)) :
    Decidable (ResumesSaved id m move) := by
  rcases move with (_ | _) | _ | _ <;> unfold ResumesSaved <;> infer_instance

variable {w : World Value} {constructor : Option (Saga Value → Except String (Saga Value))}

theorem execute_kept (saga : Saga Value) (ends : Ends saga.id saga w) :
    Safe perform (Guarded saga.id) (fun _ w' => Kept saga.id w') (execute saga) w := by
  rw [execute]
  split
  · exact safe_pure ends.2.kept
  · split
    · exact safe_pure ends.2.kept
    · exact finish_ends ends _
private theorem resume_kept {steps : List Step} {id : String} (rebuilds : Rebuilds constructor steps) (kept : Kept id w)
    (new : ∀ key, stepWrites key w.log = []) (saved : ∀ key, Recorded id w key → unsavedWrites id key w.log = []) :
    Safe perform (Guarded id) (fun _ w' => Kept id w') (resume constructor id) w := by
  refine safe_storeLoad ⟨kept,by simp⟩ (fun message => safe_pure kept) ?_
  intro loaded results stored listed
  dsimp only
  split
  · exact safe_pure kept
  · next saga built =>
    split
    · exact safe_pure kept
    · obtain ⟨sameID,sameContext,_⟩ := rebuilt rebuilds built
      have carries : Carries id w saga.context := by
        intro key recorded entry member
        rcases kept.writes key recorded entry member with unsaved | ⟨found,here,carried⟩
        · rw [saved key recorded] at unsaved
          cases unsaved
        · rw [stored] at here
          cases here
          exact sameContext ▸ carried
      have ends : Ends id saga w := ⟨sameID.trans (kept.stored loaded stored),kept,carries,fun key => by simp [new key]⟩
      exact safe_bind ((finish_ends ends _).mono (fun _ w' kept' => safe_pure kept'))
private theorem enter_kept {saga : Saga Value} (rebuilds : Rebuilds constructor saga.steps) {w' : World Value} {entering : Entering}
    {p : Run Value (Option String)} (kept : Kept saga.id w)
    (saved : entering = .resume → ∀ key, Recorded saga.id w key → unsavedWrites saga.id key w.log = [])
    (entered : enter constructor saga w entering = some (w',p)) : Safe perform (Guarded saga.id) (fun _ w => Kept saga.id w) p w' := by
  have kept' : Kept saga.id (w.logged .entered) := ⟨kept.stored,by simp [World.logged],kept.writes⟩
  cases entering with
  | execute =>
    simp only [enter] at entered
    split at entered <;> cases entered
    next isEmpty =>
    have ends : Ends saga.id saga (w.logged .entered) :=
      ⟨rfl,kept',fun key recorded => absurd recorded (kept.fresh (List.isEmpty_iff.mp isEmpty) key),
        fun key => by simp [World.logged,stepWrites]⟩
    exact safe_bind ((execute_kept saga ends).mono (fun _ w' kept' => safe_pure kept'))
  | resume =>
    cases entered
    exact safe_bind ((resume_kept rebuilds kept' (fun key => by simp [World.logged,stepWrites]) (saved rfl)).mono
      (fun _ w' kept' => safe_pure kept'))

/-- The first step is recorded, the second is cut off; resumed, the second fails, and the first is to be compensated. -/
def contextLost : List (Move Entering (Choice String)) :=
  [.start .execute,.answer (.time 1),.answer (.reply .done),.answer (.time 2),
    .answer (.function none [("previous_status","active")]),.answer (.reply .done),.answer (.time 3),.crash,.start .resume,
    .answer (.order [⟨"saga-1","cancel_subscription",.completed,"",some 2,none,0⟩]),
    .answer (.time 4),.answer (.reply .done),.answer (.time 5),.answer (.function (some "refused") []),.answer (.reply .done),
    .answer (.time 6)]
/-- The first step sets an entry and the second fails, so that the first is to be compensated. -/
def contextKept : List (Move Entering (Choice String)) :=
  [.start .execute,.answer (.time 1),.answer (.reply .done),.answer (.time 2),
    .answer (.function none [("previous_status","active")]),.answer (.reply .done),.answer (.time 3),
    .answer (.function (some "refused") []),.answer (.reply .done),.answer (.time 4)]
end Stellabill.SagaContext
