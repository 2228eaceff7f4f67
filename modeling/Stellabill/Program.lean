import Stellabill.Transitions

/-!
Programs that call their surroundings, and what can be said of all their runs. The
surroundings answer a call in any of several ways; which one is a choice outside of the
program. A session runs a program call by call and may be cut off at any call.
-/
namespace Stellabill.Program
open Transitions
universe u v

/-- A call to a store took effect; it did not; or it did and its answer got lost. The caller sees an error in the last two cases. -/
inductive Reply
  | done | failed (message : String) | lost (message : String)
  deriving DecidableEq, Repr

def Reply.effective : Reply → Bool
  | .failed _ => false
  | _ => true
def Reply.error : Reply → Option String
  | .done => none
  | .failed message | .lost message => some message
theorem Reply.effective_of_error {reply : Reply} (silent : reply.error = none) : reply.effective = true := by
  cases reply with
  | done => rfl
  | failed message => cases silent
  | lost message => rfl

/-- A program that makes calls and ends with a value. -/
inductive Prog (Call : Type u) (Answer : Call → Type u) (Value : Type u)
  | done (value : Value)
  | call (c : Call) (next : Answer c → Prog Call Answer Value)

section
variable {Call : Type u} {Answer : Call → Type u} {Value Value' : Type u}

namespace Prog

def bind : Prog Call Answer Value → (Value → Prog Call Answer Value') → Prog Call Answer Value'
  | .done value, f => f value
  | .call c next, f => .call c (fun answer => (next answer).bind f)

instance : Monad (Prog Call Answer) where
  pure := done
  bind := bind

end Prog

def call (c : Call) : Prog Call Answer (Answer c) := .call c .done

def eval {World : Type v} (handle : World → (c : Call) → Answer c × World) : Prog Call Answer Value → World → Value × World
  | .done value, w => (value,w)
  | .call c next, w => eval handle (next (handle w c).1) (handle w c).2
theorem eval_call {World : Type v} (handle : World → (c : Call) → Answer c × World) (c : Call)
    (f : Answer c → Prog Call Answer Value) (w : World) :
    eval handle (call c >>= f) w = eval handle (f (handle w c).1) (handle w c).2 := rfl
theorem eval_bind {World : Type v} (handle : World → (c : Call) → Answer c × World) (p : Prog Call Answer Value)
    (f : Value → Prog Call Answer Value') (w : World) :
    eval handle (p >>= f) w = eval handle (f (eval handle p w).1) (eval handle p w).2 := by
  induction p generalizing w with
  | done value => rfl
  | call c next ih => exact ih (handle w c).1 (handle w c).2

variable {World : Type v} {Choice : Type v}
variable (perform : World → (c : Call) → Choice → Option (Answer c × World))

def answer (w : World) (choice : Choice) : Prog Call Answer Value → Option (World × Prog Call Answer Value)
  | .done _ => none
  | .call c next => (perform w c choice).map (fun (answer,w') => (w',next answer))
def answers : World → List Choice → Prog Call Answer Value → Option (World × Prog Call Answer Value)
  | w, [], p => some (w,p)
  | w, choice :: rest, p => (answer perform w choice p).bind (fun (w',p') => answers w' rest p')

/-- From `w` the program makes only calls that meet `guard`, however they are answered, and ends with `post`. -/
def Safe (guard : World → Call → Prop) (post : Value → World → Prop) : Prog Call Answer Value → World → Prop
  | .done value, w => post value w
  | .call c next, w => guard w c ∧ ∀ choice answer w', perform w c choice = some (answer,w') → Safe guard post (next answer) w'

variable {perform}
variable {guard : World → Call → Prop} {post post' : Value → World → Prop} {w w' : World} {value : Value} {p p' : Prog Call Answer Value}
  {f : Value → Prog Call Answer Value'} {choice : Choice} {w₁ : World}

theorem safe_pure (holds : post value w) : Safe perform guard post (pure value : Prog Call Answer Value) w := holds
private theorem safe_call {c : Call} {post : Answer c → World → Prop} (guarded : guard w c)
    (ends : ∀ choice answer w', perform w c choice = some (answer,w') → post answer w') :
    Safe perform guard post (call c) w := ⟨guarded,ends⟩
theorem Safe.mono (safe : Safe perform guard post p w) (weaker : ∀ value w, post value w → post' value w) : Safe perform guard post' p w := by
  induction p generalizing w with
  | done value => exact weaker value w safe
  | call c next ih => exact ⟨safe.1,fun choice answer w' performed => ih answer (safe.2 choice answer w' performed)⟩
/-- A program followed by another: the first ends where the second is safe. -/
theorem safe_bind {post : Value' → World → Prop} (safe : Safe perform guard (fun value w => Safe perform guard post (f value) w) p w) :
    Safe perform guard post (p >>= f) w := by
  induction p generalizing w with
  | done value => exact safe
  | call c next ih => exact ⟨safe.1,fun choice answer w' performed => ih answer (safe.2 choice answer w' performed)⟩
theorem safe_call_bind {c : Call} {f : Answer c → Prog Call Answer Value'} {post : Value' → World → Prop} (guarded : guard w c)
    (ends : ∀ choice answer w', perform w c choice = some (answer,w') → Safe perform guard post (f answer) w') :
    Safe perform guard post (call c >>= f) w := safe_bind (safe_call guarded ends)
theorem safe_answer (safe : Safe perform guard post p w) (answered : answer perform w choice p = some (w',p')) : Safe perform guard post p' w' := by
  cases p with
  | done value => cases answered
  | call c next =>
    obtain ⟨⟨reply,w₁⟩,performed,same⟩ := Option.map_eq_some_iff.mp answered
    cases same
    exact safe.2 choice reply w' performed
theorem safe_answers {choices : List Choice} (safe : Safe perform guard post p w) (answered : answers perform w choices p = some (w',p')) :
    Safe perform guard post p' w' := by
  induction choices generalizing w p with
  | nil => cases answered; exact safe
  | cons choice rest ih =>
    obtain ⟨⟨w₁,p₁⟩,first,later⟩ := Option.bind_eq_some_iff.mp answered
    exact ih (safe_answer safe first) later
/-- Some answers bring the program to its end. -/
def Ends (perform : World → (c : Call) → Choice → Option (Answer c × World)) (p : Prog Call Answer Value) (w : World) (value : Value)
    (w' : World) : Prop :=
  ∃ choices, answers perform w choices p = some (w',.done value)
theorem ends_pure : Ends perform (pure value : Prog Call Answer Value) w value w := ⟨[],rfl⟩
theorem ends_call_bind {c : Call} {f : Answer c → Prog Call Answer Value} {reply : Answer c}
    (performed : perform w c choice = some (reply,w₁)) (later : Ends perform (f reply) w₁ value w') : Ends perform (call c >>= f) w value w' := by
  obtain ⟨choices,ran⟩ := later
  refine ⟨choice :: choices,Option.bind_eq_some_iff.mpr ⟨(w₁,f reply),?_,ran⟩⟩
  exact Option.map_eq_some_iff.mpr ⟨(reply,w₁),performed,rfl⟩
theorem Ends.bind {value' : Value'} (first : Ends perform p w value w₁) (second : Ends perform (f value) w₁ value' w') :
    Ends perform (p >>= f) w value' w' := by
  obtain ⟨choices,ran⟩ := first
  induction choices generalizing w p with
  | nil => cases ran; exact second
  | cons choice rest ih =>
    obtain ⟨⟨w₂,p₂⟩,answered,later⟩ := Option.bind_eq_some_iff.mp ran
    cases p with
    | done value => cases answered
    | call c next =>
      obtain ⟨⟨reply,w₃⟩,performed,same⟩ := Option.map_eq_some_iff.mp answered
      cases same
      exact ends_call_bind performed (ih later)
theorem answers_seen (perform : World → (c : Call) → Choice → Option (Answer c × World)) (w : World) (choices : List Choice)
    (p : Prog Call Answer Value) (seen : Value → World → Prop) [∀ value w, Decidable (seen value w)]
    (ran : (answers perform w choices p).any (fun (w',p') =>
      match p' with
      | .done value => decide (seen value w')
      | .call .. => false) = true) :
    ∃ value w', answers perform w choices p = some (w',.done value) ∧ seen value w' := by
  obtain ⟨⟨w',p'⟩,reached,shows_⟩ := (Option.any_eq_true ..).mp ran
  cases p' with
  | done value => exact ⟨value,w',reached,by simpa using shows_⟩
  | call c next => simp at shows_
end

/-! ### Sessions -/

section
variable {Call : Type u} {Answer : Call → Type u} {Value : Type u} {World : Type v} {Choice : Type v} {Entry : Type v}

/-- What the surroundings keep, and the program of the session that is going on. -/
structure Machine (Call : Type u) (Answer : Call → Type u) (Value : Type u) (World : Type v) where
  world : World
  session : Option (Prog Call Answer Value)

/-- A session starts, goes on by one call, or is cut off. -/
inductive Move (Entry : Type v) (Choice : Type v)
  | start (entry : Entry) | answer (choice : Choice) | crash

/-- No session, or one that has ended. -/
def Machine.idle : Option (Prog Call Answer Value) → Bool
  | none | some (.done _) => true
  | some (.call ..) => false

variable (perform : World → (c : Call) → Choice → Option (Answer c × World))
variable (enter : World → Entry → Option (World × Prog Call Answer Value)) (interrupt : World → Call → World)

/-- One move. A session starts only when no other goes on; `interrupt` is what a call that is cut off leaves behind. -/
def Machine.move (m : Machine Call Answer Value World) : Move Entry Choice → Option (Machine Call Answer Value World)
  | .start entry =>
    if Machine.idle m.session then (enter m.world entry).map (fun (w,p) => ⟨w,some p⟩) else none
  | .answer choice =>
    match m.session with
    | none => none
    | some p => (Program.answer perform m.world choice p).map (fun (w,p) => ⟨w,some p⟩)
  | .crash =>
    match m.session with
    | some (.call c _) => some ⟨interrupt m.world c,none⟩
    | _ => none

variable {perform enter interrupt}
variable {ok : Machine Call Answer Value World → Move Entry Choice → Prop}

theorem Safe.kept {inv : World → Prop} {guard : World → Call → Prop} {post : Value → World → Prop} {w : World}
    {p : Prog Call Answer Value} (guarded : ∀ w c, guard w c → inv w)
    (ended : ∀ value w, post value w → inv w) (safe : Safe perform guard post p w) : inv w := by
  cases p with
  | done value => exact ended value w safe
  | call c next => exact guarded w c safe.1
/-- When every session is safe from the invariant, it holds in every state reached and the present session is safe. -/
theorem Machine.safe (inv : World → Prop) (okEntry : World → Entry → Prop) (guard : World → Call → Prop)
    (post : Value → World → Prop) (guarded : ∀ w c, guard w c → inv w) (cut : ∀ w c, guard w c → inv (interrupt w c))
    (ended : ∀ value w, post value w → inv w) (allowed : ∀ m entry, ok m (.start entry) → okEntry m.world entry)
    (enters : ∀ w entry w' p, inv w → okEntry w entry → enter w entry = some (w',p) → Safe perform guard post p w')
    {start m : Machine Call Answer Value World} (base : inv start.world) (fresh : start.session = none)
    (run : Reach (Machine.move perform enter interrupt) ok start m) :
    inv m.world ∧ ∀ p, m.session = some p → Safe perform guard post p m.world := by
  refine run.invariant (I := fun m => inv m.world ∧ ∀ p, m.session = some p → Safe perform guard post p m.world)
    ⟨base,by simp [fresh]⟩ ?_
  intro m move m' ⟨holds,safe⟩ meets moved
  cases move with
  | start entry =>
    simp only [Machine.move] at moved
    split at moved
    · obtain ⟨⟨w,p⟩,entered,rfl⟩ := Option.map_eq_some_iff.mp moved
      have started := enters m.world entry w p holds (allowed m entry meets) entered
      refine ⟨started.kept guarded ended,?_⟩
      rintro p' same
      cases same
      exact started
    · cases moved
  | answer choice =>
    simp only [Machine.move] at moved
    split at moved
    · cases moved
    · next p current =>
      obtain ⟨⟨w,p'⟩,answered,rfl⟩ := Option.map_eq_some_iff.mp moved
      have later := safe_answer (safe p current) answered
      refine ⟨later.kept guarded ended,?_⟩
      rintro p'' same
      cases same
      exact later
  | crash =>
    simp only [Machine.move] at moved
    split at moved <;> cases moved
    next c next current =>
    exact ⟨cut m.world c (safe _ current).1,by simp⟩
end

end Stellabill.Program
