import Mathlib.Logic.Relation

/-!
Runs of a system that takes one atomic step at a time. A step is a partial
function of the state and an action; everything the system does not control is part of
the action. A run may be restricted to steps that meet a condition on the state before
the step: the guarantees of this development are about every state such steps reach.
-/
namespace Stellabill.Transitions
universe u v

/-- Instants of a clock, in nanoseconds. -/
abbrev Time := Int

theorem le_later (now : Time) (elapsed : Nat) : now ≤ now+elapsed := Int.le_add_of_nonneg_right (Int.natCast_nonneg elapsed)

theorem le_until {at_ now : Time} : at_ ≤ now+((at_-now).toNat : Nat) := by
  have enough := Int.self_le_toNat (at_-now)
  exact Int.le_add_of_sub_left_le enough

variable {State : Type u} {Action : Type v} {step : State → Action → Option State}
  {ok ok' : State → Action → Prop} {init s t : State}

/-- A step that is taken under a condition only. -/
theorem guarded {c : Prop} [Decidable c] (taken : (if c then some s else none) = some t) : c ∧ s = t := by
  simpa using taken

/-- The states reached from `init` by steps that meet `ok` in the state before them. -/
inductive Reach (step : State → Action → Option State) (ok : State → Action → Prop) (init : State) : State → Prop
  | start : Reach step ok init init
  | next {s t : State} {a : Action} : Reach step ok init s → ok s a → step s a = some t → Reach step ok init t

/-- No condition on the steps. -/
def Any (_ : State) (_ : Action) : Prop := True

/-- What holds at the start and is kept by every allowed step holds in every state reached. -/
theorem Reach.invariant {I : State → Prop} (base : I init)
    (kept : ∀ {s a t}, I s → ok s a → step s a = some t → I t) (run : Reach step ok init s) : I s := by
  induction run with
  | start => exact base
  | next _ allowed stepped ih => exact kept ih allowed stepped
theorem Reach.trans (first : Reach step ok init s) (second : Reach step ok s t) : Reach step ok init t := by
  induction second with
  | start => exact first
  | next _ allowed stepped ih => exact ih.next allowed stepped
theorem Reach.mono (weaker : ∀ s a, ok s a → ok' s a) (run : Reach step ok init s) : Reach step ok' init s := by
  induction run with
  | start => exact .start
  | next _ allowed stepped ih => exact ih.next (weaker _ _ allowed) stepped

/-- The state after a list of actions, when each of them can be taken. -/
def run (step : State → Action → Option State) : State → List Action → Option State
  | s, [] => some s
  | s, a :: rest => (step s a).bind (fun t => run step t rest)
/-- Every step of the list of actions meets `ok` in the state it is taken in. -/
def Along (step : State → Action → Option State) (ok : State → Action → Prop) : State → List Action → Prop
  | _, [] => True
  | s, a :: rest => ok s a ∧ match step s a with
    | none => True
    | some t => Along step ok t rest

instance decidableAlong [∀ s a, Decidable (ok s a)] : ∀ (s : State) (actions : List Action),
    Decidable (Along step ok s actions)
  | _, [] => .isTrue trivial
  | s, a :: rest =>
    let later : Decidable (match step s a with
        | none => True
        | some t => Along step ok t rest) :=
      match step s a with
      | none => .isTrue trivial
      | some t => decidableAlong t rest
    @instDecidableAnd _ _ _ later

variable {a : Action} {rest actions : List Action}

theorem run_cons (ran : run step s (a :: rest) = some t) : ∃ next, step s a = some next ∧ run step next rest = some t := by
  simpa [run,Option.bind_eq_some_iff] using ran
theorem along_cons (stepped : step s a = some t) : Along step ok s (a :: rest) ↔ ok s a ∧ Along step ok t rest := by
  simp [Along,stepped]
theorem along_append {first second : List Action} (along : Along step ok s (first ++ second)) : Along step ok s first := by
  induction first generalizing s with
  | nil => trivial
  | cons a rest ih =>
    cases stepped : step s a with
    | none => simpa [Along,stepped] using along
    | some t =>
      rw [List.cons_append,along_cons stepped] at along
      exact (along_cons stepped).mpr ⟨along.1,ih along.2⟩
theorem run_reach (ran : run step s actions = some t) (along : Along step ok s actions) : Reach step ok s t := by
  induction actions generalizing s with
  | nil => cases ran; exact .start
  | cons a rest ih =>
    obtain ⟨next,stepped,ran⟩ := run_cons ran
    obtain ⟨allowed,later⟩ := (along_cons stepped).mp along
    exact (Reach.start.next allowed stepped).trans (ih ran later)
theorem along_any (s : State) (actions : List Action) : Along step Any s actions := by
  induction actions generalizing s with
  | nil => trivial
  | cons a rest ih =>
    cases stepped : step s a with
    | none => simp [Along,Any,stepped]
    | some t => exact (along_cons stepped).mpr ⟨trivial,ih t⟩
/-- Conditions that agree where `I` holds, which steps that meet them keep, allow the same lists of actions. -/
theorem along_congr {I : State → Prop} (base : I s) (same : ∀ {s a}, I s → (ok s a ↔ ok' s a))
    (kept : ∀ {s a t}, I s → ok' s a → step s a = some t → I t) (actions : List Action) :
    Along step ok s actions ↔ Along step ok' s actions := by
  induction actions generalizing s with
  | nil => exact Iff.rfl
  | cons a rest ih =>
    cases stepped : step s a with
    | none => simp [Along,stepped,same base]
    | some t =>
      rw [along_cons stepped,along_cons stepped,same base]
      exact and_congr_right (fun allowed => ih (kept base allowed stepped))
theorem run_any (ran : run step s actions = some t) : Reach step Any s t := run_reach ran (along_any s actions)
/-- A list of actions that can be taken, with what is seen in the state it ends in. -/
theorem run_seen (step : State → Action → Option State) (s : State) (actions : List Action) (seen : State → Prop)
    [DecidablePred seen] (ran : (run step s actions).any seen = true) : ∃ t, run step s actions = some t ∧ seen t := by
  obtain ⟨t,reached,shows⟩ := (Option.any_eq_true ..).mp ran
  exact ⟨t,reached,by simpa using shows⟩

/-- A list of actions whose steps meet the condition, and what follows from the state it ends in. -/
theorem exists_reach {holds : State → Prop} (actions : List Action) (seen : State → Prop) [DecidablePred seen]
    (ran : (run step s actions).any seen = true) (along : Along step ok s actions)
    (shows : ∀ t, Reach step ok s t → seen t → holds t) : ∃ t, Reach step ok s t ∧ holds t := by
  obtain ⟨t,reached,there⟩ := run_seen step s actions seen ran
  have run := run_reach reached along
  exact ⟨t,run,shows t run there⟩
theorem reach_seen {seen holds : State → Prop} [DecidablePred seen] (actions : List Action)
    (ran : (run step s actions).any seen = true) (along : Along step ok s actions)
    (shows : ∀ t, Reach step ok s t → seen t → holds t) : ∃ t, Reach step ok s t ∧ seen t ∧ holds t :=
  exists_reach actions seen ran along (fun t run there => ⟨there,shows t run there⟩)

end Stellabill.Transitions
