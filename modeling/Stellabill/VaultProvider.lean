import Mathlib.Logic.Function.Basic
import Stellabill.Transitions

/-!
Concurrent calls of `GetSecret` for one key. A call that finds no fresh entry in the cache joins the
request in flight, or makes one under its own context.
-/
namespace Stellabill.VaultProvider
open Transitions Function

inductive Result
  | value (value : String) | providerTimeout | failed (message : String)
  deriving DecidableEq

structure CacheEntry where
  value : String
  expiresAt : Time

/-- Where a call stands: not begun, in `fetchAndCache`, with a request of its own, with its answer, waiting for another
    call's request, or returned. -/
inductive Phase
  | absent | fetching | leading | fetched (result : Result) | joined (leader : Nat) | returned (result : Result)
  deriving DecidableEq

structure State where
  now : Time
  cache : Option CacheEntry
  inflight : Option Nat
  calls : Nat → Phase
  cancelled : Nat → Bool

def init : State := ⟨0,none,none,fun _ => .absent,fun _ => false⟩
def ttl : Time := 300000000000

/-- The steps of the calls; time passes, and contexts end. A request without an answer is one whose context has ended. -/
inductive Action
  | advance (elapsed : Nat)
  | cancel (call : Nat)
  | getSecret (call : Nat)
  | refreshSecret (call : Nat)
  | lock (call : Nat)
  | respond (call : Nat) (answer : Option (Except String String))
  | record (call : Nat)
  | receive (call : Nat)
  | leave (call : Nat)

section
variable (s : State)
def State.goto (call : Nat) (phase : Phase) : State := { s with calls := update s.calls call phase }

def fetchFromVault (answer : Option (Except String String)) : Result :=
  match answer with
  | none => .providerTimeout
  | some (.error message) => .failed message
  | some (.ok value) => .value value

def step : Action → Option State
  | .advance elapsed => some { s with now := s.now+elapsed }
  | .cancel call => some { s with cancelled := update s.cancelled call true }
  | .getSecret call =>
    match s.calls call, s.cache.filter (fun entry => s.now < entry.expiresAt) with
    | .absent, some entry => some (s.goto call (.returned (.value entry.value)))
    | .absent, none => some (s.goto call .fetching)
    | _, _ => none
  | .refreshSecret call => if s.calls call = .absent then some (s.goto call .fetching) else none
  | .lock call =>
    match s.calls call, s.inflight with
    | .fetching, some leader => some (s.goto call (.joined leader))
    | .fetching, none => some ({ s with inflight := some call }.goto call .leading)
    | _, _ => none
  | .respond call answer =>
    if s.calls call = .leading ∧ (answer = none → s.cancelled call = true) then some (s.goto call (.fetched (fetchFromVault answer))) else none
  | .record call =>
    match s.calls call with
    | .fetched result => some ({ s with
        inflight := none
        cache := match result with
          | .value value => some ⟨value,s.now+ttl⟩
          | .providerTimeout | .failed _ => s.cache }.goto call (.returned result))
    | _ => none
  | .receive call =>
    match s.calls call with
    | .joined leader =>
      match s.calls leader with
      | .returned result => some (s.goto call (.returned result))
      | _ => none
    | _ => none
  | .leave call =>
    match s.calls call with
    | .joined _ => if s.cancelled call then some (s.goto call (.returned .providerTimeout)) else none
    | _ => none

/-- A call that has timed out is one whose own context has ended. -/
def Independent : Prop := ∀ call, s.calls call = .returned .providerTimeout → s.cancelled call = true
/-- The context of a call that makes the request does not end before the result is recorded. -/
def Spared : Action → Prop
  | .cancel call => s.inflight ≠ some call
  | .lock call => s.inflight = none → s.cancelled call = false
  | _ => True
instance (a : Action) : Decidable (Spared s a) := by
  unfold Spared
  split <;> infer_instance

/-- A call that others may have joined has not timed out. -/
def Led (phase : Phase) : Prop := phase = .leading ∨ ∃ result, result ≠ .providerTimeout ∧ (phase = .fetched result ∨ phase = .returned result)
def Stands (call : Nat) : Phase → Prop
  | .absent | .fetching => True
  | .leading | .fetched _ => s.inflight = some call
  | .joined leader => Led (s.calls leader)
  | .returned result => result = .providerTimeout → s.cancelled call = true
/-- The call that makes the request is in the table until its result is recorded, and its context goes on. -/
structure Fits : Prop where
  led : ∀ call, s.inflight = some call → Led (s.calls call) ∧ s.cancelled call = false
  stands : ∀ call, Stands s call (s.calls call)
end

variable {s t : State} {a : Action} {call : Nat} {phase : Phase} {inflight : Option Nat} {cache : Option CacheEntry}

section
variable (fits : Fits s)
include fits
theorem led_fetched {answer : Option (Except String String)}
    (asked : s.calls call = .leading ∧ (answer = none → s.cancelled call = true)) : fetchFromVault answer ≠ .providerTimeout := by
  have going := (fits.led call (by simpa [Stands,asked.1] using fits.stands call)).2
  rcases answer with _ | _ | _
  · simp [going] at asked
  · simp [fetchFromVault]
  · simp [fetchFromVault]
/-- A step moves one call, and those that have joined it can still do so. -/
theorem fits_goto (others : ∀ c, c ≠ call → (inflight = some c ↔ s.inflight = some c)) (stays : Led (s.calls call) → Led phase)
    (own : inflight = some call → Led phase ∧ s.cancelled call = false) (stands : Stands { s with inflight } call phase) :
    Fits ({ s with inflight, cache }.goto call phase) := by
  have joined : ∀ leader, Led (s.calls leader) → Led (update s.calls call phase leader) := by
    intro leader led
    by_cases same : leader = call
    · subst same
      simpa using stays led
    · rwa [update_of_ne same]
  constructor
  · intro c its
    by_cases same : c = call
    · subst same
      simpa [State.goto] using own its
    · have before := fits.led c ((others c same).mp its)
      exact ⟨joined c before.1,before.2⟩
  · refine (forall_update_iff s.calls (Stands _)).mpr ⟨?_,fun c other => ?_⟩
    · cases phase <;> first | exact stands | exact joined _ stands
    · have before := fits.stands c
      cases at_ : s.calls c <;> rw [at_] at before
      case leading | fetched => exact (others c other).mpr before
      case joined leader => exact joined leader before
      all_goals exact before
private theorem fits_move (stays : Led (s.calls call) → Led phase) (stands : Stands s call phase) : Fits (s.goto call phase) :=
  fits_goto fits (fun _ _ => Iff.rfl) stays (fun its => ⟨stays (fits.led call its).1,(fits.led call its).2⟩) stands
theorem fits_step (spared : Spared s a) (stepped : step s a = some t) : Fits t := by
  cases a with
  | advance elapsed => cases stepped; exact ⟨fits.led,fits.stands⟩
  | cancel call =>
    cases stepped
    refine ⟨fun c its => ⟨(fits.led c its).1,?_⟩,fun c => ?_⟩
    · have other : c ≠ call := by rintro rfl; exact spared its
      exact (update_of_ne other ..).trans (fits.led c its).2
    · have before := fits.stands c
      cases at_ : s.calls c <;> rw [at_] at before
      case returned result => exact fun late => by simp [update_apply,before late]
      all_goals exact before
  | getSecret call =>
    simp only [step] at stepped
    split at stepped <;> cases stepped
    · next at_ _ => exact fits_move fits (by simp [at_,Led]) nofun
    · next at_ _ => exact fits_move fits (by simp [at_,Led]) trivial
  | refreshSecret call =>
    obtain ⟨at_,rfl⟩ := guarded stepped
    exact fits_move fits (by simp [at_,Led]) trivial
  | lock call =>
    simp only [step] at stepped
    split at stepped <;> cases stepped
    · next leader at_ its => exact fits_move fits (by simp [at_,Led]) (fits.led leader its).1
    · next at_ free =>
      refine fits_goto fits (fun c other => ?_) (by simp [at_,Led]) (fun _ => ⟨.inl rfl,spared free⟩) rfl
      simp [free,Ne.symm other]
  | respond call answer =>
    obtain ⟨asked,rfl⟩ := guarded stepped
    refine fits_move fits (fun _ => .inr ⟨_,led_fetched fits asked,.inl rfl⟩) ?_
    simpa [Stands,asked.1] using fits.stands call
  | record call =>
    simp only [step] at stepped
    split at stepped <;> cases stepped
    next result at_ =>
      have its : s.inflight = some call := by simpa [Stands,at_] using fits.stands call
      have timely : result ≠ .providerTimeout := by simpa [at_,Led] using (fits.led call its).1
      refine fits_goto fits (fun c other => ?_) (fun _ => .inr ⟨result,timely,.inr rfl⟩) nofun (fun late => absurd late timely)
      simp [its,Ne.symm other]
  | receive call =>
    simp only [step] at stepped
    split at stepped <;> try cases stepped
    next leader at_ =>
      split at stepped <;> cases stepped
      next result ended =>
        have led : Led (s.calls leader) := by simpa [Stands,at_] using fits.stands call
        have timely : result ≠ .providerTimeout := by simpa [ended,Led] using led
        exact fits_move fits (by simp [at_,Led]) (fun late => absurd late timely)
  | leave call =>
    simp only [step] at stepped
    split at stepped <;> try cases stepped
    next at_ =>
      obtain ⟨ended,rfl⟩ := guarded stepped
      exact fits_move fits (by simp [at_,Led]) (fun _ => ended)
end

/-- Where the contexts of the requests do not end before their results, a call times out for its own context only. -/
theorem callers_independent (run : Reach step Spared init s) : Independent s := by
  have start : Fits init := ⟨nofun,fun _ => trivial⟩
  have fits : Fits s := run.invariant start (fun fits => fits_step fits)
  intro call ended
  have own := fits.stands call
  rw [ended] at own
  exact own rfl
theorem callers_independent_left : ∃ s, Reach step Spared init s ∧
    (s.calls 1 = .returned .providerTimeout ∧ s.calls 2 = .returned (.value "secret")) ∧ Independent s :=
  reach_seen [.getSecret 0,.getSecret 1,.getSecret 2,.lock 0,.lock 1,.lock 2,.cancel 1,.leave 1,
    .respond 0 (some (.ok "secret")),.record 0,.receive 2] (by decide +kernel) (by decide +kernel) (fun _ run _ => callers_independent run)
/-- The context of the call that makes the request ends, and the call that has joined it times out. -/
theorem joined_timed_out : ¬ ∀ s, Reach step Any init s → Independent s := by
  intro independent
  obtain ⟨s,ran,ended,open_⟩ := run_seen step init [.getSecret 0,.getSecret 1,.lock 0,.lock 1,.cancel 0,.respond 0 none,.record 0,.receive 1]
    (fun s => s.calls 1 = .returned .providerTimeout ∧ s.cancelled 1 = false) (by decide +kernel)
  simp [independent s (run_any ran) 1 ended] at open_

/-- The call has a request of its own. -/
def Phase.leads : Phase → Bool
  | .leading | .fetched _ => true
  | _ => false
def Phase.ended : Phase → Bool
  | .returned _ => true
  | _ => false
/-- The request in the table is the only one, and a call that has joined one waits for it or can read its result. -/
def Shared (s : State) : Prop :=
  ∀ call, ((s.calls call).leads = true ↔ s.inflight = some call) ∧
    ∀ leader, s.calls call = .joined leader → s.inflight = some leader ∨ (s.calls leader).ended = true

section
variable (shared : Shared s)
include shared
/-- A step moves one call, and a call that has left the table can be read. -/
theorem shared_goto (others : ∀ c, c ≠ call → (inflight = some c ↔ s.inflight = some c)) (own : phase.leads = true ↔ inflight = some call)
    (joins : ∀ leader, phase = .joined leader → inflight = some leader)
    (left : s.inflight = some call ∨ (s.calls call).ended = true → inflight = some call ∨ phase.ended = true) :
    Shared ({ s with inflight, cache }.goto call phase) := by
  intro c
  by_cases same : c = call
  · subst same
    simp only [State.goto,update_self]
    exact ⟨own,fun leader waits => .inl (joins leader waits)⟩
  · simp only [State.goto,update_of_ne same]
    refine ⟨(shared c).1.trans (others c same).symm,fun leader waits => ?_⟩
    have before := (shared c).2 leader waits
    by_cases his : leader = call
    · subst his
      rw [update_self]
      exact left before
    · rw [update_of_ne his]
      exact before.imp_left (others leader his).mpr
theorem shared_move (leads : phase.leads = (s.calls call).leads) (joins : ∀ leader, phase = .joined leader → s.inflight = some leader)
    (unread : (s.calls call).ended = false) : Shared (s.goto call phase) := by
  refine shared_goto shared (fun _ _ => Iff.rfl) ?_ joins (fun before => .inl (before.resolve_right (by simp [unread])))
  rw [leads]
  exact (shared call).1
private theorem shared_step (stepped : step s a = some t) : Shared t := by
  cases a with
  | advance | cancel => cases stepped; exact shared
  | getSecret call =>
    simp only [step] at stepped
    split at stepped <;> cases stepped
    all_goals next at_ _ => exact shared_move shared (by rw [at_]; rfl) nofun (by rw [at_]; rfl)
  | refreshSecret call =>
    obtain ⟨at_,rfl⟩ := guarded stepped
    exact shared_move shared (by rw [at_]; rfl) nofun (by rw [at_]; rfl)
  | lock call =>
    simp only [step] at stepped
    split at stepped <;> cases stepped
    · next at_ its => exact shared_move shared (by rw [at_]; rfl) (by rintro _ ⟨⟩; exact its) (by rw [at_]; rfl)
    · next at_ free =>
      refine shared_goto shared (fun c other => ?_) (by simp [Phase.leads]) nofun (fun _ => .inl rfl)
      simp [free,Ne.symm other]
  | respond call answer =>
    obtain ⟨⟨at_,_⟩,rfl⟩ := guarded stepped
    exact shared_move shared (by rw [at_]; rfl) nofun (by rw [at_]; rfl)
  | record call =>
    simp only [step] at stepped
    split at stepped <;> cases stepped
    next at_ =>
      have its : s.inflight = some call := (shared call).1.mp (by rw [at_]; rfl)
      refine shared_goto shared (fun c other => ?_) (by simp [Phase.leads]) nofun (fun _ => .inr rfl)
      simp [its,Ne.symm other]
  | receive call =>
    simp only [step] at stepped
    split at stepped <;> try cases stepped
    next at_ =>
      split at stepped <;> cases stepped
      exact shared_move shared (by rw [at_]; rfl) nofun (by rw [at_]; rfl)
  | leave call =>
    simp only [step] at stepped
    split at stepped <;> try cases stepped
    next at_ =>
      obtain ⟨_,rfl⟩ := guarded stepped
      exact shared_move shared (by rw [at_]; rfl) nofun (by rw [at_]; rfl)
end

/-- Whichever contexts end, there is at most one request, and no call waits for a result that does not come. -/
theorem requests_shared (run : Reach step Any init s) : Shared s :=
  run.invariant (fun _ => by simp [Phase.leads,init]) fun shared _ stepped => shared_step shared stepped
theorem requests_shared_joined : ∃ s, Reach step Any init s ∧ (s.calls 0 = .leading ∧ s.calls 1 = .joined 0) ∧ Shared s :=
  reach_seen [.getSecret 0,.getSecret 1,.lock 0,.lock 1] (by decide) (along_any ..) (fun _ run _ => requests_shared run)

end Stellabill.VaultProvider
