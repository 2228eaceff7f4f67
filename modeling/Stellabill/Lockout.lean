import Mathlib.Algebra.Order.Ring.Int
import Mathlib.Tactic.Ring
import Stellabill.Calendar

/-!
The lockout of admin logins. The failures of a source and an account are counted in the
entry that says how long the pair is locked, which is deleted once that time is over.
-/
namespace Stellabill.Lockout
open Transitions Calendar

structure Pair where
  source : String
  account : String
  deriving DecidableEq
structure Entry where
  attempts : Nat
  lockedAt : Time
  lockoutFor : Int
structure Config where
  baseLockout : Int := second
  maxLockout : Int := 15*60*second
  cleanupEvery : Int := 60*second
/-- The clock moves on, or a call of the tracker; `RecordFailure` looks at the clock twice, `d` apart. -/
inductive Action
  | wait (d : Nat)
  | isLocked (p : Pair)
  | recordFailure (p : Pair) (d : Nat)
  | reset (p : Pair)
structure State where
  now : Time
  entries : String → Option Entry
  lastCleanup : Time
  log : List Action
def start (now : Time) : State := ⟨now,fun _ => none,now,[]⟩

def lockoutKey (p : Pair) : String := p.source ++ "|" ++ p.account
def Entry.expired (now : Time) (e : Entry) : Bool := e.lockedAt+e.lockoutFor < now
section
variable (cfg : Config)
def cleanupLocked (s : State) : State :=
  if s.now-s.lastCleanup < cfg.cleanupEvery then s
  else { s with lastCleanup := s.now, entries := fun k => (s.entries k).filter (!·.expired s.now) }
/-- The loop of `RecordFailure`, with the doublings that are left. -/
def doubled (cfg : Config) : Nat → Int → Int
  | 0, duration => duration
  | n+1, duration => if int64 (duration*2) ≥ cfg.maxLockout then cfg.maxLockout else doubled cfg n (int64 (duration*2))
def attempts (s : State) (p : Pair) : Nat := (s.entries (lockoutKey p)).elim 0 Entry.attempts
def recordFailure (s : State) (p : Pair) (d : Nat) : State :=
  let s := cleanupLocked cfg s
  { s with
    now := s.now+d
    entries := Function.update s.entries (lockoutKey p) (some ⟨attempts s p+1,s.now+d,doubled cfg (attempts s p) cfg.baseLockout⟩) }
def reset (s : State) (p : Pair) : State := { s with entries := Function.update s.entries (lockoutKey p) none }
def isLocked (s : State) (p : Pair) : Bool × State :=
  match s.entries (lockoutKey p) with
  | none => (false,s)
  | some e => if s.now < e.lockedAt+e.lockoutFor then (true,s) else (false,if e.expired s.now then reset s p else s)
def step (s : State) (a : Action) : Option State :=
  let t := match a with
    | .wait d => { s with now := s.now+d }
    | .isLocked p => (isLocked s p).2
    | .recordFailure p d => recordFailure cfg s p d
    | .reset p => reset s p
  some { t with log := a :: s.log }
/-- The calls of `Login`, with what it finds. -/
def login (p : Pair) (locked valid : Bool) (d : Nat) : List Action :=
  .isLocked p :: if locked then [] else if valid then [.reset p] else [.recordFailure p d]

/-- The failures of the pair since its last success or `Reset`. -/
def failures (p : Pair) : List Action → Nat
  | [] => 0
  | .recordFailure q _ :: rest => failures p rest+(if q = p then 1 else 0)
  | .reset q :: rest => if q = p then 0 else failures p rest
  | .wait _ :: rest | .isLocked _ :: rest => failures p rest
/-- Other pairs have other keys, and the entry of the pair has not expired when it is looked at. -/
def Kept (p : Pair) (s : State) : Action → Prop
  | .wait _ => True
  | .isLocked q => (lockoutKey q = lockoutKey p → q = p) ∧ (q = p → ∀ e ∈ s.entries (lockoutKey p), e.expired s.now = false)
  | .recordFailure q _ => (lockoutKey q = lockoutKey p → q = p) ∧
      (cfg.cleanupEvery ≤ s.now-s.lastCleanup → ∀ e ∈ s.entries (lockoutKey p), e.expired s.now = false)
  | .reset q => lockoutKey q = lockoutKey p → q = p
instance (p : Pair) (s : State) (a : Action) : Decidable (Kept cfg p s a) := by
  unfold Kept
  split <;> infer_instance
end

variable {cfg : Config} {p : Pair} {s t : State} {a : Action}

private theorem doubled_eq (fits : cfg.maxLockout < 2^62) (n : Nat) {d : Int} (positive : 0 < d) (below : d ≤ cfg.maxLockout) :
    doubled cfg n d = min (d*2^n) cfg.maxLockout := by
  induction n generalizing d with
  | zero => simp [doubled,below]
  | succ n ih =>
    have whole : int64 (d*2) = d*2 := int64_of_fits ⟨by omega,by omega⟩
    rw [doubled,whole,show d*2^(n+1) = d*2*2^n by ring]
    split
    · next reached => exact (min_eq_right (reached.trans (le_mul_of_one_le_right (by omega) (one_le_pow₀ (by decide))))).symm
    · exact ih (by omega) (by omega)

theorem cleanup_kept (kept : cfg.cleanupEvery ≤ s.now-s.lastCleanup → ∀ e ∈ s.entries (lockoutKey p), e.expired s.now = false) :
    (cleanupLocked cfg s).entries (lockoutKey p) = s.entries (lockoutKey p) := by
  unfold cleanupLocked
  split
  · rfl
  · next due =>
    cases held : s.entries (lockoutKey p) with
    | none => simp [held]
    | some e => simp [held,kept (not_lt.mp due) e held]
theorem attempts_reset (q : Pair) (own : lockoutKey q = lockoutKey p → q = p) : attempts (reset s q) p = if q = p then 0 else attempts s p := by
  by_cases same : lockoutKey p = lockoutKey q
  · simp [attempts,reset,same,own same.symm]
  · simp [attempts,reset,same,show q ≠ p from fun equal => same (by rw [equal])]

/-- The entry counts the failures of the pair. -/
theorem attempts_step (counts : attempts s p = failures p s.log) (kept : Kept cfg p s a) (stepped : step cfg s a = some t) :
    attempts t p = failures p t.log := by
  cases stepped
  cases a with
  | wait d => exact counts
  | isLocked q =>
    change attempts (isLocked s q).2 p = _
    rw [failures,← counts]
    fun_cases isLocked s q
    · rfl
    · rfl
    · next e held _ =>
      split
      · next past =>
        have other : q ≠ p := fun own => by simp_all [kept.2 own e (own ▸ held)]
        rw [attempts_reset q kept.1,if_neg other]
      · rfl
  | recordFailure q d =>
    rw [failures,← counts]
    by_cases same : lockoutKey p = lockoutKey q
    · obtain rfl := kept.1 same.symm
      simp [attempts,recordFailure,cleanup_kept kept.2]
    · simp [attempts,recordFailure,same,cleanup_kept kept.2,show q ≠ p from fun equal => same (by rw [equal])]
  | reset q =>
    change attempts (reset s q) p = _
    rw [failures,← counts,attempts_reset q kept]

theorem recorded {d : Nat} (stepped : step cfg s (.recordFailure p d) = some t) : t.log = .recordFailure p d :: s.log ∧
    t.entries (lockoutKey p) =
      some ⟨attempts (cleanupLocked cfg s) p+1,t.now,doubled cfg (attempts (cleanupLocked cfg s) p) cfg.baseLockout⟩ := by
  cases stepped
  exact ⟨rfl,Function.update_self ..⟩

/-- While the entry of a pair is not looked at after it expires, each failure locks it twice as long as the last, up to
    the maximum. -/
theorem lockout_doubles (cfg : Config) (positive : 0 < cfg.baseLockout) (below : cfg.baseLockout ≤ cfg.maxLockout)
    (fits : cfg.maxLockout < 2^62) (p : Pair) (now : Time) {s t : State} (run : Reach (step cfg) (Kept cfg p) (start now) s) (d : Nat)
    (kept : Kept cfg p s (.recordFailure p d)) (stepped : step cfg s (.recordFailure p d) = some t) :
    ∃ e, t.entries (lockoutKey p) = some e ∧ e.lockedAt = t.now ∧
      e.lockoutFor = min (cfg.baseLockout*2^(failures p t.log-1)) cfg.maxLockout := by
  have counts : attempts s p = failures p s.log :=
    run.invariant (I := fun s => attempts s p = failures p s.log) rfl attempts_step
  obtain ⟨log,held⟩ := recorded stepped
  refine ⟨_,held,rfl,?_⟩
  rw [doubled_eq fits _ positive below,attempts,cleanup_kept kept.2,← attempts,counts,log]
  simp [failures]

def root : Pair := ⟨"10.0.0.1","root"⟩
/-- A second failure at the instant at which the lockout of the first one ends. -/
theorem lockout_doubles_second : ∃ s t, Reach (step {}) (Kept {} root) (start 0) s ∧ step {} s (.recordFailure root 0) = some t ∧
    failures root t.log = 2 ∧ ∃ e, t.entries (lockoutKey root) = some e ∧ e.lockoutFor = 2*second := by
  obtain ⟨s,ran,kept,two⟩ := run_seen (step {}) (start 0) (login root false false 0 ++ [.wait 1000000000,.isLocked root])
    (fun s => Kept {} root s (.recordFailure root 0) ∧ failures root s.log = 1) (by decide +kernel)
  have run := run_reach ran (show Along (step {}) (Kept {} root) (start 0) _ from by decide +kernel)
  obtain ⟨e,held,_,locked⟩ := lockout_doubles {} (by decide) (by decide) (by decide) root 0 run 0 kept rfl
  exact ⟨s,_,run,rfl,by simp [failures,two],e,held,locked.trans (by simp [failures,two]; decide)⟩
/-- A second failure just after the lockout of the first one is locked for the base lockout again. -/
theorem lockout_restarts : ¬ ∀ (cfg : Config) (p : Pair) (now : Time) (s t : State) (d : Nat), 0 < cfg.baseLockout →
    cfg.baseLockout ≤ cfg.maxLockout → Reach (step cfg) Any (start now) s → step cfg s (.recordFailure p d) = some t →
    ∃ e, t.entries (lockoutKey p) = some e ∧ e.lockoutFor = min (cfg.baseLockout*2^(failures p t.log-1)) cfg.maxLockout := by
  intro claim
  obtain ⟨s,ran,forgot,one⟩ := run_seen (step {}) (start 0) (login root false false 0 ++ [.wait 1000000001,.isLocked root])
    (fun s => attempts (cleanupLocked {} s) root = 0 ∧ failures root s.log = 1) (by decide +kernel)
  obtain ⟨e,held,locked⟩ := claim {} root 0 s _ 0 (by decide) (by decide) (run_any ran) rfl
  rw [(recorded rfl).2,forgot] at held
  obtain rfl := Option.some.inj held
  simp only [doubled,failures,one] at locked
  exact absurd locked (by decide)

end Stellabill.Lockout
