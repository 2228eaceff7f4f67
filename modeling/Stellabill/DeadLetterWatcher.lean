import Mathlib.Data.List.Chain
import Stellabill.Transitions

/-!
The watcher of the dead-letter inflow, with the incident that its calls leave open at the pager.
-/
namespace Stellabill.DeadLetterWatcher
open Transitions

/-- The configuration; the window is given as it is printed. -/
structure DeadLetterWatcherConfig where
  threshold : Int
  window : String

def deadLetterDedupKey := "stellabill-outbox-dead-letter-spike"

inductive AlertCall
  | trigger (dedupKey summary severity : String) (count : Int) (window : String) (threshold : Int)
  | resolve (dedupKey : String)

def AlertCall.opens : AlertCall → Bool
  | .trigger .. => true
  | .resolve _ => false

/-- The watcher's flag, and whether an incident is open at the pager. -/
structure State where
  firing : Bool
  incident : Bool

def init : State := ⟨false,false⟩

/-- What the outside answers to one `Run`: the query, and the call of the pager if it makes one. -/
structure Round where
  count : Except String Int
  callError : Option String

def Round.delivered (r : Round) : Bool := r.callError.isNone

variable (cfg : DeadLetterWatcherConfig) (pd : Bool)

def above (count : Int) : Bool := cfg.threshold ≤ count

def triggerCall (count : Int) : AlertCall :=
  .trigger deadLetterDedupKey ("Outbox dead-letter spike: " ++ toString count ++ " failed events in last " ++ cfg.window ++
    " (threshold " ++ toString cfg.threshold ++ ")") "critical" count cfg.window cfg.threshold

section
variable (s : State) (r : Round)
/-- One `Run`, with the call it makes; `pd` tells whether there is a pager. -/
def Run : State × Option AlertCall :=
  match r.count with
  | .error _ => (s,none)
  | .ok count =>
    if above cfg count && !s.firing then
      if pd then (⟨true,s.incident || r.delivered⟩,some (triggerCall cfg count)) else ({ s with firing := true },none)
    else if !above cfg count && s.firing then
      if pd then (⟨false,s.incident && !r.delivered⟩,some (.resolve deadLetterDedupKey)) else ({ s with firing := false },none)
    else (s,none)

def watch : Option State := some (Run cfg pd s r).1

/-- The incident is as the count asks for, or the next `Run` that finds the same makes the call. -/
def Recovers : Prop :=
  ∀ count, r.count = .ok count → (Run cfg pd s r).1.incident = above cfg count ∨
    ∀ next count', next.count = .ok count' → above cfg count' = above cfg count →
      (Run cfg pd (Run cfg pd s r).1 next).2.map AlertCall.opens = some (above cfg count)

/-- If the count and the flag are on different sides of the threshold, there is a pager and it takes the call. -/
def Delivered : Prop :=
  ∀ count, r.count = .ok count → above cfg count ≠ s.firing → pd = true ∧ r.delivered = true
end

variable {cfg pd} {s : State} {r : Round} {count : Int}

section
variable (counted : r.count = .ok count)
include counted
theorem run_firing : (Run cfg pd s r).1.firing = above cfg count := by
  by_cases up : above cfg count <;> by_cases was : s.firing <;> cases pd <;> simp [Run,counted,up,was]
theorem run_silent (same : above cfg count = s.firing) : Run cfg pd s r = (s,none) := by
  by_cases was : s.firing <;> simp [Run,counted,same,was]
theorem run_incident (crossed : above cfg count ≠ s.firing) (agree : s.firing = s.incident) :
    (Run cfg pd s r).1.incident = above cfg count ↔ pd = true ∧ r.delivered = true := by
  by_cases up : above cfg count <;> by_cases was : s.firing <;> by_cases taken : r.delivered <;> cases pd <;>
    simp_all [Run]
/-- After a count the flag is what the count asks for, so that the same count makes no call. -/
theorem recovers_counted : Recovers cfg pd s r ↔ (Run cfg pd s r).1.incident = above cfg count := by
  constructor
  · intro recovers
    apply (recovers count counted).resolve_right
    intro retried
    have again := retried r count counted rfl
    rw [run_silent counted (run_firing counted).symm] at again
    cases again
  · intro as_asked other counted'
    cases counted.symm.trans counted'
    exact .inl as_asked
end
theorem recovers_delivered (agree : s.firing = s.incident) : Recovers cfg pd s r ↔ Delivered cfg pd s r := by
  cases counted : r.count with
  | error message => simp [Recovers,Delivered,counted]
  | ok count =>
    rw [recovers_counted counted]
    by_cases same : above cfg count = s.firing
    · simp [run_silent counted same,Delivered,counted,same,agree]
    · simp [run_incident counted same agree,Delivered,counted,same]
private theorem delivered_agree (agree : s.firing = s.incident) (delivered : Delivered cfg pd s r) :
    (Run cfg pd s r).1.firing = (Run cfg pd s r).1.incident := by
  cases counted : r.count with
  | error message => simpa [Run,counted] using agree
  | ok count =>
    rw [run_firing counted,(recovers_counted counted).mp ((recovers_delivered agree).mpr delivered)]

/-- The alerting recovers after every `Run` just when every call that is asked for is delivered. -/
theorem alerting_recovers (cfg : DeadLetterWatcherConfig) (pd : Bool) (rounds : List Round) :
    Along (watch cfg pd) (Recovers cfg pd) init rounds ↔ Along (watch cfg pd) (Delivered cfg pd) init rounds :=
  along_congr (I := fun s => s.firing = s.incident) rfl (fun agree => recovers_delivered agree)
    (fun agree delivered stepped => by cases stepped; exact delivered_agree agree delivered) rounds
/-- A `Trigger` that fails is not made again while the count stays up. -/
theorem trigger_lost : ¬ Along (watch ⟨5,"1m0s"⟩ true) (Recovers ⟨5,"1m0s"⟩ true) init [⟨.ok 7,some "connection refused"⟩] := by
  intro recovers
  have missing := (recovers_counted rfl).mp recovers.1
  revert missing
  decide

/-- The calls that `Run`s with a pager make. -/
def calls (cfg : DeadLetterWatcherConfig) (s : State) : List Round → List AlertCall
  | [] => []
  | r :: rest => (Run cfg true s r).2.toList ++ calls cfg (Run cfg true s r).1 rest
private theorem run_call (cfg : DeadLetterWatcherConfig) (s : State) (r : Round) : Run cfg true s r = (s,none) ∨
      ∃ call, (Run cfg true s r).2 = some call ∧ call.opens = (Run cfg true s r).1.firing ∧ s.firing ≠ call.opens := by
  cases counted : r.count with
  | error message => simp [Run,counted]
  | ok count => by_cases up : above cfg count <;> by_cases was : s.firing <;> simp [Run,counted,up,was,AlertCall.opens,triggerCall]
/-- The calls take turns, whatever is counted and whichever fail. -/
theorem calls_alternate (cfg : DeadLetterWatcherConfig) (s : State) (rounds : List Round) :
    (s.firing :: (calls cfg s rounds).map AlertCall.opens).IsChain (· ≠ ·) := by
  induction rounds generalizing s with
  | nil => simp [calls]
  | cons r rest ih =>
    rcases run_call cfg s r with silent | ⟨call,made,opens,crossed⟩
    · simpa [calls,silent] using ih s
    · have later := ih (Run cfg true s r).1
      rw [← opens] at later
      simpa [calls,made] using ⟨crossed,later⟩

end Stellabill.DeadLetterWatcher
