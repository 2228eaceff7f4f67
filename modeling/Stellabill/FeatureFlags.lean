import Mathlib.Logic.Function.Iterate
import Stellabill.Transitions

/-!
Toggles of one feature flag. A request reads the flag, reads the clock, and writes the flipped
state with that reading as the version; the version that was read is not compared.
-/
namespace Stellabill.FeatureFlags
open Transitions

structure Flag where
  enabled : Bool
  description : String
  version : Int

/-- `SetFlagWithVersion` for a flag that exists. -/
def setFlagWithVersion (flag : Flag) (enabled : Bool) (description : String) (version : Int) : Option Flag :=
  if version ≤ flag.version then none
  else some { enabled, version, description := if description ≠ "" then description else flag.description }

/-- Where a call of `ToggleFeatureFlag` stands, with the state and the version it holds. -/
inductive Phase
  | absent
  | read (beforeEnabled : Bool)
  | stamped (beforeEnabled : Bool) (newVersion : Int)
  | answered (success : Bool)

/-- The flag, the calls, and how many of them were answered with success. -/
structure State where
  now : Time
  flag : Flag
  calls : Nat → Phase
  toggled : Nat

def init (now : Time) (flag : Flag) : State := ⟨now,flag,fun _ => .absent,0⟩

inductive Action
  | advance (elapsed : Nat)
  | getFlag (call : Nat)
  | readClock (call : Nat)
  | setFlag (call : Nat)

def State.goto (s : State) (call : Nat) (phase : Phase) : State := { s with calls := Function.update s.calls call phase }

def step (s : State) : Action → Option State
  | .advance elapsed => some { s with now := s.now+elapsed }
  | .getFlag call =>
    match s.calls call with
    | .absent => some (s.goto call (.read s.flag.enabled))
    | _ => none
  | .readClock call =>
    match s.calls call with
    | .read before => some (s.goto call (.stamped before s.now))
    | _ => none
  | .setFlag call =>
    match s.calls call with
    | .stamped before version =>
      match setFlagWithVersion s.flag (!before) s.flag.description version with
      | none => some (s.goto call (.answered false))
      | some flag => some ({ s with flag, toggled := s.toggled+1 }.goto call (.answered true))
    | _ => none

/-- The enabled state is the first one flipped once for every success. -/
def Counted (first : Bool) (s : State) : Prop := s.flag.enabled = Nat.iterate not s.toggled first

/-- A write that the version check lets through finds the enabled state that its request has read. -/
def Unchanged (s : State) : Action → Prop
  | .setFlag call => ∀ before version, s.calls call = .stamped before version → s.flag.version < version → s.flag.enabled = before
  | _ => True

variable {first : Bool} {s : State} {a : Action}

private theorem counted_write {flag : Flag} {before : Bool} {description : String} {version : Int} (counted : Counted first s)
    (set : setFlagWithVersion s.flag (!before) description version = some flag) :
    s.flag.version < version ∧ (flag.enabled = Nat.iterate not (s.toggled+1) first ↔ s.flag.enabled = before) := by
  unfold setFlagWithVersion at set
  by_cases old : version ≤ s.flag.version
  · simp [old] at set
  · rw [if_neg old] at set
    cases set
    refine ⟨Int.not_le.mp old,?_⟩
    rw [Function.iterate_succ_apply',← counted]
    cases before <;> simp
/-- From a state that is counted right, a step leads to one just when it meets the condition. -/
theorem counted_step (counted : Counted first s) : (∀ t, step s a = some t → Counted first t) ↔ Unchanged s a := by
  cases a with
  | advance elapsed => simpa [step,Unchanged,Counted] using counted
  | getFlag call | readClock call =>
    simp only [step,Unchanged,iff_true]
    split <;> rintro t ⟨⟩
    exact counted
  | setFlag call =>
    simp only [step,Unchanged]
    cases at_ : s.calls call with
    | stamped before version =>
      cases set : setFlagWithVersion s.flag (!before) s.flag.description version with
      | none =>
        have old : version ≤ s.flag.version := by simpa [setFlagWithVersion] using set
        simpa [set,State.goto,Counted,Int.not_lt.mpr old] using counted
      | some flag =>
        obtain ⟨newer,flipped⟩ := counted_write counted set
        simpa [set,State.goto,Counted,newer] using flipped
    | _ => simp

/-- Along a run, the successes are counted right just when every accepted write meets the condition. -/
theorem toggles_counted (now : Time) (flag : Flag) (actions : List Action) :
    Along step (fun s a => ∀ t, step s a = some t → Counted flag.enabled t) (init now flag) actions ↔
      Along step Unchanged (init now flag) actions :=
  along_congr (s := init now flag) (I := Counted flag.enabled) rfl counted_step
    (fun counted unchanged stepped => (counted_step counted).mpr unchanged _ stepped) actions
/-- Two requests that read the same state are both answered with success, and one flip is lost. -/
theorem toggle_lost : ∃ s, Reach step Any (init 1 ⟨false,"",0⟩) s ∧ s.toggled = 2 ∧ ¬ Counted false s := by
  obtain ⟨s,ran,twice,on⟩ := run_seen step (init 1 ⟨false,"",0⟩)
    [.getFlag 0,.getFlag 1,.readClock 0,.setFlag 0,.advance 1,.readClock 1,.setFlag 1]
    (fun s => s.toggled = 2 ∧ s.flag.enabled = true) (by decide +kernel)
  exact ⟨s,run_any ran,twice,by simp [Counted,twice,on]⟩

end Stellabill.FeatureFlags
