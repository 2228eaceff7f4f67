import Mathlib.Data.List.Basic
import Mathlib.Logic.Function.Basic
import Stellabill.Program

/-!
Archiving a statement: the statement is put into the object store under a key of
the day, then its row is cleared and gets the key, and where that update reports
an error the object is deleted again. The runs for a statement interleave.
-/
namespace Stellabill.StatementArchive
open Transitions Program Function

structure Contents where
  periodStart : String
  periodEnd : String
  issuedAt : String
  totalAmount : String
  currency : String
  kind : String
  status : String
  deriving DecidableEq, Repr

structure StatementRow where
  id : String
  subscriptionID : String
  customerID : String
  contents : Contents
  deriving DecidableEq, Repr

structure Payload where
  statement : StatementRow
  archivedAt : Time
  deriving DecidableEq, Repr

structure Row where
  id : String
  subscriptionID : String
  customerID : String
  contents : Option Contents
  archivedAt : Option Time
  archiveKey : Option String
  deriving DecidableEq, Repr

structure Date where
  year : Nat
  month : Nat
  day : Nat
  deriving DecidableEq, Repr

structure Config where
  objectKeyPrefix : String
  date : Time → Date

def twoDigits (n : Nat) : String := if n < 10 then "0" ++ toString n else toString n
def objectKey (config : Config) (id : String) (now : Time) : String :=
  let date := config.date now
  config.objectKeyPrefix ++ toString date.year ++ "/" ++ twoDigits date.month ++ "/" ++ twoDigits date.day ++ "/" ++ id ++ ".json"
def clear (row : Row) (stmt : StatementRow) (now : Time) (key : String) : Row :=
  if row.id = stmt.id ∧ row.contents.map Contents.periodStart = some stmt.contents.periodStart then
    { row with contents := none, archivedAt := some now, archiveKey := some key }
  else row

/-- Where `archiveStatement` stands: before the Put, before the UPDATE, before the Delete, or returned. -/
inductive Phase
  | putting (now : Time)
  | updating (now : Time) (key : String)
  | deleting (key : String) (error : String)
  | returned (error : Option String)
  deriving DecidableEq, Repr

structure State where
  now : Time
  row : Row
  objects : String → Option Payload
  runs : List Phase

def init (stmt : StatementRow) (now : Time) (objects : String → Option Payload) : State :=
  ⟨now,⟨stmt.id,stmt.subscriptionID,stmt.customerID,some stmt.contents,none,none⟩,objects,[]⟩

/-- The steps: time passes, a run begins, and its calls are answered. -/
inductive Action
  | advance (elapsed : Nat)
  | start
  | put (run : Nat) (reply : Reply)
  | update (run : Nat) (reply : Reply)
  | delete (run : Nat) (reply : Reply)
  deriving DecidableEq

def State.goto (s : State) (run : Nat) (phase : Phase) : State := { s with runs := s.runs.set run phase }

def uploaded (now : Time) (key : String) : Option String → Phase
  | some message => .returned (some ("upload to object store: " ++ message))
  | none => .updating now key
def updated (key : String) : Option String → Phase
  | some message => .deleting key ("update database: " ++ message)
  | none => .returned none

def step (config : Config) (stmt : StatementRow) (s : State) : Action → Option State
  | .advance elapsed => some { s with now := s.now+elapsed }
  | .start => some { s with runs := s.runs ++ [.putting s.now] }
  | .put run reply =>
    match s.runs[run]? with
    | some (.putting now) =>
      let key := objectKey config stmt.id now
      let objects := if reply.effective then update s.objects key (some ⟨stmt,now⟩) else s.objects
      some ({ s with objects }.goto run (uploaded now key reply.error))
    | _ => none
  | .update run reply =>
    match s.runs[run]? with
    | some (.updating now key) =>
      let row := if reply.effective then clear s.row stmt now key else s.row
      some ({ s with row }.goto run (updated key reply.error))
    | _ => none
  | .delete run reply =>
    match s.runs[run]? with
    | some (.deleting key error) =>
      let objects := if reply.effective then update s.objects key none else s.objects
      some ({ s with objects }.goto run (.returned (some error)))
    | _ => none

/-- The archive has the statement under the key. -/
def Holds (stmt : StatementRow) (objects : String → Option Payload) (key : String) : Prop :=
  ∃ payload, objects key = some payload ∧ payload.statement = stmt
/-- The contents are in the row or in the archive. -/
def Kept (stmt : StatementRow) (s : State) : Prop :=
  s.row.contents = some stmt.contents ∨ ∃ key, s.row.archiveKey = some key ∧ Holds stmt s.objects key

def Phase.pending : Phase → Option String
  | .updating _ key => some key
  | _ => none
/-- A Delete takes effect only on an object that the row does not name and no run is about to name. -/
def Unnamed (s : State) : Action → Prop
  | .delete run reply =>
    match s.runs[run]? with
    | some (.deleting key _) =>
      reply.effective = true → s.row.archiveKey ≠ some key ∧ ∀ phase ∈ s.runs, phase.pending ≠ some key
    | _ => True
  | _ => True

instance (s : State) (a : Action) : Decidable (Unnamed s a) := by
  unfold Unnamed
  split <;> try split
  all_goals infer_instance

/-! ### The invariant -/

/-- A run that is about to clear the row has put its object. -/
structure Backed (stmt : StatementRow) (s : State) : Prop where
  row : s.row.contents = some stmt.contents ∨ (s.row.contents = none ∧ ∃ key, s.row.archiveKey = some key ∧ Holds stmt s.objects key)
  runs : ∀ phase ∈ s.runs, ∀ key, phase.pending = some key → Holds stmt s.objects key

variable {config : Config} {stmt : StatementRow} {s t : State} {objects : String → Option Payload} {key : String}

theorem holds_put (now : Time) (key' : String) (held : Holds stmt objects key) :
    Holds stmt (update objects key' (some ⟨stmt,now⟩)) key := by
  by_cases same : key = key'
  · subst same
    exact ⟨⟨stmt,now⟩,by simp,rfl⟩
  · obtain ⟨payload,there,equal⟩ := held
    exact ⟨payload,by rw [update_of_ne same]; exact there,equal⟩
section
variable {a : Action} (backed : Backed stmt s)
include backed

theorem Backed.kept : Kept stmt s := by
  rcases backed.row with intact | ⟨_,named⟩
  · exact .inl intact
  · exact .inr named
private theorem backed_objects
    (holds : ∀ key, (s.row.archiveKey = some key ∨ ∃ phase ∈ s.runs, phase.pending = some key) → Holds stmt s.objects key →
      Holds stmt objects key) : Backed stmt { s with objects } := by
  refine ⟨?_,?_⟩
  · rcases backed.row with intact | ⟨cleared,key,named,held⟩
    · exact .inl intact
    · exact .inr ⟨cleared,key,named,holds key (.inl named) held⟩
  · intro phase member key pending
    exact holds key (.inr ⟨phase,member,pending⟩) (backed.runs phase member key pending)
theorem backed_goto {run : Nat} {phase : Phase} (new : ∀ key, phase.pending = some key → Holds stmt s.objects key) : Backed stmt (s.goto run phase) := by
  refine ⟨backed.row,?_⟩
  intro phase' member key pending
  rcases List.mem_or_eq_of_mem_set member with old | rfl
  · exact backed.runs phase' old key pending
  · exact new key pending
private theorem backed_clear {now : Time} (held : Holds stmt s.objects key) :
    Backed stmt { s with row := clear s.row stmt now key } := by
  refine ⟨?_,backed.runs⟩
  unfold clear
  split
  · exact .inr ⟨rfl,key,rfl,held⟩
  · exact backed.row
theorem backed_step (unnamed : Unnamed s a) (stepped : step config stmt s a = some t) : Backed stmt t := by
  cases a with
  | advance elapsed => cases stepped; exact ⟨backed.row,backed.runs⟩
  | start =>
    cases stepped
    refine ⟨backed.row,?_⟩
    intro phase member key pending
    rcases List.mem_append.mp member with old | new
    · exact backed.runs phase old key pending
    · rw [List.mem_singleton.mp new] at pending
      cases pending
  | put run reply =>
    simp only [step] at stepped
    split at stepped <;> cases stepped
    next now _ =>
      cases reply with
      | done =>
        refine backed_goto (backed_objects backed (fun key _ => holds_put now _)) ?_
        rintro key ⟨⟩
        exact ⟨⟨stmt,now⟩,by simp,rfl⟩
      | failed message => exact backed_goto backed (by rintro _ ⟨⟩)
      | lost message => exact backed_goto (backed_objects backed (fun key _ => holds_put now _)) (by rintro _ ⟨⟩)
  | update run reply =>
    simp only [step] at stepped
    split at stepped <;> cases stepped
    next key at_ =>
      have held := backed.runs _ (List.mem_of_getElem? at_) key rfl
      have waiting : ∀ key', (updated key reply.error).pending ≠ some key' := by
        cases reply <;> simp [updated,Reply.error,Phase.pending]
      cases reply with
      | failed message => exact backed_goto backed (fun key' pending => absurd pending (waiting key'))
      | done | lost => exact backed_goto (backed_clear backed held) (fun key' pending => absurd pending (waiting key'))
  | delete run reply =>
    simp only [step] at stepped
    split at stepped <;> cases stepped
    next key error at_ =>
      refine backed_goto ?_ (by rintro _ ⟨⟩)
      cases took : reply.effective with
      | false => simpa using backed
      | true =>
        simp only [Unnamed,at_] at unnamed
        obtain ⟨notRow,notRuns⟩ := unnamed took
        refine backed_objects backed ?_
        rintro key' needed ⟨payload,there,equal⟩
        have other : key' ≠ key := by
          rintro rfl
          rcases needed with named | ⟨phase,member,pending⟩
          · exact notRow named
          · exact notRuns phase member pending
        exact ⟨payload,by simpa [update_of_ne other] using there,equal⟩
end

/-- In every run in which a Delete takes effect only on an unnamed object, the statement is kept. -/
theorem statement_kept (config : Config) (stmt : StatementRow) (now : Time) (objects : String → Option Payload)
    (reached : Reach (step config stmt) Unnamed (init stmt now objects) s) : Kept stmt s := by
  have start : Backed stmt (init stmt now objects) := ⟨.inl rfl,by simp [init]⟩
  exact (reached.invariant start backed_step).kept

def january : StatementRow :=
  ⟨"stmt-1","sub-1","cust-1",⟨"2025-01-01T00:00:00Z","2025-02-01T00:00:00Z","2025-02-01T00:00:00Z","2999","usd","invoice","paid"⟩⟩
def archive : Config := ⟨"statements/archive/",fun _ => ⟨2026,3,1⟩⟩
/-- The row is cleared, and the answer to the UPDATE gets lost. -/
def answerLost : List Action := [.start,.put 0 .done,.update 0 (.lost "connection reset"),.delete 0 .done]
theorem statement_lost : ¬ ∀ (config : Config) (stmt : StatementRow) (now : Time) (objects : String → Option Payload) (s : State),
    Reach (step config stmt) Any (init stmt now objects) s → Kept stmt s := by
  intro claim
  obtain ⟨s,ran,cleared,named,gone⟩ := run_seen (step archive january) (init january 0 (fun _ => none)) answerLost
    (fun s => s.row.contents = none ∧ s.row.archiveKey = some "statements/archive/2026/03/01/stmt-1.json" ∧
      s.objects "statements/archive/2026/03/01/stmt-1.json" = none) (by decide +kernel)
  rcases claim archive january 0 (fun _ => none) s (run_any ran) with intact | ⟨key,key_,payload,there,_⟩
  · rw [cleared] at intact
    cases intact
  · rw [named] at key_
    cases key_
    rw [gone] at there
    cases there
/-- One run fails and its object is deleted; a second archives the statement, and a third finds the row cleared. -/
def failedThenArchived : List Action :=
  [.start,.put 0 .done,.update 0 (.failed "deadlock detected"),.delete 0 .done,.start,.put 1 .done,.start,.update 1 .done,
    .put 2 .done,.update 2 .done]
theorem statement_kept_failedThenArchived : ∃ s, Reach (step archive january) Unnamed (init january 0 (fun _ => none)) s ∧
    s.row.contents = none ∧ Kept january s :=
  reach_seen failedThenArchived (by decide +kernel) (by decide +kernel)
    (fun _ reached _ => statement_kept archive january 0 (fun _ => none) reached)

end Stellabill.StatementArchive
