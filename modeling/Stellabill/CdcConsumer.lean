import Stellabill.Pgoutput
import Stellabill.Transitions

/-!
The consumer of the replication stream: it decodes each message, writes every
change to all sinks, and confirms a position of the stream to the server.
-/
namespace Stellabill.CdcConsumer
open ByteStrings Transitions Pgoutput

/-- Where `runReplication` stands: before the next message, before the changes left of one are written, or panicked. -/
inductive Loop
  | receiving
  | forwarding (newLSN : Nat) (change : Change) (rest : List Change)
  | panicked
  deriving DecidableEq

/-- The consumer and its decoder, and the positions written by all sinks, failed at some sink, and confirmed (latest first). -/
structure State where
  lastLSN : Nat
  relations : Relations
  loop : Loop
  written : List Nat
  failed : List Nat
  confirmed : List Nat

def init : State := ⟨0,fun _ => none,.receiving,[],[],[]⟩

/-- A message is received, a change is written with the errors of the sinks, the position is confirmed, or replication restarts. -/
inductive Action
  | message (data : Bytes)
  | write (errors : List (Option String))
  | standby
  | reconnect

def Loop.proceed (newLSN : Nat) : List Change → Loop
  | [] => .receiving
  | change :: rest => .forwarding newLSN change rest
def updateLSN (lastLSN lsn : Nat) : Nat := if lsn > lastLSN then lsn else lastLSN
section
variable (s : State)
def write (newLSN : Nat) (rest : List Change) (errors : List (Option String)) : State :=
  if errors.all Option.isNone then
    { s with lastLSN := updateLSN s.lastLSN newLSN, written := newLSN :: s.written, loop := .proceed newLSN rest }
  else { s with failed := newLSN :: s.failed, loop := .proceed newLSN rest }
def sendStandbyStatusUpdate : State :=
  if s.lastLSN = 0 then s else { s with confirmed := s.lastLSN :: s.confirmed }

/-- One step with this number of sinks; none where the loop does not stand there. -/
def step (sinks : Nat) (s : State) : Action → Option State
  | .message data =>
    match s.loop with
    | .receiving =>
      match decode s.relations data with
      | (relations,.ok (changes,newLSN)) => some { s with relations, loop := .proceed newLSN changes }
      | (relations,.error (.error _)) => some { s with relations }
      | (relations,.error .panic) => some { s with relations, loop := .panicked }
    | _ => none
  | .write errors =>
    match s.loop with
    | .forwarding newLSN _ rest => if errors.length = sinks then some (write s newLSN rest errors) else none
    | _ => none
  | .standby => if s.loop = .receiving then some (sendStandbyStatusUpdate s) else none
  | .reconnect => if s.loop = .receiving then some { s with relations := fun _ => none } else none

/-- Every change that some sink has failed to write is above the recorded and all confirmed positions. -/
def Unacknowledged : Prop := ∀ lsn ∈ s.failed, s.lastLSN < lsn ∧ ∀ position ∈ s.confirmed, position < lsn

/-- A change is written only below those that some sink has failed to write, and a write fails only above those that all
    have written. -/
def Below : Action → Prop
  | .write errors =>
    match s.loop with
    | .forwarding newLSN _ _ =>
      if errors.all Option.isNone then ∀ lsn ∈ s.failed, newLSN < lsn
      else 0 < newLSN ∧ ∀ lsn ∈ s.written, lsn < newLSN
    | _ => True
  | _ => True

instance (a : Action) : Decidable (Below s a) := by
  unfold Below
  split <;> try split
  all_goals infer_instance

/-! ### The recorded position -/

/-- The recorded position is the greatest of the written changes, and no confirmed one is above it. -/
structure Recorded (s : State) : Prop where
  above : ∀ lsn ∈ s.written, lsn ≤ s.lastLSN
  reached : s.lastLSN = 0 ∨ s.lastLSN ∈ s.written
  confirmed : ∀ position ∈ s.confirmed, position ≤ s.lastLSN
/-- The changes that were not written lie above those that were. -/
def Ordered : Prop := ∀ lsn ∈ s.failed, 0 < lsn ∧ ∀ lsn' ∈ s.written, lsn' < lsn
end

theorem le_updateLSN (lastLSN lsn : Nat) : lastLSN ≤ updateLSN lastLSN lsn ∧ lsn ≤ updateLSN lastLSN lsn := by
  unfold updateLSN
  split <;> omega

variable {s t : State} {sinks : Nat} {a : Action}

theorem unacknowledged_iff_ordered (recorded : Recorded s) : Unacknowledged s ↔ Ordered s := by
  constructor
  · intro unacknowledged lsn failed
    have behind := (unacknowledged lsn failed).1
    refine ⟨by omega,?_⟩
    intro lsn' written
    have := recorded.above lsn' written
    omega
  · intro ordered lsn failed
    obtain ⟨positive,above⟩ := ordered lsn failed
    have behind : s.lastLSN < lsn := by
      rcases recorded.reached with zero | written
      · omega
      · exact above _ written
    refine ⟨behind,?_⟩
    intro position sent
    have := recorded.confirmed position sent
    omega
/-- What a step does to the positions: nothing, it confirms one, a change is written, or a write fails. -/
theorem step_cases (stepped : step sinks s a = some t) :
    (t.lastLSN = s.lastLSN ∧ t.written = s.written ∧ t.failed = s.failed ∧ Below s a ∧
      (t.confirmed = s.confirmed ∨ (s.lastLSN ≠ 0 ∧ t.confirmed = s.lastLSN :: s.confirmed))) ∨ ∃ newLSN, t.confirmed = s.confirmed ∧
      ((t.lastLSN = updateLSN s.lastLSN newLSN ∧ t.written = newLSN :: s.written ∧ t.failed = s.failed ∧
        (Below s a ↔ ∀ lsn ∈ s.failed, newLSN < lsn)) ∨ (t.lastLSN = s.lastLSN ∧ t.written = s.written ∧ t.failed = newLSN :: s.failed ∧
        (Below s a ↔ 0 < newLSN ∧ ∀ lsn ∈ s.written, lsn < newLSN))) := by
  cases a with
  | message data =>
    simp only [step] at stepped
    split at stepped
    · split at stepped <;> cases stepped <;> exact .inl ⟨rfl,rfl,rfl,trivial,.inl rfl⟩
    · cases stepped
  | write errors =>
    simp only [step] at stepped
    split at stepped
    · next at_ =>
      obtain ⟨_,rfl⟩ := guarded stepped
      by_cases ok : errors.all Option.isNone <;> simp [write,Below,at_,ok]
    · cases stepped
  | standby =>
    obtain ⟨_,rfl⟩ := guarded stepped
    unfold sendStandbyStatusUpdate
    split
    · exact .inl ⟨rfl,rfl,rfl,trivial,.inl rfl⟩
    · next moved => exact .inl ⟨rfl,rfl,rfl,trivial,.inr ⟨moved,rfl⟩⟩
  | reconnect =>
    obtain ⟨_,rfl⟩ := guarded stepped
    exact .inl ⟨rfl,rfl,rfl,trivial,.inl rfl⟩
theorem recorded_step (recorded : Recorded s) (stepped : step sinks s a = some t) : Recorded t := by
  rcases step_cases stepped with ⟨last,written,_,_,sent⟩ | ⟨newLSN,sent,⟨last,written,_⟩ | ⟨last,written,_⟩⟩
  · refine ⟨by rw [last,written]; exact recorded.above,by rw [last,written]; exact recorded.reached,?_⟩
    rw [last]
    rcases sent with sent | ⟨_,sent⟩ <;> rw [sent]
    · exact recorded.confirmed
    · simpa using recorded.confirmed
  · obtain ⟨grows,reaches⟩ := le_updateLSN s.lastLSN newLSN
    refine ⟨?_,?_,?_⟩
    · rw [last,written]
      simp only [List.mem_cons,forall_eq_or_imp]
      exact ⟨reaches,fun lsn old => Nat.le_trans (recorded.above lsn old) grows⟩
    · rw [last,written]
      unfold updateLSN
      split
      · exact .inr (by simp)
      · rcases recorded.reached with zero | old
        · exact .inl zero
        · exact .inr (by simp [old])
    · rw [last,sent]
      exact fun position old => Nat.le_trans (recorded.confirmed position old) grows
  · refine ⟨by rw [last,written]; exact recorded.above,by rw [last,written]; exact recorded.reached,?_⟩
    rw [last,sent]
    exact recorded.confirmed
private theorem ordered_step (stepped : step sinks s a = some t) : Ordered t ↔ Ordered s ∧ Below s a := by
  unfold Ordered
  rcases step_cases stepped with ⟨_,written,failed,below,_⟩ | ⟨newLSN,_,⟨_,written,failed,below⟩ | ⟨_,written,failed,below⟩⟩
  · rw [written,failed]
    exact ⟨fun ordered => ⟨ordered,below⟩,fun both => both.1⟩
  · rw [written,failed,below]
    simp only [List.mem_cons,forall_eq_or_imp]
    constructor
    · exact fun ordered => ⟨fun lsn old => ⟨(ordered lsn old).1,(ordered lsn old).2.2⟩,fun lsn old => (ordered lsn old).2.1⟩
    · exact fun ⟨ordered,under⟩ lsn old => ⟨(ordered lsn old).1,under lsn old,(ordered lsn old).2⟩
  · rw [written,failed,below]
    simp only [List.mem_cons,forall_eq_or_imp]
    exact and_comm

theorem recorded_run (reached : Reach (step sinks) Any init s) : Recorded s :=
  reached.invariant ⟨by simp [init],.inl rfl,by simp [init]⟩
    (fun recorded _ stepped => recorded_step recorded stepped)
private theorem ordered_run {actions : List Action} (ran : run (step sinks) s actions = some t) :
    Ordered t ↔ Ordered s ∧ Along (step sinks) Below s actions := by
  induction actions generalizing s with
  | nil => cases ran; simp [Along]
  | cons a rest ih =>
    obtain ⟨next,stepped,ran⟩ := run_cons ran
    rw [along_cons stepped,ih ran,ordered_step stepped,and_assoc]
/-- Along a run, the recorded and confirmed positions stay below every failed change exactly when every write meets `Below`. -/
theorem unacknowledged_iff_below (sinks : Nat) {actions : List Action} {t : State} (ran : run (step sinks) init actions = some t) :
    (∀ first second s, actions = first ++ second → run (step sinks) init first = some s → Unacknowledged s) ↔
      Along (step sinks) Below init actions := by
  have start : Ordered init := by simp [Ordered,init]
  constructor
  · intro always
    have last := always actions [] t (by simp) ran
    exact ((ordered_run ran).mp ((unacknowledged_iff_ordered (recorded_run (run_any ran))).mp last)).2
  · rintro along first second s rfl began
    exact (unacknowledged_iff_ordered (recorded_run (run_any began))).mpr ((ordered_run began).mpr ⟨start,along_append along⟩)

/-- The confirmed positions never go back, and each is that of a change that all sinks have written. -/
def Sent (s : State) : Prop := s.confirmed.Pairwise (· ≥ ·) ∧ ∀ position ∈ s.confirmed, position ∈ s.written
private theorem sent_step (recorded : Recorded s) (sent : Sent s) (stepped : step sinks s a = some t) : Sent t := by
  unfold Sent
  rcases step_cases stepped with ⟨_,written,_,_,same | ⟨moved,confirms⟩⟩ | ⟨newLSN,same,⟨_,written,_⟩ | ⟨_,written,_⟩⟩
  · rw [same,written]
    exact sent
  · rw [confirms,written]
    refine ⟨sent.1.cons recorded.confirmed,?_⟩
    simpa using ⟨recorded.reached.resolve_left moved,sent.2⟩
  · rw [same,written]
    exact ⟨sent.1,fun position old => .tail _ (sent.2 position old)⟩
  · rw [same,written]
    exact sent
theorem sent_run (reached : Reach (step sinks) Any init s) : Sent s :=
  (reached.invariant (I := fun s => Recorded s ∧ Sent s) ⟨@recorded_run _ sinks .start,by simp [Sent,init]⟩
    (fun both _ stepped => ⟨recorded_step both.1 stepped,sent_step both.1 both.2 stepped⟩)).2

def xLogData (lsn : UInt8) (walData : Bytes) : Bytes := text "w" ++ [0,0,0,0,0,0,0,lsn] ++ List.replicate 16 0 ++ walData
def announcedInsert : Bytes := text "R" ++ [0,0,0,1] ++ text "public\x00" ++ text "plans\x00" ++ text "d" ++ [0,0] ++
  text "I" ++ [0,0,0,1] ++ text "N" ++ [0,0]
def failedThenWritten : List Action :=
  [.message (xLogData 100 announcedInsert),.write [some "broker unavailable"],.message (xLogData 200 announcedInsert),.write [none],
    .standby]
theorem failed_acknowledged : ¬ ∀ (sinks : Nat) (actions : List Action) (s : State),
    run (step sinks) init actions = some s → Unacknowledged s := by
  intro claim
  obtain ⟨s,ran,failed,confirmed⟩ := run_seen (step 1) init failedThenWritten (fun s => 100 ∈ s.failed ∧ 200 ∈ s.confirmed)
    (by decide +kernel)
  have := (claim 1 failedThenWritten s ran 100 failed).2 200 confirmed
  omega
def writtenThenFailed : List Action :=
  [.message (xLogData 100 announcedInsert),.write [none],.standby,.message (xLogData 200 announcedInsert),
    .write [some "broker unavailable"],.standby]
theorem unacknowledged_iff_below_writtenThenFailed : ∃ t, run (step 1) init writtenThenFailed = some t ∧ t.failed = [200] ∧
    t.confirmed = [100,100] ∧
    ∀ first second s, writtenThenFailed = first ++ second → run (step 1) init first = some s → Unacknowledged s := by
  obtain ⟨t,ran,failed,confirmed⟩ := run_seen (step 1) init writtenThenFailed
    (fun s => s.failed = [200] ∧ s.confirmed = [100,100]) (by decide +kernel)
  exact ⟨t,ran,failed,confirmed,(unacknowledged_iff_below 1 ran).mpr (by decide +kernel)⟩
theorem sent_run_writtenThenFailed : ∃ s, Reach (step 1) Any init s ∧ s.confirmed = [100,100] ∧ Sent s :=
  reach_seen writtenThenFailed (by decide +kernel) (along_any ..) (fun _ reached _ => sent_run reached)

end Stellabill.CdcConsumer
