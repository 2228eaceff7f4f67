import Mathlib.Data.List.Chain
import Stellabill.AuditLog
import Stellabill.Program

/-!
The export of audit events to a store of objects, one under each key. A rotation takes the
buffer, checks that its events are a chain, signs and uploads them, and puts them back if that
fails. Rotations may overlap.
-/
namespace Stellabill.AuditExport
open ByteStrings JsonText AuditLog Program Transitions List

structure WORMExporter where
  maxSize : Int
  rotateTime : Int
  secret : Bytes

def newWORMExporter (maxSize rotateTime : Int) (secret : Bytes) : WORMExporter where
  maxSize := maxSize
  rotateTime := rotateTime
  secret := if secret = [] then text "default-stellabill-internal-secret" else secret

/-- From outside: `computeEventHash`, which the sources do not define, and the instants of the events. -/
structure Library where
  computeEventHash : AuditEvent → Bytes → Bytes
  unixNano : AuditEvent → Int

inductive Panic
  | tampered (hash : Bytes)
  | chainGap (hash prevHash expected : Bytes)
  deriving DecidableEq

/-- The events are checked one after the other, each against the one before it. -/
def verifyEvents (lib : Library) (e : WORMExporter) : Option AuditEvent → List AuditEvent → Option Panic
  | _, [] => none
  | prev, ev :: rest =>
    if ev.hash ≠ lib.computeEventHash ev e.secret then some (.tampered ev.hash)
    else match prev with
      | none => verifyEvents lib e (some ev) rest
      | some before => if ev.prevHash ≠ before.hash then some (.chainGap ev.hash ev.prevHash before.hash) else verifyEvents lib e (some ev) rest

def marshalEvents (events : List AuditEvent) : Except String Bytes := (events.mapM AuditEvent.document).map fun docs => render (.arr docs)

inductive Phase
  | verifying
  | signing
  | uploading (payload signature : Bytes)
  | restoring (message : String)
  | panicked (panic : Panic)
  | uploaded
  deriving DecidableEq
def Phase.inProgress : Phase → Bool
  | .verifying | .signing | .uploading _ _ | .restoring _ => true
  | .panicked _ | .uploaded => false

structure Rotation where
  events : List AuditEvent
  phase : Phase

structure Segment where
  key : String
  events : List AuditEvent
  payload : Bytes
  signature : Bytes

def segmentKey (lib : Library) (events : List AuditEvent) : String :=
  match events.head?,events.getLast? with
  | some first,some last => "audit-" ++ toString (lib.unixNano first) ++ "-" ++ toString (lib.unixNano last) ++ ".json"
  | _,_ => ""

/-- `Upload` to the store: an object that has the key is replaced. -/
def upload (store : List Segment) (segment : Segment) : List Segment := store.filter (fun old => old.key ≠ segment.key) ++ [segment]

/-- The buffer, the rotations that wait, those that hold events (in the order they took them), the store, and all events written. -/
structure State where
  buffer : List AuditEvent
  lastExport : Int
  calls : Nat
  rotations : List Rotation
  store : List Segment
  written : List AuditEvent

def start (now : Int) : State := ⟨[],now,0,[],[],[]⟩

inductive Action
  | write (event : AuditEvent) (now : Int)
  | call
  | take (now : Int)
  | verify (n : Nat)
  | sign (n : Nat) (answer : Except String Bytes)
  | upload (n : Nat) (reply : Reply)
  | restore (n : Nat)

def shouldRotate (e : WORMExporter) (s : State) (now : Int) : Bool :=
  (e.maxSize > 0 && e.maxSize ≤ s.buffer.length) || (e.rotateTime > 0 && e.rotateTime ≤ now-s.lastExport)

section
variable (lib : Library) (e : WORMExporter)

def State.goto (s : State) (n : Nat) (r : Rotation) (phase : Phase) : State := { s with rotations := s.rotations.set n { r with phase } }
def afterVerify (r : Rotation) : Phase :=
  match verifyEvents lib e none r.events with
  | none => .signing
  | some panic => .panicked panic
def afterSign (r : Rotation) (answer : Except String Bytes) : Phase :=
  match marshalEvents r.events,answer with
  | .error message,_ => .restoring ("failed to marshal events: " ++ message)
  | .ok _,.error message => .restoring ("failed to sign segment: " ++ message)
  | .ok payload,.ok signature => .uploading payload signature
def afterUpload (reply : Reply) : Phase :=
  match reply.error with
  | some message => .restoring ("failed to upload segment: " ++ message)
  | none => .uploaded

def step (s : State) : Action → Option State
  | .write event now =>
    let s := { s with buffer := s.buffer ++ [event], written := s.written ++ [event] }
    some (if shouldRotate e s now then { s with calls := s.calls+1 } else s)
  | .call => some { s with calls := s.calls+1 }
  | .take now =>
    if s.calls = 0 then none
    else if s.buffer.isEmpty then some { s with calls := s.calls-1 }
    else some { s with calls := s.calls-1, buffer := [], lastExport := now, rotations := s.rotations ++ [⟨s.buffer,.verifying⟩] }
  | .verify n =>
    match s.rotations[n]? with
    | some ⟨events,.verifying⟩ => some (s.goto n ⟨events,.verifying⟩ (afterVerify lib e ⟨events,.verifying⟩))
    | _ => none
  | .sign n answer =>
    match s.rotations[n]? with
    | some ⟨events,.signing⟩ => some (s.goto n ⟨events,.signing⟩ (afterSign ⟨events,.signing⟩ answer))
    | _ => none
  | .upload n reply =>
    match s.rotations[n]? with
    | some ⟨events,.uploading payload signature⟩ =>
      let s := if reply.effective then { s with store := upload s.store ⟨segmentKey lib events,events,payload,signature⟩ } else s
      some (s.goto n ⟨events,.uploading payload signature⟩ (afterUpload reply))
    | _ => none
  | .restore n =>
    match s.rotations[n]? with
    | some ⟨events,.restoring _⟩ => some { s with rotations := s.rotations.eraseIdx n, buffer := events ++ s.buffer }
    | _ => none

def Follows (before ev : AuditEvent) : Prop := ev.prevHash = before.hash
/-- Events are written hashed, each following the last. -/
def ChainOrder (s : State) : Action → Prop
  | .write event _ => event.hash = lib.computeEventHash event e.secret ∧ ∀ last ∈ s.written.getLast?, Follows last event
  | _ => True
/-- Only the last rotation that took events puts them back, a failed upload has no effect, and an effective one has its own key. -/
def InOrder (s : State) : Action → Prop
  | .restore n => n+1 = s.rotations.length
  | .upload n reply => (reply.error.isSome → reply.effective = false) ∧
    (reply.effective → ∀ r ∈ s.rotations[n]?, ∀ old ∈ s.store, old.key ≠ segmentKey lib r.events)
  | _ => True
end

def State.held (s : State) : List AuditEvent := (s.rotations.filter (fun r => r.phase.inProgress)).flatMap Rotation.events
/-- Every written event is in the buffer, in a rotation or in a segment, and no rotation has panicked. -/
structure Intact (s : State) : Prop where
  conserved : s.written.Perm (s.buffer ++ s.held ++ s.store.flatMap Segment.events)
  calm : ∀ r ∈ s.rotations, ∀ panic, r.phase ≠ .panicked panic

/-! ### What holds on the way -/

section
variable {lib : Library} {e : WORMExporter} {s t : State}

theorem verifyEvents_chain {prev : Option AuditEvent} {events : List AuditEvent} (chain : List.IsChain Follows (prev.toList ++ events))
    (hashes : ∀ ev ∈ events, ev.hash = lib.computeEventHash ev e.secret) : verifyEvents lib e prev events = none := by
  induction events generalizing prev with
  | nil => rfl
  | cons ev rest ih =>
    obtain ⟨first,later⟩ := forall_mem_cons.mp hashes
    cases prev with
    | none =>
      rw [verifyEvents,if_neg (not_not.mpr first)]
      exact ih chain later
    | some before =>
      obtain ⟨linked,chain⟩ := isChain_cons_cons.mp chain
      rw [verifyEvents,if_neg (not_not.mpr first)]
      rw [if_neg (not_not.mpr (show ev.prevHash = before.hash from linked))]
      exact ih chain later

/-- The events stand in the order in which they were written: those that were taken, and the buffer. -/
structure Ordered (lib : Library) (e : WORMExporter) (s : State) : Prop where
  order : s.written = s.rotations.flatMap Rotation.events ++ s.buffer
  stored : (s.store.flatMap Segment.events).Perm ((s.rotations.filter (fun r => r.phase = .uploaded)).flatMap Rotation.events)
  chain : List.IsChain Follows s.written
  hashes : ∀ ev ∈ s.written, ev.hash = lib.computeEventHash ev e.secret
  calm : ∀ r ∈ s.rotations, ∀ panic, r.phase ≠ .panicked panic

theorem Ordered.intact (ordered : Ordered lib e s) : Intact s := by
  refine ⟨?_,ordered.calm⟩
  have progress : s.rotations.filter (fun r => r.phase.inProgress) = s.rotations.filter (fun r => !decide (r.phase = .uploaded)) := by
    refine filter_congr fun r listed => ?_
    have calm := ordered.calm r listed
    cases phase : r.phase <;> simp_all [Phase.inProgress]
  have parts := (filter_append_perm (fun r : Rotation => decide (r.phase = .uploaded)) s.rotations).flatMap_right Rotation.events
  rw [flatMap_append,← progress] at parts
  rw [ordered.order,append_assoc]
  calc s.rotations.flatMap Rotation.events ++ s.buffer
    _ |>.Perm (s.buffer ++ s.rotations.flatMap Rotation.events) := perm_append_comm
    _ |>.Perm _ := (parts.symm.trans (perm_append_comm.trans (ordered.stored.symm.append_left _))).append_left _

variable {n : Nat} {r : Rotation}

theorem rotations_split (found : s.rotations[n]? = some r) : ∃ front back, s.rotations = front ++ r :: back ∧ front.length = n := by
  obtain ⟨short,rfl⟩ := List.getElem?_eq_some_iff.mp found
  refine ⟨s.rotations.take n,s.rotations.drop (n+1),?_,by simp; omega⟩
  rw [getElem_cons_drop,take_append_drop]

section
variable (ordered : Ordered lib e s)
include ordered
theorem Ordered.goto {phase : Phase} {store : List Segment} (found : s.rotations[n]? = some r)
    (unfinished : r.phase ≠ .uploaded) (calm : ∀ panic, phase ≠ .panicked panic)
    (stored : store.flatMap Segment.events = s.store.flatMap Segment.events ++ if phase = .uploaded then r.events else []) :
    Ordered lib e { s.goto n r phase with store } := by
  obtain ⟨front,back,split_,rfl⟩ := rotations_split found
  have moved : s.rotations.set front.length { r with phase } = front ++ { r with phase } :: back := by rw [split_]; simp
  refine ⟨?_,?_,ordered.chain,ordered.hashes,?_⟩
  · rw [State.goto,ordered.order,split_]
    simp
  · rw [State.goto,moved,stored]
    have before := ordered.stored
    rw [split_,filter_append,filter_cons_of_neg (by simpa using unfinished),flatMap_append] at before
    rw [filter_append,flatMap_append]
    by_cases finished : phase = .uploaded
    · rw [if_pos finished,filter_cons_of_pos (by simpa using finished)]
      exact (before.append_right _).trans ((append_assoc ..).symm ▸ (perm_append_comm.append_left _))
    · rw [if_neg finished,filter_cons_of_neg (by simpa using finished),append_nil]
      exact before
  · rw [State.goto,moved]
    intro r' listed
    obtain old | rfl | old : r' ∈ front ∨ r' = { r with phase } ∨ r' ∈ back := by simpa using listed
    · exact ordered.calm r' (by rw [split_]; simp [old])
    · exact calm
    · exact ordered.calm r' (by rw [split_]; simp [old])
theorem Ordered.verified (found : s.rotations[n]? = some r) : verifyEvents lib e none r.events = none := by
  obtain ⟨front,back,split_,_⟩ := rotations_split found
  have parts : s.written = front.flatMap Rotation.events ++ (r.events ++ (back.flatMap Rotation.events ++ s.buffer)) := by
    rw [ordered.order,split_]
    simp
  have chain := ordered.chain
  have hashes := ordered.hashes
  rw [parts] at chain hashes
  exact verifyEvents_chain chain.right_of_append.left_of_append fun ev listed => hashes ev (by simp [listed])
theorem Ordered.restore (found : s.rotations[n]? = some r) (unfinished : r.phase ≠ .uploaded)
    (last : n+1 = s.rotations.length) : Ordered lib e { s with rotations := s.rotations.eraseIdx n, buffer := r.events ++ s.buffer } := by
  obtain ⟨front,back,split_,rfl⟩ := rotations_split found
  obtain rfl : back = [] := by
    rw [split_,length_append,length_cons] at last
    exact length_eq_zero_iff.mp (by omega)
  have erased : s.rotations.eraseIdx front.length = front := by rw [split_]; simp [eraseIdx_append_of_length_le]
  refine ⟨?_,?_,ordered.chain,ordered.hashes,?_⟩
  · rw [erased,ordered.order,split_]
    simp
  · have before := ordered.stored
    rw [split_,filter_append,filter_cons_of_neg (by simpa using unfinished),filter_nil,append_nil] at before
    rwa [erased]
  · rw [erased]
    exact fun r' listed => ordered.calm r' (by rw [split_]; simp [listed])
theorem Ordered.write {event : AuditEvent} (hash : event.hash = lib.computeEventHash event e.secret)
    (linked : ∀ last ∈ s.written.getLast?, Follows last event) (calls : Nat) :
    Ordered lib e { s with buffer := s.buffer ++ [event], written := s.written ++ [event], calls } := by
  refine ⟨?_,ordered.stored,?_,?_,ordered.calm⟩
  · rw [ordered.order,append_assoc]
  · exact isChain_append.mpr ⟨ordered.chain,isChain_singleton _,fun last found first begins => by cases begins; exact linked last found⟩
  · exact forall_mem_append.mpr ⟨ordered.hashes,by simpa using hash⟩
theorem Ordered.take (now : Int) (calls : Nat) :
    Ordered lib e { s with calls, buffer := [], lastExport := now, rotations := s.rotations ++ [⟨s.buffer,.verifying⟩] } := by
  refine ⟨?_,?_,ordered.chain,ordered.hashes,?_⟩
  · rw [ordered.order]
    simp
  · simpa using ordered.stored
  · refine forall_mem_append.mpr ⟨ordered.calm,?_⟩
    simp
private theorem ordered_step {a : Action} (chained : ChainOrder lib e s a) (inOrder : InOrder lib s a)
    (stepped : step lib e s a = some t) : Ordered lib e t := by
  cases a with
  | write event now =>
    cases stepped
    split
    · exact ordered.write chained.1 chained.2 _
    · exact ordered.write chained.1 chained.2 _
  | call =>
    cases stepped
    exact ⟨ordered.order,ordered.stored,ordered.chain,ordered.hashes,ordered.calm⟩
  | take now =>
    simp only [step] at stepped
    split_ifs at stepped with idle empty <;> cases stepped
    · exact ⟨ordered.order,ordered.stored,ordered.chain,ordered.hashes,ordered.calm⟩
    · exact ordered.take now _
  | verify n =>
    simp only [step] at stepped
    split at stepped <;> cases stepped
    next found =>
    refine ordered.goto found (by simp) ?_ ?_
    · simp [afterVerify,ordered.verified found]
    · simp [afterVerify,ordered.verified found]
  | sign n answer =>
    simp only [step] at stepped
    split at stepped <;> cases stepped
    next found =>
    refine ordered.goto found (by simp) ?_ ?_
    · unfold afterSign
      split <;> simp
    · unfold afterSign
      split <;> simp
  | upload n reply =>
    simp only [step] at stepped
    split at stepped <;> cases stepped
    next events payload signature found =>
    cases reply with
    | done =>
      refine ordered.goto found (by simp) (by simp [afterUpload,Reply.error]) ?_
      have new := inOrder.2 rfl _ found
      rw [if_pos (by rfl : Reply.effective .done = true),upload,filter_eq_self.mpr (by simpa using new)]
      simp [afterUpload,Reply.error]
    | failed message =>
      exact ordered.goto found (by simp) (by simp [afterUpload,Reply.error]) (by simp [afterUpload,Reply.error,Reply.effective])
    | lost message => exact absurd (inOrder.1 rfl) (by simp [Reply.effective])
  | restore n =>
    simp only [step] at stepped
    split at stepped <;> cases stepped
    next found => exact ordered.restore found (by simp) inOrder
end
end

/-- In a run in order, every event that was written in the order of the chain is in one place, and no rotation panics. -/
theorem export_intact {lib : Library} {e : WORMExporter} {now : Int} {s : State}
    (run : Reach (step lib e) (fun s a => ChainOrder lib e s a ∧ InOrder lib s a) (start now) s) : Intact s := by
  have empty : Ordered lib e (start now) := ⟨rfl,List.Perm.nil,isChain_nil,by simp [start],by simp [start]⟩
  have ordered : Ordered lib e s := run.invariant empty fun ordered allowed stepped => ordered_step ordered allowed.1 allowed.2 stepped
  exact ordered.intact

def requestHashes : Library := ⟨fun event _ => event.requestID,fun event => (event.requestID.headD 0).toNat⟩
def chained (n : UInt8) : AuditEvent := { zeroEvent with requestID := [n], prevHash := [n-1], hash := [n] }
def daily : WORMExporter := newWORMExporter 100 0 []

instance (s : State) (a : Action) : Decidable (ChainOrder requestHashes daily s a) :=
  match a with
  | .write event _ => inferInstanceAs (Decidable (_ = _ ∧ ∀ last ∈ s.written.getLast?, event.prevHash = last.hash))
  | .call | .take _ | .verify _ | .sign _ _ | .upload _ _ | .restore _ => .isTrue trivial
instance (lib : Library) (s : State) (a : Action) : Decidable (InOrder lib s a) := by
  unfold InOrder
  split <;> infer_instance

/-- A signing fails, its events are uploaded with a later event, and another segment follows. -/
theorem export_intact_retried : ∃ s, Reach (step requestHashes daily)
    (fun s a => ChainOrder requestHashes daily s a ∧ InOrder requestHashes s a) (start 0) s ∧
    s.store.map (fun segment => (segment.key,segment.events.map AuditEvent.hash)) =
      [("audit-1-2.json",[[1],[2]]),("audit-3-3.json",[[3]])] ∧ Intact s :=
  reach_seen [.write (chained 1) 0,.call,.take 0,.verify 0,.sign 0 (.error "timeout"),.write (chained 2) 0,.restore 0,.call,.take 0,
    .verify 0,.sign 0 (.ok []),.upload 0 .done,.write (chained 3) 0,.call,.take 0,.verify 1,.sign 1 (.ok []),.upload 1 .done]
    (by decide +kernel) (by decide +kernel) (fun _ run _ => export_intact run)

/-- A segment is put back after a later one was uploaded; the next rotation finds a gap. -/
theorem gap_panics : ¬ ∀ (lib : Library) (e : WORMExporter) (now : Int) (s : State), Reach (step lib e) (ChainOrder lib e) (start now) s → Intact s := by
  intro claim
  let actions : List Action :=
    [.write (chained 1) 0,.call,.take 0,.verify 0,.sign 0 (.ok []),.write (chained 2) 0,.call,.take 0,.verify 1,.sign 1 (.ok []),.upload 1 .done,
      .upload 0 (.failed "timeout"),.restore 0,.write (chained 3) 0,.call,.take 0,.verify 1]
  obtain ⟨s,ran,seen⟩ := run_seen (step requestHashes daily) (start 0) actions
    (fun s => ∃ r ∈ s.rotations, r.phase = .panicked (.chainGap [3] [2] [1])) (by decide +kernel)
  have run : Reach (step requestHashes daily) (ChainOrder requestHashes daily) (start 0) s := run_reach ran (by decide +kernel)
  obtain ⟨r,listed,panicked⟩ := seen
  exact (claim _ _ _ s run).calm r listed _ panicked

end Stellabill.AuditExport
