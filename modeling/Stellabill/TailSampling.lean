import Mathlib.Data.List.Flatten
import Stellabill.ByteStrings
import Stellabill.Calendar
import Stellabill.Keyed

/-!
Tail sampling of traces. The spans of a trace are buffered until its root ends, which decides
whether they are forwarded; the decision is remembered for spans that end later. Which decision
gives way to a new one, and the order in which traces expire, is left open.
-/
namespace Stellabill.TailSampling
open ByteStrings Calendar Keyed Transitions Table List

inductive AttributeValue
  | bool (b : Bool) | int64 (n : Int) | string (s : Bytes) | other
  deriving DecidableEq
inductive SpanKind
  | internal | server | client | producer | consumer
  deriving DecidableEq

abbrev TraceID := Nat

structure Span where
  spanID : Nat
  traceID : TraceID
  parentValid : Bool
  kind : SpanKind
  startTime : Int
  endTime : Int
  statusError : Bool
  attributes : List (Bytes × AttributeValue)
  events : List Bytes
  deriving DecidableEq

structure TailConfig where
  latency : Int
  maxTraces : Nat
  maxSpans : Nat
  decisionWindow : Int

def isDecisionRoot (span : Span) : Bool := !span.parentValid || span.kind = .server
def headSampledAttribute : Bytes := text "tracing.tail.head_sampled"
def headSampled (spans : List Span) : Bool := spans.any fun span => span.attributes.any fun attr => attr.1 = headSampledAttribute ∧ attr.2 = .bool true
def toLower (key : Bytes) : Bytes := key.map fun byte => if 0x41 ≤ byte ∧ byte ≤ 0x5A then byte+0x20 else byte
def errorValue : AttributeValue → Bool
  | .bool b => b
  | .string s => s ≠ []
  | _ => true
def hasErrorSignal (span : Span) : Bool :=
  (span.attributes.any fun attr =>
    (toLower attr.1 = text "error" ∨ toLower attr.1 = text "error.type" ∨ (text "error.").isPrefixOf (toLower attr.1)) ∧ errorValue attr.2) ||
  span.events.any fun name => name = text "exception"
def failedStatus (attr : Bytes × AttributeValue) : Bool :=
  match attr.2 with
  | .int64 n => (attr.1 = text "http.response.status_code" ∨ attr.1 = text "http.status_code") ∧ 500 ≤ n
  | _ => false
def shouldKeep (cfg : TailConfig) (root : Span) : Bool :=
  headSampled [root] || cfg.latency ≤ since root.endTime root.startTime || (root.statusError || hasErrorSignal root) || root.attributes.any failedStatus

structure BufferedTrace where
  traceID : TraceID
  spans : List Span
  firstSeen : Int
structure TraceDecision where
  traceID : TraceID
  keep : Bool
  expiresAt : Int

abbrev Traces := Table BufferedTrace.traceID
abbrev Decisions := Table TraceDecision.traceID

/-- The processor, the spans forwarded, all spans that have ended, and those that ended before the shutdown. -/
structure State where
  traces : Traces
  decisions : Decisions
  order : List TraceID
  stopped : Bool
  forwarded : List Span
  ended : List Span
  timely : List Span

def start : State := ⟨.empty,.empty,[],false,[],[],[]⟩

/-- For each trace whose decision is added, which one is dropped if there are too many. -/
abbrev Choice := TraceID → Nat

def evictDecision (decisions : Decisions) (i : Nat) : Decisions :=
  match decisions.rows[i % decisions.rows.length]? with
  | some candidate => decisions.delete fun d => d.traceID = candidate.traceID
  | none => decisions
def forward (s : State) (spans : List Span) : State := { s with forwarded := s.forwarded ++ spans }

section
variable (cfg : TailConfig) (choice : Choice)

variable (s : State)
def addDecision (traceID : TraceID) (keep : Bool) (now : Int) : State :=
  let decisions :=
    if s.decisions.find traceID = none ∧ cfg.maxTraces ≤ s.decisions.rows.length then evictDecision s.decisions (choice traceID) else s.decisions
  { s with decisions := decisions.upsert ⟨traceID,keep,now+cfg.decisionWindow⟩ }
def removeTrace (traceID : TraceID) : State :=
  match s.traces.find traceID with
  | some _ => { s with traces := s.traces.delete fun buffer => buffer.traceID = traceID, order := s.order.erase traceID }
  | none => s
def evictOldest (now : Int) : State :=
  match s.order with
  | [] => s
  | traceID :: _ => addDecision cfg choice (removeTrace s traceID) traceID false now
/-- A buffer for the trace, which may push out the oldest; `evictedAt` is the time that is read for it. -/
def newBuffer (traceID : TraceID) (now evictedAt : Int) : State :=
  let s := if cfg.maxTraces ≤ s.traces.rows.length then evictOldest cfg choice s evictedAt else s
  { s with traces := s.traces.upsert ⟨traceID,[],now⟩, order := s.order ++ [traceID] }
/-- A span is buffered if there is room; a root takes the place of the last. -/
def bufferSpan (spans : List Span) (span : Span) : List Span :=
  if spans.length < cfg.maxSpans then spans ++ [span]
  else if isDecisionRoot span then spans.dropLast ++ [span]
  else spans
def buffered (span : Span) : State :=
  match s.traces.find span.traceID with
  | some buffer => { s with traces := s.traces.upsert { buffer with spans := bufferSpan cfg buffer.spans span } }
  | none => s
def decideTrace (root : Span) (now : Int) : State :=
  let spans := ((s.traces.find root.traceID).map BufferedTrace.spans).getD []
  let s := addDecision cfg choice (removeTrace s root.traceID) root.traceID (shouldKeep cfg root) now
  if shouldKeep cfg root then forward s spans else s
def onEnd (span : Span) (now evictedAt : Int) : State :=
  if s.stopped then { s with ended := span :: s.ended }
  else
    let s := { s with ended := span :: s.ended, timely := span :: s.timely }
    match s.decisions.find span.traceID with
    | some decision =>
      if !decision.keep && isDecisionRoot span && shouldKeep cfg span then forward (addDecision cfg choice s span.traceID true now) [span]
      else if decision.keep then forward s [span]
      else s
    | none =>
      let s := if s.traces.find span.traceID = none then newBuffer cfg choice s span.traceID now evictedAt else s
      let s := buffered cfg s span
      if isDecisionRoot span then decideTrace cfg choice s span now else s

/-- One trace expires; what is retained is forwarded at the end, and nothing else before it. -/
def expireTrace (now : Int) (all : Bool) (s : State) (traceID : TraceID) : State :=
  match s.traces.find traceID with
  | none => s
  | some buffer =>
    if !all && since now buffer.firstSeen < cfg.decisionWindow then s
    else
      let s := removeTrace (addDecision cfg choice s traceID (headSampled buffer.spans) now) traceID
      if headSampled buffer.spans then forward s buffer.spans else s
/-- `expire`, over the traces in the order in which the map gives them. -/
def expire (order : List TraceID) (now : Int) (all : Bool) : State :=
  let s := order.foldl (expireTrace cfg choice now all) s
  { s with decisions := s.decisions.delete fun d => all || !(now < d.expiresAt) }

inductive Action
  | onEnd (span : Span) (now evictedAt : Int) (choice : Choice)
  | expire (order : List TraceID) (now : Int) (all : Bool) (choice : Choice)
  | shutdown
end

/-- Spans end, traces expire (all for `ForceFlush` and at the end of `Shutdown`), and the processor is stopped. -/
def step (cfg : TailConfig) (s : State) : Action → Option State
  | .onEnd span now evictedAt choice => some (onEnd cfg choice s span now evictedAt)
  | .expire order now all choice =>
    if order.isPerm (s.traces.rows.map BufferedTrace.traceID) then some (expire cfg choice s order now all) else none
  | .shutdown => some { s with stopped := true }

/-- Every span ends once. -/
def EndedOnce (s : State) : Action → Prop
  | .onEnd span _ _ _ => span ∉ s.ended
  | _ => True

instance (s : State) : (a : Action) → Decidable (EndedOnce s a)
  | .onEnd .. => inferInstanceAs (Decidable (_ ∉ _))
  | .expire .. => .isTrue trivial
  | .shutdown => .isTrue trivial

/-! ### The bounds -/

def State.held (s : State) : List Span := s.traces.rows.flatMap BufferedTrace.spans

/-- The bounds, the list of traces, and that no trace is both buffered and decided. -/
structure Core (cfg : TailConfig) (s : State) : Prop where
  fewTraces : s.traces.rows.length ≤ cfg.maxTraces
  fewDecisions : s.decisions.rows.length ≤ cfg.maxTraces
  fewSpans : ∀ buffer ∈ s.traces, buffer.spans.length ≤ cfg.maxSpans
  ordered : s.order.Perm (s.traces.rows.map BufferedTrace.traceID)
  apart : ∀ buffer ∈ s.traces, ∀ d ∈ s.decisions, d.traceID ≠ buffer.traceID

section
variable {cfg : TailConfig} {choice : Choice} {s t : State} {traceID : TraceID} {now : Int} {keep : Bool} {buffer : BufferedTrace}
  {decisions : Decisions} {d : TraceDecision} {evictedAt : Int} {span : Span}

private theorem mem_evictDecision {i : Nat} (listed : d ∈ evictDecision decisions i) : d ∈ decisions := by
  unfold evictDecision at listed
  split at listed
  · exact (mem_delete.mp listed).1
  · exact listed
private theorem length_evictDecision (i : Nat) (present : 0 < decisions.rows.length) :
    (evictDecision decisions i).rows.length+1 = decisions.rows.length := by
  have inside : i % decisions.rows.length < decisions.rows.length := Nat.mod_lt _ present
  have parts := (decisions.rows_delete (getElem_mem inside)).length_eq
  unfold evictDecision
  rw [getElem?_eq_getElem inside]
  exact parts.symm
theorem mem_addDecision (listed : d ∈ (addDecision cfg choice s traceID keep now).decisions) : d ∈ s.decisions ∨ d.traceID = traceID := by
  obtain rfl | ⟨old,_⟩ := mem_upsert.mp listed
  · exact .inr rfl
  · split at old
    · exact .inl (mem_evictDecision old)
    · exact .inl old
private theorem length_addDecision (positive : 1 ≤ cfg.maxTraces) (few : s.decisions.rows.length ≤ cfg.maxTraces) :
    (addDecision cfg choice s traceID keep now).decisions.rows.length ≤ cfg.maxTraces := by
  unfold addDecision
  by_cases full : s.decisions.find traceID = none ∧ cfg.maxTraces ≤ s.decisions.rows.length
  · have shorter := length_evictDecision (choice traceID) (Nat.lt_of_lt_of_le positive full.2)
    have longer := length_upsert_le (evictDecision s.decisions (choice traceID)) ⟨traceID,keep,now+cfg.decisionWindow⟩
    simp only [full,and_self,↓reduceIte]
    omega
  · simp only [full,↓reduceIte]
    cases found : s.decisions.find traceID with
    | none =>
      have room : ¬ cfg.maxTraces ≤ s.decisions.rows.length := fun long => full ⟨found,long⟩
      have longer := length_upsert_le s.decisions ⟨traceID,keep,now+cfg.decisionWindow⟩
      omega
    | some d =>
      obtain ⟨member,rfl⟩ := s.decisions.find_some.mp found
      refine Nat.le_trans (Nat.le_of_eq (length_upsert member ?_)) few
      rfl
theorem Core.addDecision (positive : 1 ≤ cfg.maxTraces) (core : Core cfg s) (absent : ∀ buffer ∈ s.traces, buffer.traceID ≠ traceID) :
    Core cfg (addDecision cfg choice s traceID keep now) := by
  refine ⟨core.fewTraces,length_addDecision positive core.fewDecisions,core.fewSpans,core.ordered,?_⟩
  intro buffer present d listed
  obtain old | rfl := mem_addDecision listed
  · exact core.apart buffer present d old
  · exact (absent buffer present).symm

theorem removeTrace_absent : ∀ buffer ∈ (removeTrace s traceID).traces, buffer.traceID ≠ traceID := by
  intro buffer present
  unfold removeTrace at present
  split at present
  · simpa using (mem_delete.mp present).2
  · next missing => exact s.traces.find_none.mp missing buffer present
theorem mem_removeTrace (present : buffer ∈ (removeTrace s traceID).traces) : buffer ∈ s.traces := by
  unfold removeTrace at present
  split at present
  · exact (mem_delete.mp present).1
  · exact present
theorem rows_removeTrace (found : s.traces.find traceID = some buffer) :
    s.traces.rows.Perm (buffer :: (removeTrace s traceID).traces.rows) ∧ (removeTrace s traceID).order = s.order.erase traceID := by
  obtain ⟨member,rfl⟩ := s.traces.find_some.mp found
  rw [removeTrace,found]
  exact ⟨s.traces.rows_delete member,rfl⟩
theorem Core.removeTrace (core : Core cfg s) (traceID : TraceID) : Core cfg (removeTrace s traceID) := by
  cases found : s.traces.find traceID with
  | none =>
    rw [TailSampling.removeTrace,found]
    exact core
  | some buffer =>
    obtain ⟨rows,order⟩ := rows_removeTrace found
    have decisions : (TailSampling.removeTrace s traceID).decisions = s.decisions := by rw [TailSampling.removeTrace,found]
    have its := (s.traces.find_some.mp found).2
    refine ⟨?_,by rw [decisions]; exact core.fewDecisions,fun b present => core.fewSpans b (mem_removeTrace present),?_,?_⟩
    · have lengths := rows.length_eq
      have few := core.fewTraces
      rw [length_cons] at lengths
      omega
    · have erased := (core.ordered.trans (rows.map _)).erase buffer.traceID
      rw [map_cons,erase_cons_head,its] at erased
      rw [order]
      exact erased
    · intro b present d listed
      rw [decisions] at listed
      exact core.apart b (mem_removeTrace present) d listed

theorem mem_evictOldest (present : buffer ∈ (evictOldest cfg choice s now).traces) : buffer ∈ s.traces := by
  unfold evictOldest at present
  split at present
  · exact present
  · exact mem_removeTrace present
section
variable (positive : 1 ≤ cfg.maxTraces) (core : Core cfg s)
include positive core
theorem Core.evictOldest (now : Int) : Core cfg (evictOldest cfg choice s now) := by
  unfold TailSampling.evictOldest
  split
  · exact core
  · exact (core.removeTrace _).addDecision positive removeTrace_absent
theorem evictOldest_room (full : cfg.maxTraces ≤ s.traces.rows.length) :
    (evictOldest cfg choice s now).traces.rows.length < cfg.maxTraces ∧
      ∀ d ∈ (evictOldest cfg choice s now).decisions, d ∈ s.decisions ∨ ∃ b ∈ s.traces, b.traceID = d.traceID := by
  have ordered := core.ordered
  have few := core.fewTraces
  unfold evictOldest
  cases order : s.order with
  | nil =>
    rw [order] at ordered
    have lengths := ordered.length_eq
    rw [length_nil,length_map] at lengths
    omega
  | cons traceID rest =>
    have listed : traceID ∈ s.traces.rows.map BufferedTrace.traceID := ordered.subset (by rw [order]; exact mem_cons_self)
    obtain ⟨b,member,its⟩ := mem_map.mp listed
    have found := s.traces.find_some.mpr ⟨member,its⟩
    obtain ⟨rows,_⟩ := rows_removeTrace found
    constructor
    · have lengths := rows.length_eq
      rw [length_cons] at lengths
      show (removeTrace s traceID).traces.rows.length < _
      omega
    · intro d present
      obtain old | same := mem_addDecision present
      · refine .inl ?_
        rwa [removeTrace,found] at old
      · exact .inr ⟨b,member,its.trans same.symm⟩
structure Room (cfg : TailConfig) (s : State) (traceID : TraceID) : Prop where
  core : Core cfg s
  room : s.traces.rows.length < cfg.maxTraces
  absent : ∀ b ∈ s.traces, b.traceID ≠ traceID
  undecided : ∀ d ∈ s.decisions, d.traceID ≠ traceID

theorem Core.room (absent : s.traces.find traceID = none) (undecided : s.decisions.find traceID = none) (now : Int) :
    Room cfg (if cfg.maxTraces ≤ s.traces.rows.length then TailSampling.evictOldest cfg choice s now else s) traceID := by
  have absent := s.traces.find_none.mp absent
  have undecided := s.decisions.find_none.mp undecided
  by_cases full : cfg.maxTraces ≤ s.traces.rows.length
  · obtain ⟨room,known⟩ := @evictOldest_room cfg choice s now positive core full
    rw [if_pos full]
    refine ⟨core.evictOldest positive now,room,fun b present => absent b (mem_evictOldest present),fun d present => ?_⟩
    obtain old | ⟨b,member,its⟩ := known d present
    · exact undecided d old
    · rw [← its]
      exact absent b member
  · rw [if_neg full]
    exact ⟨core,Nat.lt_of_not_le full,absent,undecided⟩
end
theorem Room.put (room : Room cfg s traceID) (now : Int) :
    Core cfg { s with traces := s.traces.upsert ⟨traceID,[],now⟩, order := s.order ++ [traceID] } := by
  have rows := upsert_absent (r := (⟨traceID,[],now⟩ : BufferedTrace)) room.absent
  refine ⟨?_,room.core.fewDecisions,?_,?_,?_⟩
  · have few := room.room
    rw [rows,length_append,length_singleton]
    omega
  · exact forall_upsert (Nat.zero_le _) room.core.fewSpans
  · rw [rows,map_append]
    exact room.core.ordered.append_right _
  · exact forall_upsert room.undecided room.core.apart
private theorem length_bufferSpan {spans : List Span} (positive : 1 ≤ cfg.maxSpans) (few : spans.length ≤ cfg.maxSpans) (span : Span) :
    (bufferSpan cfg spans span).length ≤ cfg.maxSpans := by
  unfold bufferSpan
  split
  · next room =>
    rw [length_append,length_singleton]
    omega
  · split
    · rw [length_append,length_singleton,length_dropLast]
      omega
    · exact few
theorem Core.buffered (positive : 1 ≤ cfg.maxSpans) (core : Core cfg s) (span : Span) : Core cfg (buffered cfg s span) := by
  unfold TailSampling.buffered
  split
  · next buffer found =>
    obtain ⟨member,its⟩ := s.traces.find_some.mp found
    refine ⟨?_,core.fewDecisions,?_,?_,?_⟩
    · refine Nat.le_trans (Nat.le_of_eq (length_upsert member ?_)) core.fewTraces
      rfl
    · exact forall_upsert (length_bufferSpan positive (core.fewSpans buffer member) span) core.fewSpans
    · refine core.ordered.trans (((rows_delete member).map _).trans ?_)
      exact ((upsert_delete s.traces { buffer with spans := bufferSpan cfg buffer.spans span }).map BufferedTrace.traceID).symm
    · exact forall_upsert (core.apart buffer member) core.apart
  · exact core
theorem forward_core (core : Core cfg s) (spans : List Span) : Core cfg (forward s spans) := ⟨core.1,core.2,core.3,core.4,core.5⟩
theorem removeTrace_addDecision : removeTrace (addDecision cfg choice s traceID keep now) traceID =
    addDecision cfg choice (removeTrace s traceID) traceID keep now := by
  unfold removeTrace
  cases found : s.traces.find traceID with
  | none | some => simp only [addDecision,found]
section
variable (positive : 1 ≤ cfg.maxTraces) (core : Core cfg s)
include positive core
theorem Core.newBuffer (absent : s.traces.find traceID = none) (undecided : s.decisions.find traceID = none) (now evictedAt : Int) : Core cfg (newBuffer cfg choice s traceID now evictedAt) :=
  (core.room positive absent undecided evictedAt).put now
theorem Core.decideTrace (root : Span) (now : Int) : Core cfg (decideTrace cfg choice s root now) := by
  have decided : Core cfg (TailSampling.addDecision cfg choice (TailSampling.removeTrace s root.traceID) root.traceID (shouldKeep cfg root) now) :=
    (core.removeTrace root.traceID).addDecision positive removeTrace_absent
  unfold TailSampling.decideTrace
  split
  · exact forward_core decided _
  · exact decided
theorem Core.expireTrace (now : Int) (all : Bool) (traceID : TraceID) : Core cfg (expireTrace cfg choice now all s traceID) := by
  unfold TailSampling.expireTrace
  split
  · exact core
  · next buffer _ =>
    have decided : Core cfg (TailSampling.addDecision cfg choice (TailSampling.removeTrace s traceID) traceID (headSampled buffer.spans) now) :=
      (core.removeTrace traceID).addDecision positive removeTrace_absent
    rw [removeTrace_addDecision]
    split
    · exact core
    · split
      · exact forward_core decided _
      · exact decided
theorem Core.onEnd (positive' : 1 ≤ cfg.maxSpans) (span : Span) (now evictedAt : Int) :
    Core cfg (onEnd cfg choice s span now evictedAt) := by
  have counted (ended timely : List Span) : Core cfg { s with ended, timely } := ⟨core.1,core.2,core.3,core.4,core.5⟩
  unfold TailSampling.onEnd
  split
  · exact counted _ s.timely
  have counted := counted (span :: s.ended) (span :: s.timely)
  dsimp only
  split
  · next decision found =>
    obtain ⟨member,its⟩ := s.decisions.find_some.mp found
    -- The trace is decided, so it is not buffered.
    have absent : ∀ b ∈ s.traces, b.traceID ≠ span.traceID := fun b present same => core.apart b present decision member (its.trans same.symm)
    split
    · exact forward_core (counted.addDecision positive absent) _
    split
    · exact forward_core counted _
    · exact counted
  · next undecided =>
    have inside : Core cfg (if s.traces.find span.traceID = none
        then TailSampling.newBuffer cfg choice { s with ended := span :: s.ended, timely := span :: s.timely } span.traceID now evictedAt
        else { s with ended := span :: s.ended, timely := span :: s.timely }) := by
      split
      · next absent => exact counted.newBuffer positive absent undecided now evictedAt
      · exact counted
    split
    · exact (inside.buffered positive' span).decideTrace positive span now
    · exact inside.buffered positive' span
theorem Core.expire (order : List TraceID) (now : Int) (all : Bool) : Core cfg (expire cfg choice s order now all) := by
  have expired : Core cfg (order.foldl (TailSampling.expireTrace cfg choice now all) s) := by
    induction order generalizing s with
    | nil => exact core
    | cons traceID rest ih => exact ih (core.expireTrace positive now all traceID)
  refine ⟨expired.fewTraces,?_,expired.fewSpans,expired.ordered,?_⟩
  · exact Nat.le_trans (length_filter_le ..) expired.fewDecisions
  · intro b present d listed
    exact expired.apart b present d (mem_delete.mp listed).1
end

/-! ### The spans -/

/-- The spans that have been forwarded and those that may still be. -/
def State.outstanding (s : State) : List Span := s.forwarded ++ s.held

/-- What an operation does with spans: it may take in `new` ones, and forward and drop some. -/
structure Moves (new : List Span) (s t : State) : Prop where
  ended : t.ended = s.ended
  timely : t.timely = s.timely
  grown : s.forwarded ⊆ t.forwarded
  outstanding : t.outstanding.Subperm (new ++ s.outstanding)

theorem Moves.refl (s : State) : Moves [] s s := ⟨rfl,rfl,List.Subset.refl _,List.Subperm.refl _⟩
theorem Moves.trans {new new' : List Span} {u : State} (first : Moves new s t) (second : Moves new' t u) : Moves (new' ++ new) s u := by
  refine ⟨second.ended.trans first.ended,second.timely.trans first.timely,List.Subset.trans first.grown second.grown,
    second.outstanding.trans ?_⟩
  rw [append_assoc]
  exact (subperm_append_left _).mpr first.outstanding
theorem moves_addDecision : Moves [] s (addDecision cfg choice s traceID keep now) := ⟨rfl,rfl,List.Subset.refl _,List.Subperm.refl _⟩
theorem moves_forward (span : Span) : Moves [span] s (forward s [span]) := by
  refine ⟨rfl,rfl,subset_append_left ..,List.Perm.subperm ?_⟩
  show (s.forwarded ++ [span] ++ s.held).Perm (span :: (s.forwarded ++ s.held))
  rw [append_assoc]
  exact perm_middle

theorem held_upsert (traces : Traces) (buffer : BufferedTrace) : ((traces.upsert buffer).rows.flatMap BufferedTrace.spans).Perm
      (buffer.spans ++ (traces.delete fun b => b.traceID = buffer.traceID).rows.flatMap BufferedTrace.spans) := by
  have parts := (upsert_delete traces buffer).flatMap_right BufferedTrace.spans
  rwa [flatMap_cons] at parts
private theorem bufferSpan_subperm (spans : List Span) (span : Span) : (bufferSpan cfg spans span).Subperm (span :: spans) := by
  unfold bufferSpan
  split
  · exact (perm_append_singleton span spans).subperm
  split
  · exact (perm_append_singleton span spans.dropLast).subperm.trans ((dropLast_sublist spans).cons_cons span).subperm
  · exact (sublist_cons_self span spans).subperm
theorem moves_buffered (span : Span) : Moves [span] s (buffered cfg s span) := by
  unfold buffered
  split
  · next buffer found =>
    refine ⟨rfl,rfl,List.Subset.refl _,?_⟩
    obtain ⟨member,_⟩ := s.traces.find_some.mp found
    have others := (rows_delete member).flatMap_right BufferedTrace.spans
    have added : State.held { s with traces := s.traces.upsert { buffer with spans := bufferSpan cfg buffer.spans span } } |>.Subperm
        (span :: s.held) := by
      refine (held_upsert ..).subperm.trans ?_
      refine ((subperm_append_right _).mpr (bufferSpan_subperm buffer.spans span)).trans ?_
      exact (others.symm.cons span).subperm
    refine ((subperm_append_left s.forwarded).mpr added).trans ?_
    exact perm_middle.subperm
  · exact ⟨rfl,rfl,List.Subset.refl _,(sublist_cons_self ..).subperm⟩
section
variable (found : s.traces.find traceID = some buffer)
include found
private theorem held_removeTrace : s.held.Perm (buffer.spans ++ (removeTrace s traceID).held) := by
  have parts := (rows_removeTrace found).1.flatMap_right BufferedTrace.spans
  rwa [flatMap_cons] at parts
theorem moves_removeTrace (keep : Bool) :
    Moves [] s (if keep then forward (removeTrace s traceID) buffer.spans else removeTrace s traceID) := by
  have parts := (held_removeTrace found).append_left s.forwarded
  have removed : removeTrace s traceID = { s with traces := s.traces.delete fun b => b.traceID = traceID, order := s.order.erase traceID } := by
    rw [removeTrace,found]
  rw [removed] at parts ⊢
  cases keep with
  | true =>
    refine ⟨rfl,rfl,subset_append_left ..,?_⟩
    rw [← append_assoc] at parts
    exact parts.symm.subperm
  | false =>
    refine ⟨rfl,rfl,List.Subset.refl _,?_⟩
    exact ((subperm_append_left _).mpr (sublist_append_right ..).subperm).trans parts.symm.subperm
theorem moves_settle :
    Moves [] s (if keep then forward (addDecision cfg choice (removeTrace s traceID) traceID keep now) buffer.spans
      else addDecision cfg choice (removeTrace s traceID) traceID keep now) := by
  cases keep with
  | true => exact (moves_removeTrace found true).trans moves_addDecision
  | false => exact (moves_removeTrace found false).trans moves_addDecision
end
private theorem moves_evictOldest : Moves [] s (evictOldest cfg choice s now) := by
  unfold evictOldest
  split
  · exact .refl s
  · next traceID _ _ =>
    refine Moves.trans ?_ moves_addDecision
    cases found : s.traces.find traceID with
    | none =>
      rw [removeTrace,found]
      exact .refl s
    | some buffer => exact moves_removeTrace found false
private theorem moves_newBuffer : Moves [] s (newBuffer cfg choice s traceID now evictedAt) := by
  have room : Moves [] s (if cfg.maxTraces ≤ s.traces.rows.length then evictOldest cfg choice s evictedAt else s) := by
    split
    · exact moves_evictOldest
    · exact .refl s
  unfold newBuffer
  generalize (if cfg.maxTraces ≤ s.traces.rows.length then evictOldest cfg choice s evictedAt else s) = r at room
  have put : Moves [] r { r with traces := r.traces.upsert ⟨traceID,[],now⟩, order := r.order ++ [traceID] } := by
    refine ⟨rfl,rfl,List.Subset.refl _,(subperm_append_left _).mpr ?_⟩
    refine (held_upsert r.traces ⟨traceID,[],now⟩).subperm.trans ?_
    exact (filter_sublist.flatMap BufferedTrace.spans).subperm
  exact room.trans put
private theorem moves_expireTrace (all : Bool) (traceID : TraceID) : Moves [] s (expireTrace cfg choice now all s traceID) := by
  unfold expireTrace
  split
  · exact .refl s
  · next buffer found =>
    rw [removeTrace_addDecision]
    split
    · exact .refl s
    · exact moves_settle found
theorem moves_expire (order : List TraceID) (all : Bool) : Moves [] s (expire cfg choice s order now all) := by
  have expired : Moves [] s (order.foldl (expireTrace cfg choice now all) s) := by
    induction order generalizing s with
    | nil => exact .refl s
    | cons traceID rest ih => exact (moves_expireTrace all traceID).trans ih
  exact ⟨expired.ended,expired.timely,expired.grown,expired.outstanding⟩

def stored (cfg : TailConfig) (choice : Choice) (s : State) (span : Span) (now evictedAt : Int) : State :=
  buffered cfg (if s.traces.find span.traceID = none then newBuffer cfg choice s span.traceID now evictedAt else s) span

private theorem moves_stored (span : Span) : Moves [span] s (stored cfg choice s span now evictedAt) := by
  have inside : Moves [] s (if s.traces.find span.traceID = none then newBuffer cfg choice s span.traceID now evictedAt else s) := by
    split
    · exact moves_newBuffer
    · exact .refl s
  exact inside.trans (moves_buffered span)
private theorem mem_bufferSpan (spans : List Span) (root : isDecisionRoot span) : span ∈ bufferSpan cfg spans span := by
  unfold bufferSpan
  split <;> exact mem_append_right _ (mem_singleton_self span)
theorem stored_found (s : State) (span : Span) :
    ∃ b, (stored cfg choice s span now evictedAt).traces.find span.traceID = some b ∧ (isDecisionRoot span → span ∈ b.spans) := by
  unfold stored
  obtain ⟨b,found⟩ : ∃ b,
      (if s.traces.find span.traceID = none then newBuffer cfg choice s span.traceID now evictedAt else s).traces.find span.traceID = some b := by
    split
    · refine ⟨⟨span.traceID,[],now⟩,?_⟩
      rw [newBuffer,find_upsert,if_pos rfl]
    · next present => exact Option.ne_none_iff_exists'.mp present
  have its := ((find_some _).mp found).2
  rw [buffered,found]
  refine ⟨{ b with spans := bufferSpan cfg b.spans span },?_,mem_bufferSpan b.spans⟩
  rw [find_upsert,if_pos its.symm]
theorem moves_onEnd (running : s.stopped = false) (span : Span) :
    Moves [span] { s with ended := span :: s.ended, timely := span :: s.timely } (onEnd cfg choice s span now evictedAt) := by
  unfold onEnd
  rw [if_neg (by simp [running])]
  generalize { s with ended := span :: s.ended, timely := span :: s.timely } = r
  have dropped : Moves [span] r r := ⟨rfl,rfl,List.Subset.refl _,(sublist_cons_self ..).subperm⟩
  dsimp only
  split
  · split
    · exact moves_addDecision.trans (moves_forward span)
    split
    · exact moves_forward span
    · exact dropped
  · have taken : Moves [span] r (stored cfg choice r span now evictedAt) := moves_stored span
    obtain ⟨b,found,_⟩ := @stored_found cfg choice now evictedAt r span
    have settled : Moves [] (stored cfg choice r span now evictedAt) (decideTrace cfg choice (stored cfg choice r span now evictedAt) span now) := by
      unfold decideTrace
      rw [found]
      exact moves_settle found
    split
    · exact taken.trans settled
    · exact taken
theorem onEnd_forwards (running : s.stopped = false) (root : isDecisionRoot span) (keep : shouldKeep cfg span) :
    span ∈ (onEnd cfg choice s span now evictedAt).forwarded := by
  unfold onEnd
  rw [if_neg (by simp [running])]
  generalize { s with ended := span :: s.ended, timely := span :: s.timely } = r
  have last (spans : List Span) : span ∈ spans ++ [span] := mem_append_right _ (mem_singleton_self span)
  dsimp only
  split
  · next decision _ =>
    cases earlier : decision.keep with
    | true =>
      exact last _
    | false =>
      simp only [root,keep,Bool.not_false,Bool.and_self,↓reduceIte]
      exact last _
  · obtain ⟨b,found,mem⟩ := @stored_found cfg choice now evictedAt r span
    rw [if_pos root]
    show span ∈ (decideTrace cfg choice (stored cfg choice r span now evictedAt) span now).forwarded
    rw [decideTrace,found]
    simp only [keep,↓reduceIte]
    exact mem_append_right _ (mem root)

/-- The bounds, and that the spans forwarded or still to be have ended and are counted once. -/
structure Inv (cfg : TailConfig) (s : State) : Prop where
  core : Core cfg s
  once : s.ended.Nodup
  known : s.outstanding.Subperm s.ended
  kept : ∀ span ∈ s.timely, isDecisionRoot span → shouldKeep cfg span → span ∈ s.forwarded

theorem inv_start : Inv cfg start where
  core := ⟨Nat.zero_le _,Nat.zero_le _,nofun,.nil,nofun⟩
  once := .nil
  known := .refl _
  kept := by rintro _ ⟨⟩
theorem Moves.inv (inv : Inv cfg s) (core : Core cfg t) (moves : Moves [] s t) : Inv cfg t where
  core := core
  once := by
    rw [moves.ended]
    exact inv.once
  known := by
    rw [moves.ended]
    exact moves.outstanding.trans inv.known
  kept := by
    rw [moves.timely]
    exact fun span timely root keep => moves.grown (inv.kept span timely root keep)
private theorem inv_onEnd (positive : 1 ≤ cfg.maxTraces) (positive' : 1 ≤ cfg.maxSpans) (inv : Inv cfg s) (new : span ∉ s.ended)
    (now evictedAt : Int) : Inv cfg (onEnd cfg choice s span now evictedAt) := by
  have once : (span :: s.ended).Nodup := nodup_cons.mpr ⟨new,inv.once⟩
  have core : Core cfg (onEnd cfg choice s span now evictedAt) := inv.core.onEnd positive positive' span now evictedAt
  cases running : s.stopped with
  | true =>
    have stopped : onEnd cfg choice s span now evictedAt = { s with ended := span :: s.ended } := by simp only [onEnd,running,↓reduceIte]
    rw [stopped] at core ⊢
    exact ⟨core,once,inv.known.trans (sublist_cons_self ..).subperm,inv.kept⟩
  | false =>
    have moves : Moves [span] _ (onEnd cfg choice s span now evictedAt) := moves_onEnd running span
    refine ⟨core,?_,?_,?_⟩
    · rw [moves.ended]
      exact once
    · rw [moves.ended]
      exact moves.outstanding.trans ((subperm_cons span).mpr inv.known)
    · rw [moves.timely]
      intro other timely root keep
      obtain rfl | earlier := mem_cons.mp timely
      · exact onEnd_forwards running root keep
      · exact moves.grown (inv.kept other earlier root keep)
theorem inv_step (positive : 1 ≤ cfg.maxTraces) (positive' : 1 ≤ cfg.maxSpans) {a : Action} (inv : Inv cfg s) (allowed : EndedOnce s a)
    (stepped : step cfg s a = some t) : Inv cfg t := by
  cases a with
  | onEnd span now evictedAt choice =>
    cases stepped
    exact inv_onEnd positive positive' inv allowed now evictedAt
  | expire order now all choice =>
    rw [step] at stepped
    split at stepped <;> cases stepped
    exact (moves_expire order all).inv inv (inv.core.expire positive order now all)
  | shutdown =>
    cases stepped
    exact ⟨⟨inv.core.1,inv.core.2,inv.core.3,inv.core.4,inv.core.5⟩,inv.once,inv.known,inv.kept⟩

end

/-- Where a span ends once, the tables are bounded, the list has the buffered traces once each, none of them decided, no
    span is forwarded twice, and every root to be kept has been forwarded if it ended before the shutdown. -/
theorem tail_sampling_sound (cfg : TailConfig) (positive : 1 ≤ cfg.maxTraces) (positive' : 1 ≤ cfg.maxSpans) (s : State)
    (run : Reach (step cfg) EndedOnce start s) : s.traces.rows.length ≤ cfg.maxTraces ∧ s.decisions.rows.length ≤ cfg.maxTraces ∧
      (∀ buffer ∈ s.traces, buffer.spans.length ≤ cfg.maxSpans) ∧
      s.order.Nodup ∧ (∀ traceID, traceID ∈ s.order ↔ ∃ buffer ∈ s.traces, buffer.traceID = traceID) ∧
      (∀ buffer ∈ s.traces, s.decisions.find buffer.traceID = none) ∧ s.forwarded.Nodup ∧
      ∀ span ∈ s.timely, isDecisionRoot span → shouldKeep cfg span → span ∈ s.forwarded := by
  have inv : Inv cfg s := run.invariant inv_start fun inv allowed stepped => inv_step positive positive' inv allowed stepped
  have core := inv.core
  refine ⟨core.fewTraces,core.fewDecisions,core.fewSpans,core.ordered.symm.nodup s.traces.unique,?_,?_,?_,inv.kept⟩
  · intro traceID
    rw [core.ordered.mem_iff,mem_map]
    exact Iff.rfl
  · exact fun buffer present => s.decisions.find_none.mpr (core.apart buffer present)
  · obtain ⟨spans,same,among⟩ := inv.known
    exact (nodup_append.mp (same.nodup (among.nodup inv.once))).1

/-- Room for one trace with one span, and a root is kept from 500 nanoseconds on. -/
def small : TailConfig := ⟨500,1,1,10⟩
def request (spanID : Nat) (traceID : TraceID) (parentValid : Bool) (length : Int) : Span :=
  ⟨spanID,traceID,parentValid,.internal,0,length,false,[],[]⟩

/-- A slow root takes the place of its child; a trace gives way to a new one, and its late root is kept. -/
theorem tail_sampling_sound_small : ∃ s, Reach (step small) EndedOnce start s ∧
    s.forwarded = [request 2 1 false 500,request 5 2 false 700] ∧ s.timely.length = 5 ∧ s.order = [3] ∧ s.forwarded.Nodup := by
  let actions : List Action :=
    [.onEnd (request 1 1 true 1) 0 0 (fun _ => 0),.onEnd (request 2 1 false 500) 0 0 (fun _ => 0),.onEnd (request 3 2 true 1) 1 1 (fun _ => 0),
      .onEnd (request 4 3 true 1) 2 2 (fun _ => 0),.onEnd (request 5 2 false 700) 3 3 (fun _ => 0)]
  refine exists_reach actions
    (fun s => s.forwarded = [request 2 1 false 500,request 5 2 false 700] ∧ s.timely.length = 5 ∧ s.order = [3]) (by decide +kernel)
    (by decide +kernel) ?_
  rintro s run ⟨forwarded,timely,order⟩
  exact ⟨forwarded,timely,order,(tail_sampling_sound small (by decide) (by decide) s run).2.2.2.2.2.2.1⟩

end Stellabill.TailSampling
