import Stellabill.OutboxCustody

/-!
The publishes of an event whose publishes all fail, counted against the retry
count of its row. Until the event is dead-lettered its row records every publish
but the one whose outcome is not stored yet.
-/
namespace Stellabill.OutboxTally
open Keyed Transitions Uuid Outbox Program Batches Table List
open OutboxWorkers OutboxCustody

variable {cfg : Config} {event : Event} {s t : State} {a : Action}

section
variable (cfg : Config) (event : Event)
def attempts : Int := max 1 (min event.maxRetries cfg.maxRetries)
structure Untried (event : Event) : Prop where
  status : event.status = .pending
  retryCount : event.retryCount = 0
  nextRetryAt : event.nextRetryAt = none
/-- All workers have the configuration, every publish of the event fails, every update takes effect, and its ID is its own. -/
def Failing (s : State) : Action → Prop
  | .store other => other.id = event.id → other = event
  | .start config => config = cfg
  | .publish id error => ∀ w ∈ s.workers.rows, w.id = id →
    w.phase.due.head?.all (fun first => first.id ≠ event.id ∨ error.isSome) = true
  | .update _ reply => reply.effective = true
  | _ => True

instance (s : State) (a : Action) : Decidable (Failing cfg event s a) := by
  rcases a <;> unfold Failing <;> infer_instance
end

/-- The row counts the times its event has been published. -/
structure Counted (cfg : Config) (event : Event) (s : State) (row : Event) : Prop where
  maxRetries : row.maxRetries = event.maxRetries
  nonneg : 0 ≤ row.retryCount
  below : row.retryCount < attempts cfg event
  first : row.retryCount = 0 → row.nextRetryAt = none
  later : row.status = .failed → row.nextRetryAt ≠ none
  notCompleted : row.status ≠ .completed
  unclaimed : row.status ≠ .processing → (s.published.count event.id : Int) = row.retryCount
  due : ∀ w ∈ s.workers, event.id ∈ w.phase.due.map Event.id → (s.published.count event.id : Int) = row.retryCount
  settling : ∀ w ∈ s.workers, event.id ∈ w.phase.settling.map Event.id → (s.published.count event.id : Int) = row.retryCount+1
  bound : (s.published.count event.id : Int) ≤ row.retryCount+1

structure Tally (cfg : Config) (event : Event) (s : State) : Prop where
  configs : ∀ w ∈ s.workers, w.config = cfg
  never : ∀ w ∈ s.workers, ∀ e rest, w.phase = .completing e rest → e.id ≠ event.id
  absent : ¬ Stored s.db event.id → s.published.count event.id = 0 ∧ event.id ∉ s.deadLettered
  counted : ∀ row ∈ s.db.events, row.id = event.id → event.id ∉ s.deadLettered → Counted cfg event s row
  dead : event.id ∈ s.deadLettered → attempts cfg event = 1 → s.published.count event.id = 1 ∧
    ∃ row ∈ s.db.events, row.id = event.id ∧ row.status = .failed ∧ row.nextRetryAt = none

/-- After the step no worker has come by the event. -/
structure Carries (cfg : Config) (id : UUID) (s t : State) : Prop where
  configs : ∀ w ∈ t.workers, w.config = cfg
  never : ∀ w ∈ t.workers, ∀ e rest, w.phase = .completing e rest → e.id ≠ id
  due : ∀ w ∈ t.workers, id ∈ w.phase.due.map Event.id → ∃ w' ∈ s.workers, id ∈ w'.phase.due.map Event.id
  settling : ∀ w ∈ t.workers, id ∈ w.phase.settling.map Event.id → ∃ w' ∈ s.workers, id ∈ w'.phase.settling.map Event.id

variable {w w' : OutboxWorker} {rest : List Event} {e : Event}

section
variable (tally : Tally cfg event s)
include tally
theorem never_set (workers : t.workers = s.workers.upsert w') (never : ∀ e rest, w'.phase = .completing e rest → e.id ≠ event.id) :
    ∀ o ∈ t.workers, ∀ e rest, o.phase = .completing e rest → e.id ≠ event.id := by
  rw [workers]
  intro o listed
  rcases mem_upsert.mp listed with rfl | ⟨old,_⟩
  · exact never
  · exact tally.never o old
section
variable (member : w ∈ s.workers)
include member
theorem configs_set (config : w'.config = w.config) (workers : t.workers = s.workers.upsert w') : ∀ o ∈ t.workers, o.config = cfg := by
  rw [workers]
  intro o listed
  rcases mem_upsert.mp listed with rfl | ⟨old,_⟩
  · exact config.trans (tally.configs w member)
  · exact tally.configs o old
theorem carries_set (config : w'.config = w.config)
    (workers : t.workers = s.workers.upsert w') (never : ∀ e rest, w'.phase = .completing e rest → e.id ≠ event.id)
    (due : event.id ∈ w'.phase.due.map Event.id → event.id ∈ w.phase.due.map Event.id)
    (settling : event.id ∈ w'.phase.settling.map Event.id → event.id ∈ w.phase.settling.map Event.id) : Carries cfg event.id s t := by
  refine ⟨configs_set tally member config workers,never_set tally workers never,?_,?_⟩ <;> rw [workers] <;> intro o listed <;>
    rcases mem_upsert.mp listed with rfl | ⟨old,_⟩
  · exact fun among => ⟨w,member,due among⟩
  · exact fun among => ⟨o,old,among⟩
  · exact fun among => ⟨w,member,settling among⟩
  · exact fun among => ⟨o,old,among⟩
theorem carries_idle (workers : t.workers = s.workers.upsert { w with phase := .idle }) :
    Carries cfg event.id s t :=
  carries_set tally member (show ({ w with phase := .idle } : OutboxWorker).config = w.config from rfl) workers
    (fun _ _ equal => by cases equal) nofun nofun
theorem carries_settled (due : w.phase.due = rest)
    (workers : t.workers = s.workers.upsert { w with phase := .proceed rest }) :
    Carries cfg event.id s t := by
  have config : ({ w with phase := .proceed rest } : OutboxWorker).config = w.config := rfl
  refine carries_set tally member config workers ?_ ?_ ?_
  · intro e rest' equal
    cases rest <;> cases equal
  · cases rest with
    | nil => intro none_; cases none_
    | cons first others => rw [due]; exact fun among => among
  · cases rest <;> intro none_ <;> cases none_
end
theorem carries_start (config : w'.config = cfg) (idle : w'.phase = .idle)
    (workers : t.workers = s.workers.upsert w') : Carries cfg event.id s t := by
  refine ⟨?_,never_set tally workers (fun _ _ equal => by rw [idle] at equal; cases equal),?_,?_⟩ <;> rw [workers] <;>
    intro o listed <;> rcases mem_upsert.mp listed with rfl | ⟨old,_⟩
  · exact config
  · exact tally.configs o old
  · rw [idle]; exact fun none_ => by cases none_
  · exact fun among => ⟨o,old,among⟩
  · rw [idle]; exact fun none_ => by cases none_
  · exact fun among => ⟨o,old,among⟩
theorem carries_subset (workers : ∀ w ∈ t.workers, w ∈ s.workers) : Carries cfg event.id s t :=
  ⟨fun w listed => tally.configs w (workers w listed),fun w listed => tally.never w (workers w listed),
    fun w listed among => ⟨w,workers w listed,among⟩,fun w listed among => ⟨w,workers w listed,among⟩⟩
private theorem tally_frame (carries : Carries cfg event.id s t) (published : t.published.count event.id = s.published.count event.id)
    (deadLettered : event.id ∈ t.deadLettered ↔ event.id ∈ s.deadLettered)
    (rows : ∀ row, row.id = event.id → (row ∈ t.db.events ↔ row ∈ s.db.events)) : Tally cfg event t := by
  have stored : Stored t.db event.id ↔ Stored s.db event.id := by
    constructor <;> rintro ⟨row,member,same⟩
    · exact ⟨row,(rows row same).mp member,same⟩
    · exact ⟨row,(rows row same).mpr member,same⟩
  refine ⟨carries.configs,carries.never,?_,?_,?_⟩
  · rw [stored,published,deadLettered]
    exact tally.absent
  · intro row member same alive
    rw [deadLettered] at alive
    have counted := tally.counted row ((rows row same).mp member) same alive
    refine ⟨counted.maxRetries,counted.nonneg,counted.below,counted.first,counted.later,counted.notCompleted,?_,?_,?_,?_⟩ <;>
      rw [published]
    · exact counted.unclaimed
    · intro w listed among
      obtain ⟨w',listed',among'⟩ := carries.due w listed among
      exact counted.due w' listed' among'
    · intro w listed among
      obtain ⟨w',listed',among'⟩ := carries.settling w listed among
      exact counted.settling w' listed' among'
    · exact counted.bound
  · rw [deadLettered,published]
    intro dead once
    obtain ⟨one,row,member,same,failed⟩ := tally.dead dead once
    exact ⟨one,row,(rows row same).mpr member,same,failed⟩
end

variable {row : Event} {phase : Phase} {id : UUID} {message : String}

private theorem claimed_row (custody : Custody s) (member : w ∈ s.workers) (holds : e ∈ w.phase.held) (stored : row ∈ s.db.events)
    (same : row.id = e.id) : Claimed row e := by
  obtain ⟨row',stored',claimed⟩ := custody.held w member e holds
  rwa [s.db.events.eq_of_key stored stored' (same.trans claimed.id.symm)]
theorem mem_hands_of_due (among : id ∈ phase.due.map Event.id) : id ∈ hands phase := by
  obtain ⟨e,listed,rfl⟩ := mem_map.mp among
  exact mem_hands_of_held (mem_append_right _ listed)
private theorem mem_hands_of_settling (among : id ∈ phase.settling.map Event.id) : id ∈ hands phase := by
  obtain ⟨e,listed,rfl⟩ := mem_map.mp among
  exact mem_hands_of_held (mem_append_left _ listed)

private theorem counted_retried {row' : Event} (counted : Counted cfg event s row)
    (recorded : (s.published.count event.id : Int) = row.retryCount+1) (published : t.published = s.published)
    (more : ¬ (row.retryCount+1 ≥ row.maxRetries ∨ row.retryCount+1 ≥ cfg.maxRetries)) (status : row'.status = .failed)
    (retryCount : row'.retryCount = row.retryCount+1) (maxRetries : row'.maxRetries = row.maxRetries)
    (nextRetryAt : row'.nextRetryAt ≠ none) (nobody : ∀ w ∈ t.workers, event.id ∉ hands w.phase) : Counted cfg event t row' := by
  have nonneg := counted.nonneg
  rw [counted.maxRetries] at more maxRetries
  refine ⟨maxRetries,by omega,?_,fun zero => by omega,fun _ => nextRetryAt,by simp [status],?_,?_,?_,?_⟩
  · rw [attempts]
    omega
  · rw [published,retryCount]
    exact fun _ => recorded
  · exact fun w listed among => absurd (mem_hands_of_due among) (nobody w listed)
  · exact fun w listed among => absurd (mem_hands_of_settling among) (nobody w listed)
  · rw [published]
    omega

section
variable (custody : Custody s) (tally : Tally cfg event s)
include custody tally

theorem tally_stored (untried : Untried event) {db : Tables} (accepted : store s.db event = some db) : Tally cfg event { s with db } := by
  obtain ⟨free,_,rows⟩ := store_some accepted
  obtain ⟨none_,alive⟩ := tally.absent free
  have nobody : ∀ w ∈ s.workers, event.id ∉ w.phase.held.map Event.id := by
    intro w member among
    obtain ⟨e,holds,same⟩ := mem_map.mp among
    obtain ⟨row,stored,claimed⟩ := custody.held w member e holds
    exact free ⟨row,stored,claimed.id.trans same⟩
  refine ⟨tally.configs,tally.never,?_,?_,fun dead => absurd dead alive⟩
  · exact fun absent => absurd ⟨_,(rows _).mpr (.inr rfl),rfl⟩ absent
  · intro row member same _
    rcases (rows row).mp member with old | rfl
    · exact absurd ⟨row,old,same⟩ free
    · have fresh : (s.published.count event.id : Int) = (inserted event).retryCount := by
        simp [none_,inserted,untried.retryCount]
      have zero : (inserted event).retryCount = 0 := untried.retryCount
      refine ⟨rfl,by rw [zero],?_,fun _ => untried.nextRetryAt,?_,?_,fun _ => fresh,fun _ _ _ => fresh,?_,?_⟩
      · rw [attempts]
        omega
      · simp [inserted,untried.status]
      · simp [inserted,untried.status]
      · intro w listed among
        obtain ⟨e,settles,same'⟩ := mem_map.mp among
        exact absurd (mem_map.mpr ⟨e,mem_append_left _ settles,same'⟩) (nobody w listed)
      · simp only
        omega

section
variable (member : w ∈ s.workers)
include member
theorem tally_marked {began : Time} {events : List Event} (phase : w.phase = .claiming began events) (config : w'.config = w.config) (working : w'.phase = .working events ∨ w'.phase = .idle)
    (among : event.id ∈ events.map Event.id) (workers : t.workers = s.workers.upsert w')
    (rows : t.db.events = markProcessing s.db.events (events.map Event.id) began) (published : t.published = s.published)
    (deadLettered : t.deadLettered = s.deadLettered) : Tally cfg event t := by
  obtain ⟨e,listed,same⟩ := mem_map.mp among
  obtain ⟨row,stored,copy,meets⟩ := custody.locked w member e (by rw [phase]; exact listed)
  have own : row.id = event.id := by rw [← same,← copy]; rfl
  have only : ∀ row' ∈ t.db.events, row'.id = event.id → row' = processing began row := by
    intro row' member' same'
    rw [rows] at member'
    obtain ⟨old,stored',rfl⟩ := mem_markProcessing.mp member'
    have equal : old = row := s.db.events.eq_of_key stored' stored (by rw [own,← same']; split <;> rfl)
    rw [equal,if_pos (own ▸ among)]
  have there : processing began row ∈ t.db.events := by
    rw [rows]
    exact mem_markProcessing.mpr ⟨row,stored,by rw [if_pos (own ▸ among)]⟩
  refine ⟨configs_set tally member config workers,never_set tally workers ?_,?_,?_,?_⟩
  · intro e rest equal
    rcases working with working | working <;> rw [working] at equal <;> cases equal
  · exact fun absent => absurd ⟨_,there,own⟩ absent
  · intro row' member' same' alive
    rw [deadLettered] at alive
    have counted := tally.counted row stored own alive
    have recorded : (t.published.count event.id : Int) = row.retryCount := by
      rw [published]
      refine counted.unclaimed (fun processing => ?_)
      simp [eligible,processing] at meets
    rw [only row' member' same']
    refine ⟨counted.maxRetries,counted.nonneg,counted.below,counted.first,by simp [processing],by simp [processing],
      by simp [processing],fun _ _ _ => recorded,?_,?_⟩
    · intro o listed' settles
      rw [workers] at listed'
      rcases mem_upsert.mp listed' with rfl | ⟨old,_⟩
      · rcases working with working | working <;> rw [working] at settles <;> cases settles
      · rw [published]
        exact counted.settling o old settles
    · simp only [processing]
      omega
  · rw [deadLettered]
    intro dead once
    obtain ⟨_,row',stored',same',failed,retry⟩ := tally.dead dead once
    rw [s.db.events.eq_of_key stored' stored (same'.trans own.symm)] at failed retry
    simp [eligible,failed,retry] at meets

private theorem tally_refused (phase : w.phase = .working (e :: rest)) (same : e.id = event.id) :
    Tally cfg event { s.set { w with phase := .failing e message rest } with published := e.id :: s.published } := by
  have holds : w.phase.held = e :: rest := by rw [phase]; rfl
  have claimed : ∀ row ∈ s.db.events, row.id = event.id → Claimed row e := fun row stored own =>
    claimed_row custody member (by rw [holds]; exact mem_cons_self) stored (own.trans same.symm)
  refine ⟨configs_set tally member (by rfl) rfl,never_set tally rfl (fun _ _ equal => by cases equal),?_,?_,?_⟩
  · intro absent
    obtain ⟨row,stored,copy⟩ := custody.held w member e (by rw [holds]; exact mem_cons_self)
    exact absurd ⟨row,stored,copy.id.trans same⟩ absent
  · intro row stored own alive
    have counted := tally.counted row stored own alive
    have before : (s.published.count event.id : Int) = row.retryCount :=
      counted.due w member (by rw [phase]; exact mem_map.mpr ⟨e,mem_cons_self,same⟩)
    have after : ((e.id :: s.published).count event.id : Int) = row.retryCount+1 := by
      rw [same,count_cons_self]
      omega
    refine ⟨counted.maxRetries,counted.nonneg,counted.below,counted.first,counted.later,counted.notCompleted,?_,?_,
      fun _ _ _ => after,Int.le_of_eq after⟩
    · exact fun unclaimed => absurd (claimed row stored own).status unclaimed
    · intro o listed among
      rw [← same] at among
      rcases mem_upsert.mp listed with rfl | ⟨old,different⟩
      · exact absurd among (rest_free custody member holds)
      · exact absurd (mem_hands_of_due among) (other_free custody member holds old different)
  · intro dead once
    obtain ⟨_,row,stored,own,failed,_⟩ := tally.dead dead once
    have processing := (claimed row stored own).status
    rw [failed] at processing
    cases processing

private theorem tally_failed (phase : w.phase = .failing e message rest) (same : e.id = event.id) :
    Tally cfg event { s.set { w with phase := .proceed rest } with
      db := { s.db with events := handleFailure w.config s.db.events e message s.now }
      deadLettered := if exhausted w.config e then e.id :: s.deadLettered else s.deadLettered } := by
  have holds : w.phase.held = e :: rest := by rw [phase]; rfl
  obtain ⟨row,stored,copy⟩ := custody.held w member e (by rw [holds]; exact mem_cons_self)
  have own : row.id = event.id := copy.id.trans same
  -- With a single attempt, a dead letter is not claimed, so the worker would not hold it.
  have alive : attempts cfg event = 1 → event.id ∉ s.deadLettered := by
    intro once dead
    obtain ⟨_,row',stored',own',failed,_⟩ := tally.dead dead once
    have processing := copy.status
    rw [← s.db.events.eq_of_key stored' stored (own'.trans own.symm),failed] at processing
    cases processing
  have nobody : ∀ o ∈ s.workers.upsert { w with phase := .proceed rest }, event.id ∉ hands o.phase := by
    intro o listed among
    rw [← same] at among
    rcases mem_upsert.mp listed with rfl | ⟨old,different⟩
    · rw [hands,locks_proceed,held_proceed] at among
      exact rest_free custody member holds among
    · exact other_free custody member holds old different among
  have used : exhausted w.config e = true ↔ row.retryCount+1 ≥ row.maxRetries ∨ row.retryCount+1 ≥ cfg.maxRetries := by
    simp only [exhausted,decide_eq_true_eq]
    rw [tally.configs w member,copy.retryCount,copy.maxRetries]
  have published : Counted cfg event s row → (s.published.count event.id : Int) = row.retryCount+1 := fun counted =>
    counted.settling w member (by rw [phase]; exact mem_map.mpr ⟨e,mem_cons_self,same⟩)
  refine ⟨configs_set tally member (by rfl) rfl,never_set tally rfl ?_,?_,?_,?_⟩
  · intro e' rest' equal
    cases rest <;> cases equal
  · refine fun absent => absurd ⟨_,mem_handleFailure.mpr ⟨row,stored,rfl⟩,?_⟩ absent
    rw [if_pos copy.id]
    exact own
  · intro row' member' own' alive'
    obtain ⟨old,stored',rfl⟩ := mem_handleFailure.mp member'
    have equal : old = row := s.db.events.eq_of_key stored' stored (by rw [own,← own']; split <;> rfl)
    rw [equal,if_pos copy.id]
    by_cases dead : exhausted w.config e = true
    · simp [dead,same] at alive'
    · rw [if_neg dead] at alive'
      have counted := tally.counted row stored own alive'
      have recorded := published counted
      exact counted_retried counted recorded rfl (fun most => dead (used.mpr most)) rfl (by rw [copy.retryCount]) rfl
        (by simp [dead]) nobody
  · intro dead' once
    have counted := tally.counted row stored own (alive once)
    have recorded := published counted
    have below := counted.below
    have nonneg := counted.nonneg
    have dead : exhausted w.config e = true := by
      by_contra more
      rw [if_neg more] at dead'
      exact alive once dead'
    have one : s.published.count event.id = 1 := by omega
    refine ⟨one,_,mem_handleFailure.mpr ⟨row,stored,rfl⟩,?_⟩
    rw [if_pos copy.id]
    refine ⟨own,rfl,?_⟩
    simp only [dead,if_true]
    exact counted.first (by omega)
end

/-! ### Every step -/

theorem tally_step (untried : Untried event) (failing : Failing cfg event s a) (effect : Effect s a t) : Tally cfg event t := by
  cases effect with
  | quiet => exact tally
  | @stored other db new accepted =>
    by_cases same : other.id = event.id
    · rw [failing same] at accepted
      exact tally_stored custody tally untried accepted
    · refine tally_frame tally (carries_subset tally (fun _ listed => listed)) rfl Iff.rfl (fun row own => ?_)
      rw [(store_some accepted).2.2 row]
      refine or_iff_left (fun equal => same ?_)
      rw [← own,equal]
      rfl
  | passed elapsed => exact tally_frame tally (carries_subset tally (fun _ listed => listed)) rfl Iff.rfl (fun _ _ => Iff.rfl)
  | started config =>
    exact tally_frame tally (carries_start tally (by exact failing) rfl rfl) rfl Iff.rfl (fun _ _ => Iff.rfl)
  | @stopped w member =>
    have carries : Carries cfg event.id s (s.set { w with cancelled := true }) :=
      carries_set tally member (by rfl) rfl (tally.never w member) (fun among => among) (fun among => among)
    exact tally_frame tally carries rfl Iff.rfl (fun _ _ => Iff.rfl)
  | exited member | crashed member =>
    exact tally_frame tally (carries_subset tally (fun _ listed => (mem_delete.mp listed).1)) rfl Iff.rfl
      (fun _ _ => Iff.rfl)
  | selected member idle selects =>
    exact tally_frame tally (carries_set tally member (by rfl) rfl (fun _ _ equal => by cases equal) nofun
      nofun) rfl Iff.rfl (fun _ _ => Iff.rfl)
  | @claimed w began events member phase =>
    by_cases among : event.id ∈ events.map Event.id
    · exact tally_marked custody tally member phase (by rfl) (.inl rfl) among rfl rfl rfl rfl
    · refine tally_frame tally (carries_set tally member (by rfl) rfl (fun _ _ equal => by cases equal)
        (fun due => absurd due among) nofun) rfl Iff.rfl (fun row own => ?_)
      exact mem_markProcessing_of_miss (own ▸ among)
  | @lost w began events message member phase =>
    by_cases among : event.id ∈ events.map Event.id
    · exact tally_marked custody tally member phase (by rfl) (.inr rfl) among rfl rfl rfl rfl
    · exact tally_frame tally (carries_idle tally member rfl) rfl Iff.rfl
        (fun row own => mem_markProcessing_of_miss (own ▸ among))
  | rolledBack member | returned member =>
    exact tally_frame tally (carries_idle tally member rfl) rfl Iff.rfl (fun _ _ => Iff.rfl)
  | @accepted w e rest member phase =>
    have other : e.id ≠ event.id := by
      have fails := failing w member rfl
      rw [phase] at fails
      simpa [Phase.due] using fails
    refine tally_frame tally (carries_set tally member (by rfl) rfl ?_ ?_ ?_) (count_cons_of_ne other) Iff.rfl
      (fun _ _ => Iff.rfl)
    · intro e' rest' equal
      cases equal
      exact other
    · rw [phase]
      exact fun among => mem_cons_of_mem _ among
    · exact fun among => absurd (mem_singleton.mp among).symm other
  | @refused w e rest message member phase =>
    by_cases same : e.id = event.id
    · exact tally_refused custody tally member phase same
    · refine tally_frame tally (carries_set tally member (by rfl) rfl (fun _ _ equal => by cases equal) ?_ ?_)
        (count_cons_of_ne same) Iff.rfl (fun _ _ => Iff.rfl)
      · rw [phase]
        exact fun among => mem_cons_of_mem _ among
      · exact fun among => absurd (mem_singleton.mp among).symm same
  | unrecorded member settling failed =>
    have effective : _ = true := failing
    rw [failed] at effective
    cases effective
  | @completed w e rest reply member phase =>
    have other := tally.never w member e rest phase
    exact tally_frame tally (carries_settled tally member (by rw [phase]; rfl) rfl) rfl Iff.rfl
      (fun row own => mem_markCompleted_of_miss (own ▸ other.symm))
  | @failed w e message rest reply member phase =>
    by_cases same : e.id = event.id
    · exact tally_failed custody tally member phase same
    · refine tally_frame tally (carries_settled tally member (by rw [phase]; rfl) rfl) rfl ?_
        (fun row own => mem_handleFailure_of_miss (own ▸ Ne.symm same))
      by_cases dead : exhausted w.config e = true
      · simp [dead,Ne.symm same]
      · simp [dead]
end
private theorem tally_init : Tally cfg event init :=
  ⟨forall_mem_empty,forall_mem_empty,
    fun _ => ⟨rfl,not_mem_nil⟩,forall_mem_empty,fun dead => absurd dead not_mem_nil⟩
theorem tally_run (untried : Untried event) (run : Reach step (Failing cfg event) init s) : Custody s ∧ Tally cfg event s :=
  run.invariant (I := fun s => Custody s ∧ Tally cfg event s) ⟨custody_init,tally_init⟩
    (fun ⟨custody,tally⟩ failing stepped => ⟨custody_step custody (step_effect stepped),
      tally_step custody tally untried failing (step_effect stepped)⟩)

end Stellabill.OutboxTally
