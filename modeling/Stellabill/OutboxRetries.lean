import Stellabill.OutboxClaims
import Stellabill.OutboxTally

/-!
How often an event is published whose publishes all fail. The update that
dead-letters an event leaves the `next_retry_at` of the last retry in its row, so
the query of `claimBatch` finds the event again.
-/
namespace Stellabill.OutboxRetries
open Keyed Transitions Uuid Outbox Program Batches
open OutboxWorkers OutboxClaims OutboxCustody OutboxTally

variable {cfg : Config} {event : Event} {s t : State} {a : Action}

/-- The event is never published more often than it should be, exactly so often once it is dead-lettered and no longer
    claimed, and until then it is with a worker or will be claimed. -/
structure PublishedExactly (cfg : Config) (event : Event) : Prop where
  atMost : ∀ s, Reach step (Failing cfg event) init s → (s.published.count event.id : Int) ≤ attempts cfg event
  exactly : ∀ s, Reach step (Failing cfg event) init s → event.id ∈ s.deadLettered →
    (s.published.count event.id : Int) = attempts cfg event
  final : ∀ s t, Reach step (Failing cfg event) init s → Reach step (Failing cfg event) s t → event.id ∈ s.deadLettered →
    t.claimed.count event.id = s.claimed.count event.id
  goesOn : ∀ s, Reach step (fun s a => Failing cfg event s a ∧ Handled s a) init s → Stored s.db event.id →
    event.id ∉ s.deadLettered → (∃ w ∈ s.workers, event.id ∈ w.phase.held.map Event.id) ∨
      WillReturn cfg.batchSize s.db.events s.now event.id

theorem claimed_step (custody : Custody s) (tally : Tally cfg event s) (once : attempts cfg event = 1)
    (dead : event.id ∈ s.deadLettered) (effect : Effect s a t) : t.claimed.count event.id = s.claimed.count event.id := by
  cases effect with
  | @claimed w began events member phase =>
    obtain ⟨_,row,stored,same,failed,retry⟩ := tally.dead dead once
    have free : event.id ∉ events.map Event.id := by
      intro among
      obtain ⟨e,listed,same'⟩ := List.mem_map.mp among
      obtain ⟨row',stored',copy,meets⟩ := custody.locked w member e (by rw [phase]; exact listed)
      have equal : row' = row := s.db.events.eq_of_key stored' stored (by rw [same,← same',← copy]; rfl)
      rw [equal] at meets
      simp [eligible,failed,retry] at meets
    simp [List.count_append,List.count_eq_zero.mpr free]
  | quiet | stored | passed | started | stopped | exited | crashed | selected | lost | rolledBack | returned | accepted | refused
  | unrecorded | completed | failed => rfl
private theorem deadLettered_step (effect : Effect s a t) (dead : event.id ∈ s.deadLettered) : event.id ∈ t.deadLettered := by
  cases effect with
  | @failed w e message rest reply member phase =>
    by_cases more : exhausted w.config e = true
    · simp [more,dead]
    · simp [more,dead]
  | quiet | stored | passed | started | stopped | exited | crashed | selected | claimed | lost | rolledBack | returned | accepted
  | refused | unrecorded | completed => exact dead
section
variable (untried : Untried event) (once : attempts cfg event = 1)
include untried once
theorem published_atMost (run : Reach step (Failing cfg event) init s) : (s.published.count event.id : Int) ≤ attempts cfg event := by
  obtain ⟨_,tally⟩ := tally_run untried run
  by_cases dead : event.id ∈ s.deadLettered
  · have one := (tally.dead dead once).1
    omega
  · by_cases stored : Stored s.db event.id
    · obtain ⟨row,member,same⟩ := stored
      have counted := tally.counted row member same dead
      have bound := counted.bound
      have below := counted.below
      omega
    · have none_ := (tally.absent stored).1
      omega
private theorem claimed_final (before : Reach step (Failing cfg event) init s)
    (after : Reach step (Failing cfg event) s t) (dead : event.id ∈ s.deadLettered) :
    t.claimed.count event.id = s.claimed.count event.id := by
  have kept := after.invariant (I := fun t => (Custody t ∧ Tally cfg event t) ∧ event.id ∈ t.deadLettered ∧
      t.claimed.count event.id = s.claimed.count event.id) ⟨tally_run untried before,dead,rfl⟩
    (fun ⟨⟨custody,tally⟩,dead,count⟩ failing stepped => by
      have effect := step_effect stepped
      exact ⟨⟨custody_step custody effect,tally_step custody tally untried failing effect⟩,deadLettered_step effect dead,
        (claimed_step custody tally once dead effect).trans count⟩)
  exact kept.2.2
theorem published_exactly (positive : 0 < cfg.batchSize) : PublishedExactly cfg event := by
  refine ⟨fun s run => published_atMost untried once run,?_,fun s t => claimed_final untried once,?_⟩
  · intro s run dead
    have one := ((tally_run untried run).2.dead dead once).1
    omega
  · intro s run stored alive
    obtain ⟨row,member,same⟩ := stored
    obtain ⟨_,tally⟩ := tally_run untried (run.mono (fun _ _ both => both.1))
    have counted := tally.counted row member same alive
    rcases accounted_of_owned (owned_run (fun _ _ both => both.2) run) member with completed | ⟨failed,retry⟩ | held | returned
    · exact absurd completed counted.notCompleted
    · exact absurd retry (counted.later failed)
    · exact .inl (same ▸ held)
    · exact .inr (same ▸ returned cfg.batchSize positive)
end

/-! ### An event that is retried -/

structure Alone (cfg : Config) (phase : Phase) (s : State) (row : Event) : Prop where
  rows : s.db.events.rows = [row]
  workers : s.workers.rows = [⟨0,cfg,false,phase⟩]

variable {row : Event}

theorem alone_found {phase : Phase} (alone : Alone cfg phase s row) : s.workers.find 0 = some ⟨0,cfg,false,phase⟩ := by
  refine s.workers.find_some.mpr ⟨?_,rfl⟩
  rw [Table.mem_def,alone.workers]
  exact List.mem_singleton_self _
theorem alone_select (alone : Alone cfg .idle s row) (positive : 0 < cfg.batchSize) (meets : eligible s.now row = true) :
    ∃ t, step s (.select 0 [row]) = some t ∧ Alone cfg (.claiming s.now [scanOutboxEvent row]) t row ∧ t.now = s.now ∧
      t.claimed = s.claimed ∧ t.deadLettered = s.deadLettered := by
  have free : claimable s row = true := by simp [claimable,meets,alone.workers,Phase.locks]
  have selects : Selects s.db.events (claimable s) Event.occurredAt cfg.batchSize.toNat [row] := by
    have one : min cfg.batchSize.toNat 1 = 1 := by omega
    simp [Selects,alone.rows,free,one]
  refine ⟨s.set ⟨0,cfg,false,.claiming s.now [scanOutboxEvent row]⟩,?_,⟨alone.rows,?_⟩,rfl,rfl,rfl⟩
  · simp only [step,alone_found alone,Option.bind_some]
    exact if_pos ⟨trivial,trivial,selects⟩
  · exact Table.upsert_single alone.workers rfl
private theorem alone_commit {event : Event} {began : Time} (alone : Alone cfg (.claiming began [event]) s row) (same : event.id = row.id) :
    ∃ t, step s (.commit 0 .done) = some t ∧ Alone cfg (.working [event]) t (processing began row) ∧ t.now = s.now ∧
      t.claimed = row.id :: s.claimed ∧ t.deadLettered = s.deadLettered := by
  refine ⟨commit s ⟨0,cfg,false,.claiming began [event]⟩ began [event] .done,?_,⟨?_,?_⟩,rfl,?_,rfl⟩
  · simp only [step,alone_found alone,Option.bind_some]
  · simp [commit,markProcessing,mark,Table.update_single alone.rows,same]
  · exact Table.upsert_single alone.workers rfl
  · simp [commit,same]
private theorem alone_publish {event : Event} (message : String) (alone : Alone cfg (.working [event]) s row) :
    ∃ t, step s (.publish 0 (some message)) = some t ∧ Alone cfg (.failing event message []) t row ∧ t.now = s.now ∧
      t.claimed = s.claimed ∧ t.deadLettered = s.deadLettered := by
  refine ⟨publish s ⟨0,cfg,false,.working [event]⟩ event [] (some message),?_,⟨alone.rows,?_⟩,rfl,rfl,rfl⟩
  · simp only [step,alone_found alone,Option.bind_some]
  · exact Table.upsert_single alone.workers rfl

theorem alone_update {event : Event} {message : String} (alone : Alone cfg (.failing event message []) s row) (same : event.id = row.id) :
    ∃ t row', step s (.update 0 .done) = some t ∧ Alone cfg .idle t row' ∧ t.now = s.now ∧ t.claimed = s.claimed ∧
      t.deadLettered = (if exhausted cfg event then row.id :: s.deadLettered else s.deadLettered) ∧ row'.id = row.id ∧
      row'.status = .failed ∧ row'.retryCount = event.retryCount+1 ∧ row'.maxRetries = row.maxRetries ∧
      row'.nextRetryAt = if exhausted cfg event then row.nextRetryAt else some (s.now + backoff cfg (event.retryCount+1)) := by
  have moved := Table.upsert_single alone.workers (show (⟨0,cfg,false,.idle⟩ : OutboxWorker).id = 0 from rfl)
  have took : step s (.update 0 .done) = some (fail s ⟨0,cfg,false,.failing event message []⟩ event message [] .done) := by
    simp only [step,alone_found alone,Option.bind_some]
  refine ⟨_,{ row with
    status := .failed, retryCount := event.retryCount+1, errorMessage := some message, updatedAt := s.now
    nextRetryAt := if exhausted cfg event then row.nextRetryAt else some (s.now + backoff cfg (event.retryCount+1)) },took,⟨?_,moved⟩,
    rfl,rfl,?_,rfl,rfl,rfl,rfl,rfl⟩
  · cases dead : exhausted cfg event <;>
      simp [fail,handleFailure,Reply.effective,State.set,dead,Table.update_single alone.rows,same]
  · cases dead : exhausted cfg event <;> simp [fail,Reply.effective,State.set,dead,same]
theorem alone_attempt (event : Event) (alone : Alone cfg .idle s row) (positive : 0 < cfg.batchSize) (meets : eligible s.now row = true) :
    ∃ t row', Reach step (Failing cfg event) s t ∧ Alone cfg .idle t row' ∧ t.now = s.now ∧ t.claimed = row.id :: s.claimed ∧
      t.deadLettered = (if exhausted cfg row then row.id :: s.deadLettered else s.deadLettered) ∧ row'.id = row.id ∧
      row'.status = .failed ∧ row'.retryCount = row.retryCount+1 ∧ row'.maxRetries = row.maxRetries ∧
      row'.nextRetryAt = if exhausted cfg row then row.nextRetryAt else some (s.now + backoff cfg (row.retryCount+1)) := by
  obtain ⟨s1,step1,alone1,now1,claimed1,dead1⟩ := alone_select alone positive meets
  obtain ⟨s2,step2,alone2,now2,claimed2,dead2⟩ := alone_commit alone1 rfl
  obtain ⟨s3,step3,alone3,now3,claimed3,dead3⟩ := alone_publish "unreachable" alone2
  obtain ⟨s4,row',step4,alone4,now4,claimed4,dead4,facts⟩ := alone_update alone3 rfl
  have run : Reach step (Failing cfg event) s s4 :=
    (((Reach.start.next trivial step1).next trivial step2).next (fun w _ _ => by
      cases w.phase.due.head? <;> simp) step3).next (by rfl) step4
  refine ⟨s4,row',run,alone4,by rw [now4,now3,now2,now1],by rw [claimed4,claimed3,claimed2,claimed1],?_,?_⟩
  · rw [dead4,dead3,dead2,dead1]
    rfl
  · rw [now3,now2,now1] at facts
    exact facts

theorem alone_wait (event : Event) (alone : Alone cfg .idle s row) (failed : row.status = .failed) (retry : row.nextRetryAt ≠ none) :
    ∃ t, Reach step (Failing cfg event) s t ∧ Alone cfg .idle t row ∧ eligible t.now row = true := by
  obtain ⟨due,at_⟩ := Option.ne_none_iff_exists'.mp retry
  have reaches : ∀ a b : Int, a ≤ b + (a-b).toNat := by omega
  have past := reaches due s.now
  refine ⟨{ s with now := s.now + (due-s.now).toNat },Reach.start.next (a := .advance (due-s.now).toNat) trivial rfl,
    ⟨alone.rows,alone.workers⟩,?_⟩
  simpa [eligible,failed,at_] using past

section
variable (untried : Untried event)
include untried
theorem alone_stored (cfg : Config) :
    ∃ s, Reach step (fun s a => Failing cfg event s a ∧ Handled s a) init s ∧ Alone cfg .idle s (inserted event) ∧
      s.deadLettered = [] := by
  have accepted : step init (.store event) = some { init with db := ⟨⟨[inserted event],by simp⟩,fun _ => none⟩ } := by
    simp [step,untried.status,store,Table.insert,init,Tables.empty,Table.empty]
  exact ⟨_,(Reach.start.next ⟨fun _ => rfl,trivial⟩ accepted).next (a := .start cfg) ⟨rfl,trivial⟩ rfl,⟨rfl,rfl⟩,rfl⟩
theorem batchSize_positive (bounded : PublishedExactly cfg event) : 0 < cfg.batchSize := by
  by_contra none_
  obtain ⟨s,run,alone,alive⟩ := alone_stored untried cfg
  have stored : Stored s.db event.id := ⟨inserted event,by rw [Table.mem_def,alone.rows]; exact List.mem_singleton_self _,rfl⟩
  rcases bounded.goesOn s run stored (by simp [alive]) with ⟨w,member,holds⟩ | returned
  · rw [Table.mem_def,alone.workers] at member
    rw [List.mem_singleton.mp member] at holds
    cases holds
  · exact not_willReturn (.inl (by omega)) returned
variable (positive : 0 < cfg.batchSize)
include positive
private theorem alone_retried (count : Nat) (more : (count+1 : Int) < min event.maxRetries cfg.maxRetries) :
    ∃ s row, Reach step (Failing cfg event) init s ∧ Alone cfg .idle s row ∧ row.id = event.id ∧ row.status = .failed ∧
      row.retryCount = count+1 ∧ row.maxRetries = event.maxRetries ∧ row.nextRetryAt ≠ none := by
  induction count with
  | zero =>
    obtain ⟨s,run,alone,_⟩ := alone_stored untried cfg
    have meets : eligible s.now (inserted event) = true := by simp [eligible,inserted,untried.status]
    obtain ⟨t,row,attempted,alone',_,_,_,same,failed,retryCount,maxRetries,retry⟩ := alone_attempt event alone positive meets
    have zero : (inserted event).retryCount = 0 := untried.retryCount
    have left : exhausted cfg (inserted event) = false := by
      simp only [exhausted,zero,decide_eq_false_iff_not]
      have max : (inserted event).maxRetries = event.maxRetries := rfl
      omega
    refine ⟨t,row,(run.mono (fun _ _ both => both.1)).trans attempted,alone',same,failed,?_,maxRetries,?_⟩
    · rw [retryCount,zero]
      rfl
    · rw [retry,left]
      simp
  | succ count ih =>
    obtain ⟨s,row,run,alone,same,failed,retryCount,maxRetries,retry⟩ := ih (by omega)
    obtain ⟨s',waited,alone',meets⟩ := alone_wait event alone failed retry
    obtain ⟨t,row',attempted,alone'',_,_,_,same',failed',retryCount',maxRetries',retry'⟩ :=
      alone_attempt event alone' positive meets
    have left : exhausted cfg row = false := by
      simp only [exhausted,retryCount,maxRetries,decide_eq_false_iff_not]
      omega
    refine ⟨t,row',(run.trans waited).trans attempted,alone'',same'.trans same,failed',?_,maxRetries'.trans maxRetries,?_⟩
    · rw [retryCount',retryCount]
      rfl
    · rw [retry',left]
      simp
private theorem claimed_again (retried : 1 < min event.maxRetries cfg.maxRetries) :
    ∃ s t, Reach step (Failing cfg event) init s ∧ Reach step (Failing cfg event) s t ∧ event.id ∈ s.deadLettered ∧
      t.claimed.count event.id = s.claimed.count event.id + 1 := by
  obtain ⟨s,row,run,alone,same,failed,retryCount,maxRetries,retry⟩ :=
    alone_retried untried positive (min event.maxRetries cfg.maxRetries - 2).toNat (by omega)
  obtain ⟨s',waited,alone',meets⟩ := alone_wait event alone failed retry
  obtain ⟨t,row',attempted,alone'',now,_,dead,same',failed',_,_,retry'⟩ := alone_attempt event alone' positive meets
  have last : exhausted cfg row = true := by
    simp only [exhausted,retryCount,maxRetries,decide_eq_true_eq]
    omega
  rw [last] at dead retry'
  -- The dead letter kept the `next_retry_at` by which this last attempt was claimed.
  have meets' : eligible t.now row' = true := by
    rw [now]
    simpa [eligible,failed,failed',retry'] using meets
  obtain ⟨u,_,again,_,_,claimed,_⟩ := alone_attempt event alone'' positive meets'
  refine ⟨t,u,(run.trans waited).trans attempted,again,by rw [dead,same]; exact List.mem_cons_self,?_⟩
  rw [claimed,same',same,List.count_cons_self]

end

/-- An event whose publishes all fail is published exactly as often as it should be if and only if it is dead-lettered
    at its first failure and events are claimed at all. -/
theorem published_exactly_iff (cfg : Config) (event : Event) (untried : Untried event) :
    PublishedExactly cfg event ↔ 0 < cfg.batchSize ∧ min event.maxRetries cfg.maxRetries ≤ 1 := by
  constructor
  · intro bounded
    have positive := batchSize_positive untried bounded
    refine ⟨positive,?_⟩
    by_contra retried
    obtain ⟨s,t,before,after,dead,again⟩ := claimed_again untried positive (by omega)
    have final := bounded.final s t before after dead
    omega
  · rintro ⟨positive,once⟩
    refine published_exactly untried ?_ positive
    rw [attempts]
    omega

def failedRow (retryCount : Int) (nextRetryAt updatedAt : Time) : Event :=
  { created with
    status := .failed, retryCount, nextRetryAt := some nextRetryAt, errorMessage := some "unreachable", updatedAt }
def attempt (row : Event) : List Action := [.select 0 [row],.commit 0 .done,.publish 0 (some "unreachable"),.update 0 .done]
/-- Three failures dead-letter the event, and it is claimed and published a fourth time. -/
def fourTimes : List Action :=
  [.store created,.start defaults] ++ attempt created ++ [.advance 1000000000] ++ attempt (failedRow 1 1000000000 0) ++
    [.advance 2000000000] ++ attempt (failedRow 2 3000000000 1000000000) ++ attempt (failedRow 3 3000000000 3000000000)
theorem published_again : ¬ ∀ (cfg : Config) (event : Event), Untried event → PublishedExactly cfg event := by
  intro claim
  obtain ⟨s,ran,four⟩ := run_seen step init fourTimes (fun s => s.published.count created.id = 4) (by decide +kernel)
  have reached : Reach step (Failing defaults created) init s := run_reach ran (by decide +kernel)
  have bound := (claim defaults created ⟨rfl,rfl,rfl⟩).atMost s reached
  have three : attempts defaults created = 3 := by decide
  omega
theorem published_exactly_iff_once : Untried { created with maxRetries := 1 } ∧
    PublishedExactly defaults { created with maxRetries := 1 } :=
  ⟨⟨rfl,rfl,rfl⟩,(published_exactly_iff defaults { created with maxRetries := 1 } ⟨rfl,rfl,rfl⟩).mpr ⟨by decide,by decide⟩⟩

end Stellabill.OutboxRetries
