import Stellabill.CachedSubscriptions
import Stellabill.StatusChanges

/-!
What the finds return after an update. A find that has loaded a row before it is
updated may store it after the update has deleted the keys, and with a later instant
of its own: from then on the cache serves the old status.
-/
namespace Stellabill.CachedReads
open Keyed Transitions Program Subscriptions CachedSubscriptions Function
open StatusChanges (activeRow activeRows)

def Current (log : List Event) (row : SubscriptionRow) : Prop := ∀ n u, lastWrite row log = some (n,u) → row.status = u.status
/-- The row has the status of its last write where that update had returned before `started` ends. -/
def Fresh (log started : List Event) (row : SubscriptionRow) : Prop :=
  ∀ n u, lastWrite row log = some (n,u) → .returned n u ∈ started → row.status = u.status
/-- The update has yet to delete the key, or it has returned an error. -/
def Owes : Phase → Update → String → Prop
  | .updating u .deleteKey, u', _ => u' = u
  | .updating u .deleteTenantKey, u', k => u' = u ∧ k = tenantCacheKey u.id u.tenantID
  | .failed _, _, _ => True
  | _, _, _ => False
/-- What a find knows at a stage: its lock and the row it has. -/
def InHand (s : State) (n : Nat) (q : Query) (started : List Event) : FindStage → Prop
  | .fastCheck env | .staleCheck env => Fresh s.log started env.data
  | .recheck | .load => s.holder q.key = some n
  | .stamp row => s.holder q.key = some n ∧ q.key ∈ keysOf row.id row.tenantID ∧ Current s.log row
  | .set env => s.holder q.key = some n ∧ q.key ∈ keysOf env.data.id env.data.tenantID ∧ Current s.log env.data
  | _ => True
def Known (s : State) (n : Nat) : Phase → Prop
  | .finding q started stage => started ⊆ s.log ∧ InHand s n q started stage
  | .found started ended row => Fresh ended started row
  | _ => True

/-- What is cached is current, or an update still owes its deletion. -/
structure Coherent (s : State) : Prop where
  rows : ∀ row ∈ s.rows, Current s.log row
  keyed : ∀ k env, s.cache k = some env → k ∈ keysOf env.data.id env.data.tenantID
  cached : ∀ k env, s.cache k = some env →
    Current s.log env.data ∨ ∃ n u, lastWrite env.data s.log = some (n,u) ∧ Owes (s.calls n) u k
  returned : ∀ n u, .returned n u ∈ s.log → s.calls n = .updated u
  calls : ∀ n, Known s n (s.calls n)

variable {n : Nat} {u : Update} {s : State} {env : Envelope} {phase : Phase} {row : SubscriptionRow} {log started : List Event} {k : String}

theorem lastWrite_about (last : lastWrite row log = some (n,u)) : u.About row := by
  induction log with
  | nil => cases last
  | cons event rest ih =>
    cases event with
    | wrote m v =>
      simp only [lastWrite] at last
      split at last
      · next about => cases last; exact about
      · exact ih last
    | returned m v => exact ih last
theorem current_wrote (current : Current log row) (other : ¬ u.About row) : Current (.wrote n u :: log) row := by
  intro m v last
  rw [lastWrite,if_neg other] at last
  exact current m v last
/-- What is known of a call stays known while the record grows, its locks are kept and what it has in hand is fresh. -/
theorem known_kept {t : State} {m : Nat} (known : Known s m phase) (grows : s.log ⊆ t.log)
    (locks : ∀ k, s.holder k = some m → t.holder k = some m)
    (fresh : ∀ started row, started ⊆ s.log → Fresh s.log started row → Fresh t.log started row)
    (current : ∀ row, phase.loaded = some row → ∀ k ∈ keysOf row.id row.tenantID, s.holder k = some m →
      Current s.log row → Current t.log row) : Known t m phase := by
  cases phase with
  | finding q started stage =>
    obtain ⟨began,hand⟩ := known
    refine ⟨List.Subset.trans began grows,?_⟩
    cases stage with
    | recheck | load => exact locks _ hand
    | stamp row => exact ⟨locks _ hand.1,hand.2.1,current row rfl _ hand.2.1 hand.1 hand.2.2⟩
    | set env => exact ⟨locks _ hand.1,hand.2.1,current env.data rfl _ hand.2.1 hand.1 hand.2.2⟩
    | fastCheck env | staleCheck env => exact fresh started env.data began hand
    | fastGet | staleGet | purge | guardGet | lock => trivial
  | found started ended row => exact known
  | absent | updating | updated | failed => trivial
section
variable (coherent : Coherent s)
include coherent
private theorem fresh_cached (began : started ⊆ s.log) (cached : s.cache k = some env) : Fresh s.log started env.data := by
  intro n u last ended
  rcases coherent.cached k env cached with current | ⟨m,v,last',owes⟩
  · exact current n u last
  · rw [last] at last'
    cases last'
    rw [coherent.returned n u (began ended)] at owes
    exact absurd owes (by simp [Owes])
theorem fresh_read {answered : Bool} (began : started ⊆ s.log) (read : s.read k answered = some env) : Fresh s.log started env.data := by
  unfold State.read at read
  split at read
  · exact fresh_cached coherent began read
  · cases read
theorem coherent_remove (key : String) : Coherent (s.remove key) := by
  have kept : ∀ k env, (s.remove key).cache k = some env → s.cache k = some env := by
    intro k env cached
    by_cases same : k = key
    · simp [State.remove,same] at cached
    · simpa [State.remove,update_of_ne same] using cached
  exact ⟨coherent.rows,fun k env cached => coherent.keyed k env (kept k env cached),
    fun k env cached => coherent.cached k env (kept k env cached),coherent.returned,coherent.calls⟩
theorem coherent_store {key : String} (keyed : key ∈ keysOf env.data.id env.data.tenantID)
    (current : Current s.log env.data) :
    Coherent { s with cache := update s.cache key (some env) } := by
  have stored : ∀ k env', update s.cache key (some env) k = some env' → (k = key ∧ env' = env) ∨ s.cache k = some env' := by
    intro k env' cached
    by_cases same : k = key
    · subst same
      simp only [update_self,Option.some.injEq] at cached
      exact .inl ⟨rfl,cached.symm⟩
    · exact .inr (by simpa [update_of_ne same] using cached)
  refine ⟨coherent.rows,?_,?_,coherent.returned,coherent.calls⟩
  · intro k env' cached
    rcases stored k env' cached with ⟨rfl,rfl⟩ | old
    · exact keyed
    · exact coherent.keyed k env' old
  · intro k env' cached
    rcases stored k env' cached with ⟨rfl,rfl⟩ | old
    · exact .inl current
    · exact coherent.cached k env' old
/-- A call goes on and the others keep their locks; what the call owes it still owes. -/
theorem coherent_goto (holder : String → Option Nat)
    (locks : ∀ m k, m ≠ n → s.holder k = some m → holder k = some m) (ongoing : ∀ u, s.calls n ≠ .updated u)
    (known : Known { s with holder } n phase)
    (owing : ∀ k env u, s.cache k = some env → lastWrite env.data s.log = some (n,u) → Owes (s.calls n) u k → Owes phase u k) :
    Coherent ({ s with holder }.goto n phase) := by
  refine ⟨coherent.rows,coherent.keyed,?_,?_,?_⟩
  · intro k env cached
    rcases coherent.cached k env cached with current | ⟨m,u,last,owes⟩
    · exact .inl current
    · refine .inr ⟨m,u,last,?_⟩
      by_cases same : m = n
      · subst same
        simpa [State.goto] using owing k env u cached last owes
      · simpa [State.goto,update_of_ne same] using owes
  · intro m u ended
    have was := coherent.returned m u ended
    have other : m ≠ n := by rintro rfl; exact ongoing u was
    simpa [State.goto,update_of_ne other] using was
  · refine (forall_update_iff s.calls _).mpr ⟨known,?_⟩
    intro m other
    exact known_kept (coherent.calls m) (List.Subset.refl _) (fun k => locks m k other) (fun _ _ _ fresh => fresh)
      (fun _ _ _ _ _ current => current)
theorem coherent_write (at_ : s.calls n = .updating u .write) (unloaded : Unloaded s u)
    (known : ∀ s, Known s n phase) (owes : ∀ k, Owes phase u k) : Coherent ((s.write n u).goto n phase) := by
  have other : ∀ m v, .returned m v ∈ s.log → m ≠ n := by
    rintro m v ended rfl
    rw [coherent.returned m v ended] at at_
    cases at_
  have fresh : ∀ started row, started ⊆ s.log → Fresh s.log started row → Fresh (.wrote n u :: s.log) started row := by
    intro started row began was m v last ended
    rw [lastWrite] at last
    split at last
    · cases last
      exact absurd rfl (other n u (began ended))
    · exact was m v last ended
  have loaded : ∀ m row, (s.calls m).loaded = some row → ∀ k ∈ keysOf row.id row.tenantID, s.holder k = some m →
      Current s.log row → Current (.wrote n u :: s.log) row := by
    intro m row loaded k keyed held current
    refine current_wrote current ?_
    intro about
    rw [← about.1,← about.2] at keyed
    exact unloaded k keyed m held row loaded about
  refine ⟨?_,coherent.keyed,?_,?_,?_⟩
  · intro row stored
    obtain ⟨old,member,rfl⟩ := mem_updateStatus.mp stored
    split
    · next hit =>
      intro m v last
      have about : u.About (old.withStatus u.status s.now) := ⟨hit.1.symm,hit.2.symm⟩
      simp only [State.goto,State.write,lastWrite,if_pos about] at last
      cases last
      rfl
    · next miss =>
      refine current_wrote (coherent.rows old member) ?_
      rintro ⟨id,tenantID⟩
      exact miss ⟨id.symm,tenantID.symm⟩
  · intro k env cached
    by_cases about : u.About env.data
    · refine .inr ⟨n,u,by simp [State.goto,State.write,lastWrite,about],?_⟩
      simpa [State.goto] using owes k
    · rcases coherent.cached k env cached with current | ⟨m,v,last,owes⟩
      · exact .inl (current_wrote current about)
      · refine .inr ⟨m,v,by simpa [State.goto,State.write,lastWrite,about] using last,?_⟩
        have others : m ≠ n := by
          rintro rfl
          rw [at_] at owes
          exact owes
        simpa [State.goto,State.write,update_of_ne others] using owes
  · intro m v ended
    have ended : .returned m v ∈ s.log := by simpa [State.goto,State.write] using ended
    simpa [State.goto,State.write,update_of_ne (other m v ended)] using coherent.returned m v ended
  · refine (forall_update_iff s.calls _).mpr ⟨known _,?_⟩
    intro m _
    exact known_kept (coherent.calls m) (List.subset_cons_self ..) (fun _ held => held) fresh (loaded m)
theorem coherent_returned {now : Time} (at_ : s.calls n = .updating u (.record now))
    (invalidatedAt : String → Option Time) :
    Coherent ({ s with invalidatedAt, log := .returned n u :: s.log }.goto n (.updated u)) := by
  refine ⟨coherent.rows,coherent.keyed,?_,?_,?_⟩
  · intro k env cached
    rcases coherent.cached k env cached with current | ⟨m,v,last,owes⟩
    · exact .inl current
    · refine .inr ⟨m,v,last,?_⟩
      have other : m ≠ n := by
        rintro rfl
        rw [at_] at owes
        exact owes
      simpa [State.goto,update_of_ne other] using owes
  · intro m v ended
    by_cases same : m = n
    · subst same
      rcases List.mem_cons.mp ended with new | old
      · cases new
        simp [State.goto]
      · rw [coherent.returned m v old] at at_
        cases at_
    · have old : .returned m v ∈ s.log := by
        rcases List.mem_cons.mp ended with new | old
        · cases new
          exact absurd rfl same
        · exact old
      simpa [State.goto,update_of_ne same] using coherent.returned m v old
  · refine (forall_update_iff s.calls _).mpr ⟨trivial,?_⟩
    intro m _
    exact known_kept (coherent.calls m) (List.subset_cons_self ..) (fun _ held => held) (fun _ _ _ fresh => fresh)
      (fun _ _ _ _ _ current => current)
end

/-! ### Steps -/

section
variable {s t : State} {n : Nat} {q : Query} {started : List Event} {stage : FindStage} {phase : Phase}
  {op : Op} {stage' : UpdateStage} {a : Action} (coherent : Coherent s)
include coherent

section
variable (at_ : s.calls n = .finding q started stage)
include at_
private theorem coherent_finding (known : Known s n phase) : Coherent (s.goto n phase) :=
  coherent_goto coherent s.holder (fun _ _ _ held => held) (by simp [at_]) known (by simp [at_,Owes])
private theorem coherent_acquire (free : s.holder q.key = none) (began : started ⊆ s.log) :
    Coherent ({ s with holder := update s.holder q.key (some n) }.goto n (.finding q started .recheck)) := by
  refine coherent_goto coherent _ ?_ (by simp [at_]) ⟨began,by simp [InHand]⟩ (by simp [at_,Owes])
  intro m k _ held
  have other : k ≠ q.key := by
    rintro rfl
    simp [free] at held
  rw [update_of_ne other]
  exact held
private theorem coherent_release (mine : s.holder q.key = some n) (known : ∀ s', s'.log = s.log → Known s' n phase) :
    Coherent ((s.release q.key).goto n phase) := by
  refine coherent_goto coherent _ ?_ (by simp [at_]) (known _ rfl) (by simp [at_,Owes])
  intro m k different held
  have other : k ≠ q.key := by
    rintro rfl
    rw [mine] at held
    exact different (Option.some.inj held).symm
  rw [update_of_ne other]
  exact held
theorem coherent_find (stepped : findStep s n q started stage op = some t) : Coherent t := by
  obtain ⟨began,hand⟩ : started ⊆ s.log ∧ InHand s n q started stage := by
    have known := coherent.calls n
    rwa [at_] at known
  cases stage with
  | fastGet =>
    cases op <;> try cases stepped
    simp only [findStep] at stepped
    split at stepped <;> cases stepped
    · next read => exact coherent_finding coherent at_ ⟨began,fresh_read coherent began read⟩
    · exact coherent_finding coherent at_ ⟨began,trivial⟩
  | fastCheck env =>
    cases op <;> try cases stepped
    simp only [findStep] at stepped
    split at stepped <;> cases stepped
    · exact coherent_finding coherent at_ ⟨began,trivial⟩
    · exact coherent_finding coherent at_ hand
  | staleGet =>
    cases op <;> try cases stepped
    simp only [findStep] at stepped
    split at stepped <;> cases stepped
    · next read => exact coherent_finding coherent at_ ⟨began,fresh_read coherent began read⟩
    · exact coherent_finding coherent at_ ⟨began,trivial⟩
  | staleCheck env =>
    cases op <;> try cases stepped
    simp only [findStep] at stepped
    split at stepped <;> cases stepped <;> exact coherent_finding coherent at_ ⟨began,trivial⟩
  | purge =>
    cases op <;> cases stepped
    split
    · exact coherent_finding (coherent_remove coherent q.key) at_ ⟨began,trivial⟩
    · exact coherent_finding coherent at_ ⟨began,trivial⟩
  | guardGet =>
    cases op <;> try cases stepped
    simp only [findStep] at stepped
    split at stepped <;> cases stepped
    · next read => exact coherent_finding coherent at_ (fresh_read coherent began read)
    · exact coherent_finding coherent at_ ⟨began,trivial⟩
  | lock =>
    cases op <;> try cases stepped
    simp only [findStep] at stepped
    split at stepped <;> cases stepped
    next free => exact coherent_acquire coherent at_ free began
  | recheck =>
    cases op <;> try cases stepped
    simp only [findStep] at stepped
    split at stepped <;> cases stepped
    · next read => exact coherent_release coherent at_ hand (fun _ _ => fresh_read coherent began read)
    · exact coherent_finding coherent at_ ⟨began,hand⟩
  | load =>
    cases op <;> try cases stepped
    simp only [findStep] at stepped
    split at stepped <;> cases stepped
    · exact coherent_release coherent at_ hand (fun _ _ => trivial)
    · exact coherent_release coherent at_ hand (fun _ _ => trivial)
    · next row loaded =>
      obtain ⟨member,keyed⟩ := backend_some loaded
      exact coherent_finding coherent at_ ⟨began,hand,keyed,coherent.rows row member⟩
  | stamp row =>
    cases op <;> cases stepped
    exact coherent_finding coherent at_ ⟨began,hand⟩
  | set env =>
    have returns : Fresh s.log started env.data := fun m u last _ => hand.2.2 m u last
    cases op <;> cases stepped
    split
    · exact coherent_release (coherent_store coherent hand.2.1 hand.2.2) at_ hand.1 (fun _ _ => returns)
    · exact coherent_release coherent at_ hand.1 (fun _ _ => returns)
end

private theorem coherent_updating {u : Update} (at_ : s.calls n = .updating u stage') (known : ∀ s, Known s n phase)
    (owing : ∀ k env v, s.cache k = some env → lastWrite env.data s.log = some (n,v) → Owes (.updating u stage') v k → Owes phase v k) :
    Coherent (s.goto n phase) :=
  coherent_goto coherent s.holder (fun _ _ _ held => held) (by simp [at_]) (known _)
    (fun k env v cached last owes => owing k env v cached last (at_ ▸ owes))
private theorem coherent_update {u : Update} (at_ : s.calls n = .updating u stage') (orderly : Orderly s (.call n op))
    (stepped : updateStep s n u stage' op = some t) : Coherent t := by
  unfold updateStep at stepped
  split at stepped
  · next reply =>
    simp only [Orderly,at_] at orderly
    have written : ∀ phase, (∀ s, Known s n phase) → (∀ k, Owes phase u k) → ∀ affected : Bool,
        Coherent ((if reply.effective && affected then s.write n u else s).goto n phase) := by
      intro phase known owes affected
      split
      · next took =>
        simp only [Bool.and_eq_true] at took
        exact coherent_write coherent at_ (orderly took.1) known owes
      · exact coherent_updating coherent at_ known (fun _ _ _ _ _ none => none.elim)
    simp only at stepped
    split at stepped
    · cases stepped; exact written (.failed _) (fun _ => trivial) (fun _ => trivial) _
    · cases stepped; exact written (.failed _) (fun _ => trivial) (fun _ => trivial) _
    · cases stepped; exact written (.updating u .deleteKey) (fun _ => trivial) (fun _ => rfl) _
  -- the two deletions: what is still cached afterwards is under the other key
  · next done =>
    simp only [Orderly,at_] at orderly
    subst orderly
    cases stepped
    refine coherent_updating (coherent_remove coherent (cacheKey u.id)) at_ (fun _ => trivial) ?_
    rintro k env v cached last rfl
    refine ⟨rfl,?_⟩
    have keyed := (coherent_remove coherent (cacheKey v.id)).keyed k env cached
    rw [← (lastWrite_about last).1,← (lastWrite_about last).2] at keyed
    rcases List.mem_cons.mp keyed with rfl | rest
    · simp [State.remove] at cached
    · simpa using rest
  · next done =>
    simp only [Orderly,at_] at orderly
    subst orderly
    cases stepped
    refine coherent_updating (coherent_remove coherent (tenantCacheKey u.id u.tenantID)) at_ (fun _ => trivial) ?_
    rintro k env v cached last ⟨rfl,rfl⟩
    simp [State.remove] at cached
  · cases stepped; exact coherent_updating coherent at_ (fun _ => trivial) (fun _ _ _ _ _ none => none.elim)
  · cases stepped; exact coherent_returned coherent at_ _
  · cases stepped
private theorem coherent_step (orderly : Orderly s a) (stepped : step s a = some t) : Coherent t := by
  cases a with
  | advance elapsed => cases stepped; exact ⟨coherent.rows,coherent.keyed,coherent.cached,coherent.returned,coherent.calls⟩
  | expire key => cases stepped; exact coherent_remove coherent key
  | call n op =>
    simp only [step] at stepped
    split at stepped
    · next at_ =>
      have entered : ∀ phase, Known s n phase → Coherent (s.goto n phase) := fun phase known =>
        coherent_goto coherent s.holder (fun _ _ _ held => held) (by simp [at_]) known (by simp [at_,Owes])
      split at stepped
      · cases stepped; exact entered _ ⟨List.Subset.refl _,trivial⟩
      · cases stepped; exact entered (.updating _ .write) trivial
      · cases stepped
    · next at_ => exact coherent_find coherent at_ stepped
    · next at_ => exact coherent_update coherent at_ orderly stepped
    · cases stepped
end

private theorem coherent_init (now : Time) (rows : Rows) : Coherent (init now rows) := by
  refine ⟨?_,?_,?_,?_,fun _ => trivial⟩
  · intro row _ n u last
    cases last
  · intro k env cached
    cases cached
  · intro k env cached
    cases cached
  · intro n u ended
    cases ended
/-- In an orderly run, a find that begins after the last update of a row has returned nil returns the row with its status. -/
theorem found_current (now : Time) (rows : Rows) {s : State} (reached : Reach step Orderly (init now rows) s)
    {m : Nat} {started ended : List Event} {row : SubscriptionRow} (found : s.calls m = .found started ended row)
    {n : Nat} {u : Update} (last : lastWrite row ended = some (n,u)) (returned : .returned n u ∈ started) : row.status = u.status := by
  have coherent := reached.invariant (coherent_init now rows) coherent_step
  have known := coherent.calls m
  rw [found] at known
  exact known n u last returned

/-- A find that finds nothing in the cache, up to the load of the row. -/
def loads (n : Nat) (q : Query) : List Action :=
  [.call n (.find q),.call n (.get true),.call n (.get true),.call n (.get true),.call n .lock,.call n (.get true),
    .call n (.load none)]
def stores (n : Nat) : List Action := [.call n .clock,.call n (.set true)]
def hits (n : Nat) (q : Query) : List Action := [.call n (.find q),.call n (.get true),.call n .isStale]
def updates (n : Nat) (u : Update) : List Action :=
  [.call n (.updateStatus u),.call n (.write .done),.call n (.delete true),.call n (.delete true),.call n .clock,.call n .record]
def cancels : Update := ⟨"sub-1","tenant-1",statusCancelled⟩
/-- The subscription is cancelled between the load and the store of a find. -/
def cancelledMeanwhile : List Action := loads 0 (.byID "sub-1") ++ updates 1 cancels ++ stores 0 ++ hits 2 (.byID "sub-1")
theorem found_outdated : ¬ ∀ (now : Time) (rows : Rows) (s : State), Reach step Any (init now rows) s →
    ∀ m started ended row, s.calls m = .found started ended row → ∀ n u, lastWrite row ended = some (n,u) →
      .returned n u ∈ started → row.status = u.status := by
  intro claim
  obtain ⟨s,ran,found⟩ := run_seen step (init 0 activeRows) cancelledMeanwhile
    (fun s => s.calls 2 = .found [.returned 1 cancels,.wrote 1 cancels] [.returned 1 cancels,.wrote 1 cancels]
      activeRow) (by decide +kernel)
  have kept := claim 0 activeRows s (run_any ran) 2 _ _ _ found 1 cancels rfl (by simp)
  exact absurd kept (by decide)
def cancelledBetween : List Action :=
  loads 0 (.byID "sub-1") ++ stores 0 ++ updates 1 cancels ++ loads 2 (.byID "sub-1") ++ stores 2
theorem found_current_cancelledBetween : ∃ s row, Reach step Orderly (init 0 activeRows) s ∧
    s.calls 2 = .found [.returned 1 cancels,.wrote 1 cancels] [.returned 1 cancels,.wrote 1 cancels] row ∧
    row.status = statusCancelled := by
  let row := activeRow.withStatus statusCancelled 0
  obtain ⟨s,ran,found⟩ := run_seen step (init 0 activeRows) cancelledBetween
    (fun s => s.calls 2 = .found [.returned 1 cancels,.wrote 1 cancels] [.returned 1 cancels,.wrote 1 cancels] row)
    (by decide +kernel)
  have reached : Reach step Orderly (init 0 activeRows) s := run_reach ran (by decide +kernel)
  exact ⟨s,row,reached,found,found_current 0 activeRows reached found rfl (by simp)⟩

end Stellabill.CachedReads
