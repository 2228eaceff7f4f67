import Stellabill.CachedReads
import Stellabill.Joins

/-!
Whose rows the cache serves. An entry of `FindByIDAndTenant` is stored under the ID and the
tenant with a colon between them, so that an ID or a tenant with a colon shares the entry of
another tenant's row.
-/
namespace Stellabill.CachedTenants
open Keyed Transitions Program Subscriptions CachedSubscriptions Joins Function

/-- In every run, what `FindByIDAndTenant` returns has the ID and the tenant that were asked for. -/
def Apart (rows : Rows) : Prop :=
  ∀ now s t n id tenantID started stage op began ended row, Reach step Any (init now rows) s →
    s.calls n = .finding (.byIDAndTenant id tenantID) started stage → step s (.call n op) = some t →
    t.calls n = .found began ended row → row.id = id ∧ row.tenantID = tenantID

def row : Phase → Option SubscriptionRow
  | .finding _ _ (.fastCheck env) | .finding _ _ (.staleCheck env) | .finding _ _ (.set env) => some env.data
  | .finding _ _ (.stamp row) | .found _ _ row => some row
  | _ => none

/-- A step of a find: its row is the one it had or one of its key, and it stores only the row it had. -/
structure Finds (n : Nat) (q : Query) (held : Option SubscriptionRow) (s t : State) : Prop where
  rows : t.rows = s.rows
  others : ∀ m, m ≠ n → t.calls m = s.calls m
  asks : ∀ q' began stage, t.calls n = .finding q' began stage → q = q'
  shows : ∀ r, row (t.calls n) = some r → held = some r ∨ (∃ env, s.cache q.key = some env ∧ env.data = r) ∨ q.backend s.rows = some r
  cached : ∀ k env, t.cache k = some env → s.cache k = some env ∨ (k = q.key ∧ held = some env.data)

/-- A step of an update: it keeps the ID and tenant of every row, stores nothing and leaves every find alone. -/
structure Keeps (s t : State) : Prop where
  rows : ∀ r ∈ t.rows, ∃ old ∈ s.rows, old.id = r.id ∧ old.tenantID = r.tenantID
  cached : ∀ k env, t.cache k = some env → s.cache k = some env
  finds : ∀ m q began stage, t.calls m = .finding q began stage → s.calls m = .finding q began stage

variable {rows : Rows} {s t : State} {n : Nat} {q : Query} {started : List Event} {stage : FindStage} {op : Op}

theorem remove_cached (done : Bool) {key k : String} {env : Envelope} (cached : (if done then s.remove key else s).cache k = some env) :
    s.cache k = some env := by
  cases done with
  | false => exact cached
  | true =>
    by_cases own : k = key
    · simp [State.remove,own] at cached
    · simpa [State.remove,own] using cached

section
variable {u : State} {phase : Phase} (calls : u.calls = s.calls)
include calls
private theorem finds_goto {held : Option SubscriptionRow} (rows : u.rows = s.rows)
    (shows : ∀ r, row phase = some r → held = some r ∨ (∃ env, s.cache q.key = some env ∧ env.data = r) ∨ q.backend s.rows = some r)
    (cached : ∀ k env, u.cache k = some env → s.cache k = some env ∨ (k = q.key ∧ held = some env.data))
    (asks : ∀ q' began stage, phase = .finding q' began stage → q = q') : Finds n q held s (u.goto n phase) := by
  have own : (u.goto n phase).calls n = phase := update_self ..
  refine ⟨rows,?_,?_,?_,cached⟩
  · exact fun m other => (update_of_ne other ..).trans (congrFun calls m)
  · rwa [own]
  · rwa [own]
theorem keeps_goto (rows : ∀ r ∈ u.rows, ∃ old ∈ s.rows, old.id = r.id ∧ old.tenantID = r.tenantID)
    (cached : ∀ k env, u.cache k = some env → s.cache k = some env) (ends : ∀ q began stage, phase ≠ .finding q began stage) :
    Keeps s (u.goto n phase) := by
  refine ⟨rows,cached,fun m q began stage finds => ?_⟩
  by_cases own : m = n
  · subst own
    exact absurd ((update_self ..).symm.trans finds) (ends q began stage)
  · exact (congrFun calls m).symm.trans ((update_of_ne own ..).symm.trans finds)
end

theorem find_finds (stepped : findStep s n q started stage op = some t) : Finds n q (row (.finding q started stage)) s t := by
  cases stage with
  | fastGet | staleGet | guardGet | recheck =>
    cases op <;> try cases stepped
    simp only [findStep] at stepped
    split at stepped <;> cases stepped
    next env read =>
      have hit : s.cache q.key = some env := ((ite_eq_iff.mp read).resolve_right (by simp)).2
      exact finds_goto (by rfl) (by rfl) (fun _ is => .inr (.inl ⟨env,hit,Option.some.inj is⟩)) (fun _ _ => .inl) (by simp)
    next => exact finds_goto (by rfl) (by rfl) (by simp [row]) (fun _ _ => .inl) (by simp)
  | fastCheck env =>
    cases op <;> try cases stepped
    simp only [findStep] at stepped
    split at stepped <;> cases stepped
    · exact finds_goto (by rfl) (by rfl) (by simp [row]) (fun _ _ => .inl) (by simp)
    · exact finds_goto (by rfl) (by rfl) (fun _ => .inl) (fun _ _ => .inl) (by simp)
  | staleCheck | lock =>
    cases op <;> try cases stepped
    simp only [findStep] at stepped
    split at stepped <;> cases stepped <;> exact finds_goto (by rfl) (by rfl) (by simp [row]) (fun _ _ => .inl) (by simp)
  | purge =>
    cases op <;> cases stepped
    exact finds_goto (by split <;> rfl) (by split <;> rfl) (by simp [row]) (fun _ _ hit => .inl (remove_cached _ hit)) (by simp)
  | load =>
    cases op <;> try cases stepped
    simp only [findStep] at stepped
    split at stepped <;> cases stepped
    · exact finds_goto (by rfl) (by rfl) (by simp [row]) (fun _ _ => .inl) (by simp)
    · exact finds_goto (by rfl) (by rfl) (by simp [row]) (fun _ _ => .inl) (by simp)
    · next loaded => exact finds_goto (by rfl) (by rfl) (fun _ is => .inr (.inr (loaded.trans is))) (fun _ _ => .inl) (by simp)
  | stamp row =>
    cases op <;> cases stepped
    exact finds_goto (by rfl) (by rfl) (fun _ => .inl) (fun _ _ => .inl) (by simp)
  | set env =>
    cases op <;> cases stepped
    refine finds_goto (by split <;> rfl) (by split <;> rfl) (fun _ => .inl) ?_ (by simp)
    intro k env' hit
    split at hit
    · by_cases own : k = q.key
      · subst own
        cases (update_self ..).symm.trans hit
        exact .inr ⟨rfl,rfl⟩
      · exact .inl ((update_of_ne own ..).symm.trans hit)
    · exact .inl hit

theorem update_keeps {u : Update} {stage : UpdateStage} (stepped : updateStep s n u stage op = some t) : Keeps s t := by
  have same : ∀ r ∈ s.rows, ∃ old ∈ s.rows, old.id = r.id ∧ old.tenantID = r.tenantID := fun r member => ⟨r,member,rfl,rfl⟩
  cases stage with
  | write =>
    cases op <;> try cases stepped
    next reply =>
      have written : ∀ affected phase, (∀ q began stage, phase ≠ .finding q began stage) →
          Keeps s ((if reply.effective && affected then s.write n u else s).goto n phase) := by
        intro affected phase ends
        split
        · refine keeps_goto rfl ?_ (fun _ _ => id) ends
          intro r member
          obtain ⟨old,before,rfl⟩ := mem_updateStatus.mp member
          exact ⟨old,before,by split <;> exact ⟨rfl,rfl⟩⟩
        · exact keeps_goto rfl same (fun _ _ => id) ends
      simp only [updateStep] at stepped
      split at stepped <;> cases stepped <;> exact written _ _ (by simp)
  | deleteKey | deleteTenantKey =>
    cases op <;> cases stepped
    exact keeps_goto (by split <;> rfl) (by split <;> exact same) (fun _ _ => remove_cached _) (by simp)
  | clock | record =>
    cases op <;> cases stepped
    exact keeps_goto rfl same (fun _ _ => id) (by simp)

def Good (rows : Rows) (k : String) (row : SubscriptionRow) : Prop :=
  k ∈ keysOf row.id row.tenantID ∧ ∃ r ∈ rows, r.id = row.id ∧ r.tenantID = row.tenantID

structure Fits (rows : Rows) (s : State) : Prop where
  stored : ∀ row ∈ s.rows, ∃ r ∈ rows, r.id = row.id ∧ r.tenantID = row.tenantID
  cached : ∀ k env, s.cache k = some env → Good rows k env.data
  held : ∀ n q started stage r, s.calls n = .finding q started stage → row (.finding q started stage) = some r → Good rows q.key r

theorem fits_find (fits : Fits rows s) (here : s.calls n = .finding q started stage)
    (finds : Finds n q (row (.finding q started stage)) s t) : Fits rows t ∧ ∀ r, row (t.calls n) = some r → Good rows q.key r := by
  have good : ∀ r, row (t.calls n) = some r → Good rows q.key r := by
    intro r shows
    rcases finds.shows r shows with held | ⟨env,cached,rfl⟩ | loaded
    · exact fits.held n q started stage r here held
    · exact fits.cached q.key env cached
    · obtain ⟨member,keyed⟩ := backend_some loaded
      exact ⟨keyed,fits.stored r member⟩
  refine ⟨⟨finds.rows ▸ fits.stored,?_,?_⟩,good⟩
  · intro k env cached
    rcases finds.cached k env cached with before | ⟨rfl,held⟩
    · exact fits.cached k env before
    · exact fits.held n q started stage env.data here held
  · intro m q' began stage' r finding shows
    by_cases own : m = n
    · subst own
      obtain rfl := finds.asks q' began stage' finding
      exact good r (finding ▸ shows)
    · exact fits.held m q' began stage' r (finds.others m own ▸ finding) shows

private theorem fits_step {a : Action} (fits : Fits rows s) (stepped : step s a = some t) : Fits rows t := by
  unfold step at stepped
  split at stepped
  · cases stepped; exact ⟨fits.stored,fits.cached,fits.held⟩
  · cases stepped; exact ⟨fits.stored,fun k env hit => fits.cached k env (remove_cached true hit),fits.held⟩
  · split at stepped
    · split at stepped <;> cases stepped
      all_goals exact ⟨fits.stored,fits.cached,by simp only [State.goto,update_apply]; grind [fits.held,row]⟩
    · next here => exact (fits_find fits here (find_finds stepped)).1
    · obtain ⟨stored,cached,calls⟩ := update_keeps stepped
      refine ⟨fun r member => ?_,fun k env hit => fits.cached k env (cached k env hit),
        fun m q began stage r finding => fits.held m q began stage r (calls m q began stage finding)⟩
      obtain ⟨old,before,sameID,sameTenant⟩ := stored r member
      exact sameID ▸ sameTenant ▸ fits.stored old before
    · cases stepped

theorem colon : ":" = String.singleton ':' := rfl
theorem tenantCacheKey_eq_iff {id tenantID id' tenantID' : String} :
    tenantCacheKey id tenantID = tenantCacheKey id' tenantID' ↔ id ++ ":" ++ tenantID = id' ++ ":" ++ tenantID' := by
  unfold tenantCacheKey
  simp only [String.append_assoc,String.append_right_inj]
private theorem tenantCacheKey_ne (id tenantID other : String) : tenantCacheKey id tenantID ≠ cacheKey other := by
  unfold tenantCacheKey cacheKey
  rw [show "sub:byidandtenant:" = "sub:byid" ++ "andtenant:" from rfl,show "sub:byid:" = "sub:byid" ++ ":" from rfl]
  simp only [String.append_assoc,ne_eq,String.append_right_inj]
  intro same
  have first := congrArg (fun k => k.toList.head?) same
  revert first
  simp
private theorem key_own {id tenantID : String} {r : SubscriptionRow} (named : ∀ a b, r.id ≠ a ++ ":" ++ b)
    (owned : ∀ a b, r.tenantID ≠ a ++ ":" ++ b) (keyed : tenantCacheKey id tenantID ∈ keysOf r.id r.tenantID) :
    r.id = id ∧ r.tenantID = tenantID := by
  simp only [keysOf,List.mem_cons,List.not_mem_nil,or_false,tenantCacheKey_ne,tenantCacheKey_eq_iff,false_or] at keyed
  rcases (join_eq_iff colon).mp keyed with ⟨rfl,rfl⟩ | ⟨u,_,within⟩ | ⟨u,within,_⟩
  · exact ⟨rfl,rfl⟩
  · exact absurd within (owned u tenantID)
  · exact absurd within (named id u)

theorem served_shared {r : SubscriptionRow} (member : r ∈ rows) (apart : Apart rows) (id tenantID : String)
    (same : id ++ ":" ++ tenantID = r.id ++ ":" ++ r.tenantID) : r.id = id ∧ r.tenantID = tenantID := by
  have found : (Query.byIDAndTenant r.id r.tenantID).backend rows = some r := findByIDAndTenant_some.mpr ⟨member,rfl,rfl⟩
  have key : (Query.byIDAndTenant id tenantID).key = (Query.byIDAndTenant r.id r.tenantID).key := tenantCacheKey_eq_iff.mpr same
  obtain ⟨s,ran,at_,fresh⟩ : ∃ s, run step (init 0 rows) (CachedReads.loads 0 (.byIDAndTenant r.id r.tenantID) ++ CachedReads.stores 0 ++
      [.call 1 (.find (.byIDAndTenant id tenantID)),.call 1 (.get true)]) = some s ∧
      s.calls 1 = .finding (.byIDAndTenant id tenantID) [] (.fastCheck ⟨r,0⟩) ∧ s.invalidatedAt = fun _ => none := by
    simp [run,CachedReads.loads,CachedReads.stores,step,init,findStep,State.goto,State.read,State.release,found,key]
  have serves : step s (.call 1 .isStale) = some (s.goto 1 (.found [] s.log r)) := by
    simp [step,at_,findStep,State.isStale,fresh]
  exact apart 0 s _ 1 id tenantID _ _ .isStale [] s.log r (run_any ran) at_ serves (by simp [State.goto])

end Stellabill.CachedTenants
