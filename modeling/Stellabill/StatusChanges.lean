import Stellabill.Subscriptions

/-!
Concurrent calls of `ChangeStatus`. Each reads the row and writes the new status in two
statements, and the check is made on the status that was read.
-/
namespace Stellabill.StatusChanges
open Keyed Transitions Program Subscriptions

/-- Where `ChangeStatus` stands: before the row is read, before the status is written with the row as read, or returned. -/
inductive Phase
  | absent
  | finding (tenantID id target : String)
  | updating (tenantID id target : String) (row : SubscriptionRow)
  | returned (result : Except ChangeError StatusChange)

structure State where
  now : Time
  rows : Rows
  calls : Nat → Phase

def init (now : Time) (rows : Rows) : State := ⟨now,rows,fun _ => .absent⟩

/-- The steps: time passes, a call begins, and its two statements are answered. -/
inductive Action
  | advance (elapsed : Nat)
  | change (call : Nat) (tenantID id target : String)
  | find (call : Nat) (error : Option String)
  | update (call : Nat) (reply : Reply)

def State.goto (s : State) (call : Nat) (phase : Phase) : State := { s with calls := Function.update s.calls call phase }

def begin (tenantID id target : String) : Phase :=
  if isKnownStatus target then .finding tenantID id target else .returned (.error (.invalidStatus target))
def found (tenantID id target : String) (row : Option SubscriptionRow) (error : Option String) : Phase :=
  match error, row with
  | some message, _ => .returned (.error (.repository message))
  | none, none => .returned (.error .notFound)
  | none, some row =>
    match checkChange row target with
    | .returns result => .returned result
    | .updates row => .updating tenantID id target row

def step (s : State) : Action → Option State
  | .advance elapsed => some { s with now := s.now+elapsed }
  | .change call tenantID id target =>
    match s.calls call with
    | .absent => some (s.goto call (begin tenantID id target))
    | _ => none
  | .find call error =>
    match s.calls call with
    | .finding tenantID id target => some (s.goto call (found tenantID id target (findByIDAndTenant s.rows id tenantID) error))
    | _ => none
  | .update call reply =>
    match s.calls call with
    | .updating tenantID id target row =>
      let affected := (findByIDAndTenant s.rows id tenantID).isSome
      let rows := if reply.effective then updateStatus s.rows id tenantID target s.now else s.rows
      some ({ s with rows }.goto call (.returned (changed row target affected reply.error)))
    | _ => none

/-- The status is written while the row is still stored with the status that the call has read. -/
def Unchanged (s : State) : Action → Prop
  | .update call _ =>
    match s.calls call with
    | .updating _ id _ row => ∀ stored ∈ s.rows.rows, stored.id = id → stored.status = row.status
    | _ => True
  | _ => True

instance (s : State) (a : Action) : Decidable (Unchanged s a) := by
  unfold Unchanged
  split <;> try split
  all_goals infer_instance

/-- The invariant: a call that is about to write has found its change allowed. -/
def Checked (calls : Nat → Phase) : Prop :=
  ∀ call tenantID id target row, calls call = .updating tenantID id target row → Allowed row.status target

variable {s t : State} {tenantID id target tenantID' id' target' : String} {row row' : SubscriptionRow} {a : Action}

theorem checked_goto {call : Nat} {phase : Phase} (checked : Checked s.calls)
    (new : ∀ tenantID id target row, phase = .updating tenantID id target row → Allowed row.status target) :
    Checked (s.goto call phase).calls := by
  intro other tenantID id target row at_
  by_cases same : other = call
  · subst same
    simp only [State.goto,Function.update_self] at at_
    exact new tenantID id target row at_
  · simp only [State.goto,Function.update_of_ne same] at at_
    exact checked other tenantID id target row at_
private theorem checked_begin (at_ : begin tenantID id target = .updating tenantID' id' target' row) : Allowed row.status target' := by
  unfold begin at at_
  split at at_ <;> cases at_
private theorem checked_found {read : Option SubscriptionRow} {error : Option String}
    (at_ : found tenantID id target read error = .updating tenantID' id' target' row) : Allowed row.status target' := by
  unfold found at at_
  split at at_
  · cases at_
  · cases at_
  · next read =>
    split at at_ <;> cases at_
    next goes =>
    obtain ⟨rfl,_,allowed,_⟩ := checkChange_updates goes
    exact allowed
theorem checked_step (checked : Checked s.calls) (stepped : step s a = some t) : Checked t.calls := by
  cases a with
  | advance elapsed =>
    cases stepped
    exact checked
  | change call tenantID id target =>
    simp only [step] at stepped
    split at stepped <;> cases stepped
    exact checked_goto checked (fun _ _ _ _ => checked_begin)
  | find call error =>
    simp only [step] at stepped
    split at stepped <;> cases stepped
    exact checked_goto checked (fun _ _ _ _ => checked_found)
  | update call reply =>
    simp only [step] at stepped
    split at stepped <;> cases stepped
    exact checked_goto (s := { s with rows := _ }) checked (by rintro _ _ _ _ ⟨⟩)

theorem row_step (stepped : step s a = some t) (stored : row' ∈ t.rows) :
    row' ∈ s.rows ∨ ∃ call reply tenantID id target read, a = .update call reply ∧
      s.calls call = .updating tenantID id target read ∧ ∃ row ∈ s.rows, row.id = id ∧ row' = row.withStatus target s.now := by
  cases a with
  | advance elapsed =>
    cases stepped
    exact .inl stored
  | change | find =>
    simp only [step] at stepped
    split at stepped <;> cases stepped
    exact .inl stored
  | update call reply =>
    simp only [step] at stepped
    split at stepped <;> cases stepped
    next tenantID id target read at_ =>
    by_cases took : reply.effective
    · simp only [State.goto,took,if_true] at stored
      obtain ⟨row,member,rfl⟩ := mem_updateStatus.mp stored
      by_cases hit : row.id = id ∧ row.tenantID = tenantID
      · rw [if_pos hit]
        exact .inr ⟨call,reply,tenantID,id,target,read,rfl,at_,row,member,hit.1,rfl⟩
      · rw [if_neg hit]
        exact .inl member
    · simp only [State.goto,took,Bool.false_eq_true,if_false] at stored
      exact .inl stored
theorem status_step (checked : Checked s.calls) (unchanged : Unchanged s a) (stepped : step s a = some t) (stored : row' ∈ t.rows) :
    ∃ row ∈ s.rows, row.id = row'.id ∧ (row'.status = row.status ∨ Allowed row.status row'.status) := by
  rcases row_step stepped stored with old | ⟨call,reply,tenantID,id,target,read,rfl,at_,row,member,rfl,rfl⟩
  · exact ⟨row',old,rfl,.inl rfl⟩
  · simp only [Unchanged,at_] at unchanged
    refine ⟨row,member,rfl,.inr ?_⟩
    rw [unchanged row member rfl]
    exact checked call tenantID row.id target read at_

/-! ### Runs -/

private theorem checked_run {now : Time} {rows : Rows} {ok : State → Action → Prop} (reached : Reach step ok (init now rows) s) :
    Checked s.calls := by
  refine reached.invariant (I := fun s => Checked s.calls) ?_ (fun checked _ stepped => checked_step checked stepped)
  rintro call tenantID id target row ⟨⟩
/-- Where a status is written only while the row still has the status that was read, each change of a stored status is
    allowed, and a status without outgoing transitions is never left. -/
theorem statuses_allowed (now : Time) (rows : Rows) {s : State} (reached : Reach step Unchanged (init now rows) s) :
    (∀ a t, Unchanged s a → step s a = some t → ∀ row ∈ s.rows, ∀ row' ∈ t.rows, row'.id = row.id →
      row'.status ≠ row.status → Allowed row.status row'.status) ∧
    ∀ t, Reach step Unchanged s t → ∀ row ∈ s.rows, Terminal row.status → ∀ row' ∈ t.rows, row'.id = row.id →
      row'.status = row.status := by
  refine ⟨?_,?_⟩
  · intro a t unchanged stepped row was row' stored same differ
    obtain ⟨old,member,sameID,kept | allowed⟩ := status_step (checked_run reached) unchanged stepped stored
    · rw [s.rows.eq_of_key member was (sameID.trans same)] at kept
      exact absurd kept differ
    · rwa [s.rows.eq_of_key member was (sameID.trans same)] at allowed
  · intro t later row was terminal
    refine (later.invariant (I := fun t => Checked t.calls ∧ ∀ row' ∈ t.rows, row'.id = row.id → row'.status = row.status)
      ⟨checked_run reached,?_⟩ ?_).2
    · intro row' stored same
      rw [s.rows.eq_of_key stored was same]
    · intro mid a t ⟨checked,settled⟩ unchanged stepped
      refine ⟨checked_step checked stepped,?_⟩
      intro row' stored same
      obtain ⟨old,member,sameID,kept | allowed⟩ := status_step checked unchanged stepped stored
      · exact kept.trans (settled old member (sameID.trans same))
      · rw [settled old member (sameID.trans same)] at allowed
        exact absurd allowed (terminal _)

def activeRow : SubscriptionRow where
  id := "sub-1"
  planID := "plan-1"
  tenantID := "tenant-1"
  customerID := "cust-1"
  status := statusActive
  amount := "2999"
  currency := "usd"
  interval := "month"
  nextBilling := ""
  updatedAt := 0
  version := 1
  deletedAt := none
private theorem activeRow_unique : ([activeRow].map SubscriptionRow.id).Nodup := by decide
def activeRows : Rows := ⟨[activeRow],activeRow_unique⟩
/-- One call reads the active row before another cancels the subscription. -/
def cancelledMeanwhile : List Action :=
  [.change 0 "tenant-1" "sub-1" statusPaused,.find 0 none,.change 1 "tenant-1" "sub-1" statusCancelled,.find 1 none,
    .update 1 .done]
theorem terminal_cancelled : Terminal statusCancelled := by
  rintro target ⟨allowed,listed,there⟩
  simp [allowedTransitions,statusPending,statusActive,statusPaused,statusCancelled,statusExpired] at listed
  simp [listed] at there
theorem cancelled_paused : ¬ ∀ (now : Time) (rows : Rows) (s : State), Reach step Any (init now rows) s →
    (∀ a t, step s a = some t → ∀ row ∈ s.rows, ∀ row' ∈ t.rows, row'.id = row.id → row'.status ≠ row.status →
      Allowed row.status row'.status) ∧
    ∀ t, Reach step Any s t → ∀ row ∈ s.rows, Terminal row.status → ∀ row' ∈ t.rows, row'.id = row.id → row'.status = row.status := by
  intro claim
  obtain ⟨s,ran,⟨row,stored,same,cancelled⟩,later⟩ := run_seen step (init 0 activeRows) cancelledMeanwhile
    (fun s => (∃ row ∈ s.rows.rows, row.id = "sub-1" ∧ row.status = statusCancelled) ∧
      (run step s [.update 0 .done]).any (fun t => ∃ row ∈ t.rows.rows, row.id = "sub-1" ∧ row.status = statusPaused) = true)
    (by decide +kernel)
  obtain ⟨t,ran',row',stored',same',paused⟩ := run_seen step s [.update 0 .done]
    (fun t => ∃ row ∈ t.rows.rows, row.id = "sub-1" ∧ row.status = statusPaused) later
  have kept := (claim 0 activeRows s (run_any ran)).2 t (run_any ran') row stored (cancelled ▸ terminal_cancelled) row' stored'
    (same'.trans same.symm)
  rw [paused,cancelled] at kept
  exact absurd kept (by decide)
def pausedThenCancelled : List Action :=
  [.change 0 "tenant-1" "sub-1" statusPaused,.find 0 none,.update 0 .done,.change 1 "tenant-1" "sub-1" statusCancelled,.find 1 none,
    .update 1 .done]
theorem statuses_allowed_pausedThenCancelled : ∃ s, ∃ row ∈ s.rows, row.status = statusCancelled ∧
    Reach step Unchanged (init 0 activeRows) s ∧ ∀ t, Reach step Unchanged s t → ∀ row' ∈ t.rows, row'.id = row.id →
      row'.status = statusCancelled := by
  obtain ⟨s,ran,row,stored,cancelled⟩ := run_seen step (init 0 activeRows) pausedThenCancelled
    (fun s => ∃ row ∈ s.rows.rows, row.status = statusCancelled) (by decide +kernel)
  have reached : Reach step Unchanged (init 0 activeRows) s := run_reach ran (by decide +kernel)
  refine ⟨s,row,stored,cancelled,reached,?_⟩
  intro t later row' stored' same
  rw [(statuses_allowed 0 activeRows reached).2 t later row stored (cancelled ▸ terminal_cancelled) row' stored' same,cancelled]

end Stellabill.StatusChanges
