import Stellabill.Program
import Mathlib.Logic.Function.Basic
import Mathlib.Data.List.Basic

/-!
A database with transactions. A statement sent to the pool is durable on its own;
a statement sent to an open transaction is kept with it and becomes durable when
the transaction commits. The data is arbitrary, and so are the statements on it.
-/
namespace Stellabill.Transaction
open Function
open Program (Reply)
universe u

variable {Data : Type u}

/-- A statement gives the new data, or is refused. -/
abbrev Statement (Data : Type u) := Data → Except String Data

inductive Handle
  | pool | tx (id : Nat)
  deriving DecidableEq, Repr

/-- The durable data, the effect of each open transaction, and those that have committed, numbered as they are begun. -/
structure Database (Data : Type u) where
  durable : Data
  txs : Nat → Option (Statement Data)
  committed : List Nat
  next : Nat
  fresh : ∀ id, next ≤ id → txs id = none ∧ id ∉ committed
  ended : ∀ id ∈ committed, txs id = none

section
variable (db : Database Data)
def Database.close (id : Nat) : Database Data where
  durable := db.durable
  txs := update db.txs id none
  committed := db.committed
  next := db.next
  fresh other above := by
    refine ⟨?_,(db.fresh other above).2⟩
    by_cases same : other = id
    · simp [same]
    · simp [same,(db.fresh other above).1]
  ended other member := by
    by_cases same : other = id
    · simp [same]
    · simp [same,db.ended other member]
def Database.extend (id : Nat) (isOpen : db.txs id ≠ none) (effect : Statement Data) : Database Data where
  durable := db.durable
  txs := update db.txs id (some effect)
  committed := db.committed
  next := db.next
  fresh other above := by
    have other_fresh := db.fresh other above
    have different : other ≠ id := fun same => isOpen (same ▸ other_fresh.1)
    simp [different,other_fresh]
  ended other member := by
    have different : other ≠ id := fun same => isOpen (same ▸ db.ended other member)
    simp [different,db.ended other member]
def Database.install (id : Nat) (isOpen : db.txs id ≠ none) (durable : Data) : Database Data where
  durable := durable
  txs := update db.txs id none
  committed := id :: db.committed
  next := db.next
  fresh other above := by
    have other_fresh := db.fresh other above
    have different : other ≠ id := fun same => isOpen (same ▸ other_fresh.1)
    simp [different,other_fresh]
  ended other member := by
    by_cases same : other = id
    · simp [same]
    · have before : other ∈ db.committed := by simpa [same] using member
      simp [same,db.ended other before]

def Database.opened : Database Data where
  durable := db.durable
  txs := update db.txs db.next (some .ok)
  committed := db.committed
  next := db.next+1
  fresh other above := by
    have other_fresh := db.fresh other (by omega)
    have different : other ≠ db.next := by omega
    simp [different,other_fresh]
  ended other member := by
    have different : other ≠ db.next := fun same => (db.fresh other (by omega)).2 member
    simp [different,db.ended other member]

/-- `BeginTx`: the transaction opened, or the error; one whose number the caller never learns is rolled back. -/
def begin (reply : Reply) : Except String Nat × Database Data :=
  match reply.error with
  | some message => (.error message,db)
  | none => (.ok db.next,db.opened)

/-- Sends a statement. A transaction with a refused statement accepts no other and cannot commit. -/
def exec (handle : Handle) (statement : Statement Data) (reply : Reply) :
    Option String × Database Data :=
  match handle with
  | .pool =>
    if reply.effective then
      match statement db.durable with
      | .error message => (some message,db)
      | .ok data => (reply.error,{ db with durable := data })
    else (reply.error,db)
  | .tx id =>
    match here : db.txs id with
    | none => (some "sql: transaction has already been committed or rolled back",db)
    | some effect =>
      if reply.effective then
        match (effect db.durable).bind statement with
        | .error message =>
          (some message,db.extend id (by simp [here]) (fun _ => .error "pq: current transaction is aborted"))
        | .ok _ => (reply.error,db.extend id (by simp [here]) (fun data => (effect data).bind statement))
      else (reply.error,db)

/-- `Commit`: the statements of the transaction take effect together. -/
def commit (id : Nat) (reply : Reply) : Option String × Database Data :=
  match here : db.txs id with
  | none => (some "sql: transaction has already been committed or rolled back",db)
  | some effect =>
    if reply.effective then
      match effect db.durable with
      | .error message => (some message,db.close id)
      | .ok data => (reply.error,db.install id (by simp [here]) data)
    else (reply.error,db.close id)
def rollback (id : Nat) : Database Data := db.close id

/-! ### What each call changes -/

theorem exec_tx_durable (id : Nat) (statement : Statement Data) (reply : Reply) :
    (exec db (.tx id) statement reply).2.durable = db.durable := by
  simp only [exec]
  split
  · rfl
  · split
    · split <;> rfl
    · rfl
theorem exec_committed (handle : Handle) (statement : Statement Data) (reply : Reply) :
    (exec db handle statement reply).2.committed = db.committed := by
  cases handle with
  | pool =>
    simp only [exec]
    split
    · split <;> rfl
    · rfl
  | tx id =>
    simp only [exec]
    split
    · rfl
    · split
      · split <;> rfl
      · rfl
theorem exec_pool_txs (statement : Statement Data) (reply : Reply) : (exec db .pool statement reply).2.txs = db.txs := by
  simp only [exec]
  split
  · split <;> rfl
  · rfl
end

variable {db db' : Database Data} {id : Nat} {reply : Reply}

theorem begin_ok (opened : begin db reply = (.ok id,db')) :
    id = db.next ∧ reply.error = none ∧ db'.durable = db.durable ∧ db'.txs id = some .ok ∧ id ∉ db'.committed := by
  unfold begin at opened
  split at opened <;> cases opened
  next silent =>
  exact ⟨rfl,silent,rfl,by simp [Database.opened],(db.fresh db.next (Nat.le_refl _)).2⟩
theorem begin_error {message : String} (failed : begin db reply = (.error message,db')) : reply.error ≠ none ∧ db' = db := by
  unfold begin at failed
  split at failed <;> cases failed
  next loud => exact ⟨by simp [loud],rfl⟩
theorem commit_cases (db : Database Data) (id : Nat) (reply : Reply) :
    ((commit db id reply).2.durable = db.durable ∧ (commit db id reply).2.committed = db.committed) ∨
      (reply.effective = true ∧ (commit db id reply).2.committed = id :: db.committed ∧
        ∃ effect, db.txs id = some effect ∧ effect db.durable = .ok (commit db id reply).2.durable) := by
  simp only [commit]
  split
  · exact .inl ⟨rfl,rfl⟩
  · next effect here =>
    split
    · next effective =>
      split
      · exact .inl ⟨rfl,rfl⟩
      · next data result => exact .inr ⟨effective,rfl,effect,here,result⟩
    · exact .inl ⟨rfl,rfl⟩

theorem commit_idle (idle : db.txs id = some .ok) (reply : Reply) :
    (commit db id reply).2.durable = db.durable ∧
      (commit db id reply).2.committed = if reply.effective then id :: db.committed else db.committed := by
  simp only [commit]
  split
  · next missing => rw [missing] at idle; cases idle
  · next effect here =>
    obtain rfl : effect = .ok := by rw [here] at idle; exact Option.some.inj idle
    split
    · simp [Database.install]
    · simp [Database.close]

section
universe v
variable {View : Type v} (view : Data → View)

/-- The statement leaves the view of the data as it is. -/
def Frames (statement : Statement Data) : Prop := ∀ data data', statement data = .ok data' → view data' = view data
/-- All statements of the open transaction do. -/
def FramesTx (db : Database Data) (id : Nat) : Prop := ∀ effect, db.txs id = some effect → Frames view effect

private theorem frames_bind {first second : Statement Data} (frames : Frames view first) (frames' : Frames view second) :
    Frames view (fun data => (first data).bind second) := by
  intro data data' result
  cases middle : first data with
  | error message => simp [middle,Except.bind] at result
  | ok between =>
    have after : second between = .ok data' := by simpa [middle,Except.bind] using result
    rw [frames' between data' after,frames data between middle]

variable {db : Database Data} {id : Nat}

theorem framesTx_begin {db' : Database Data} {reply : Reply} (opened : begin db reply = (.ok id,db')) : FramesTx view db' id := by
  obtain ⟨_,_,_,empty,_⟩ := begin_ok opened
  intro effect here data data' result
  rw [empty] at here
  cases here
  cases result
  rfl
theorem framesTx_exec_tx {statement : Statement Data} (framed : FramesTx view db id) (frames : Frames view statement) (reply : Reply) :
    FramesTx view (exec db (.tx id) statement reply).2 id := by
  simp only [exec]
  split
  · exact framed
  · next effect here =>
    split
    · split
      · intro effect' here'
        have aborted : effect' = fun _ => .error "pq: current transaction is aborted" := by
          simpa [Database.extend] using here'.symm
        subst aborted
        intro data data' result
        cases result
      · intro effect' here'
        have longer : effect' = fun data => (effect data).bind statement := by
          simpa [Database.extend] using here'.symm
        subst longer
        exact frames_bind view (framed effect here) frames
    · exact framed
theorem commit_view (framed : FramesTx view db id) (reply : Reply) : view (commit db id reply).2.durable = view db.durable := by
  rcases commit_cases db id reply with ⟨same,_⟩ | ⟨_,_,effect,here,result⟩
  · rw [same]
  · exact framed effect here _ _ result
end

end Stellabill.Transaction
