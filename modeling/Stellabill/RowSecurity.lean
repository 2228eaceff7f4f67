import Stellabill.Connections

/-!
The wrappers for row-level security, `RLSPool` and `RLSDB`. Each operation opens a
transaction, sets `app.tenant_id` in it and sends the caller's statement; some of them leave
the transaction to a result that the caller has to close, to scan or to end.
-/
namespace Stellabill.RowSecurity
open Transitions Program Connections Function

variable {Data : Type}

/-- The texts a context carries under the two keys of the tenant. -/
structure Context where
  tenantID : Option String
  middlewareTenantID : Option String
  deriving DecidableEq

def tenantIDFromContext (ctx : Context) : Except String String :=
  match (ctx.tenantID.filter (fun s => s ≠ "")).or (ctx.middlewareTenantID.filter (fun s => s ≠ "")) with
  | some s => .ok s
  | none => .error "missing tenant context: app.tenant_id required for RLS"

/-- What a caller can hold: `rlsRows`, `rlsRow`, `rlsTx`, `rlsSQLRows`, a row of a transaction of `sql.DB`, a row of
    `sql.DB`, and a transaction of `sql.DB`. Rows keep their error for `Scan`. -/
inductive Kind
  | rows
  | row (error : Option String)
  | tx
  | sqlRows
  | sqlRow (error : Option String)
  | loneRow (error : Option String)
  | sqlTx
  deriving DecidableEq

/-- What an operation returns, and whether its result is closed, scanned or ended. -/
structure Returned where
  error : Option String
  result : Option Kind
  settled : Bool
  deriving DecidableEq

def failed (message : String) : Returned := ⟨some message,none,true⟩
def opened (kind : Kind) : Returned := ⟨none,some kind,false⟩
def errorOf : Except String Unit → Option String
  | .ok _ => none
  | .error message => some message

/-- The rollback and the release that end an operation; `Rollback` of a `sql.Tx` does both. -/
def abandon : P Data Unit := do
  let _ ← call .rollback
  let _ ← call .release
  pure ()
/-- A connection with a transaction, with what is put before the errors. -/
def opening (acquiring beginning : String) : P Data (Except String Unit) := do
  match ← call .acquire with
  | .error message => pure (.error (acquiring ++ message))
  | .ok _ =>
    match ← call .begin with
    | .error message =>
      let _ ← call .release
      pure (.error (beginning ++ message))
    | .ok _ => pure (.ok ())
/-- How every operation starts: a transaction in which the tenant is set. -/
def withTenant (acquiring beginning : String) (ctx : Context) : P Data (Except String Unit) :=
  match tenantIDFromContext ctx with
  | .error message => pure (.error message)
  | .ok tenant => do
    match ← opening acquiring beginning with
    | .error message => pure (.error message)
    | .ok _ =>
      match ← call (.setLocal tenant) with
      | .error message =>
        abandon
        pure (.error ("set app.tenant_id: " ++ message))
      | .ok _ => pure (.ok ())

def execWith (acquiring : String) (ctx : Context) (s : Statement Data) : P Data Returned := do
  match ← withTenant acquiring "begin rls transaction: " ctx with
  | .error message => pure (failed message)
  | .ok _ =>
    match ← call (.statement s) with
    | .error message =>
      abandon
      pure (failed message)
    | .ok _ =>
      match ← call .commit with
      | .error message =>
        abandon
        pure (failed ("commit rls transaction: " ++ message))
      | .ok _ =>
        abandon
        pure ⟨none,none,true⟩
def queryWith (acquiring : String) (kind : Kind) (ctx : Context) (s : Statement Data) : P Data Returned := do
  match ← withTenant acquiring "begin rls transaction: " ctx with
  | .error message => pure (failed message)
  | .ok _ =>
    match ← call (.statement s) with
    | .error message =>
      abandon
      pure (failed message)
    | .ok _ => pure (opened kind)
def beginWith (beginning : String) (kind : Kind) (ctx : Context) : P Data Returned := do
  match ← withTenant "" beginning ctx with
  | .error message => pure (failed message)
  | .ok _ => pure (opened kind)

section
variable (ctx : Context) (s : Statement Data)
def exec : P Data Returned := execWith "" ctx s
def query : P Data Returned := queryWith "" .rows ctx s
def queryRow : P Data Returned := do
  match ← withTenant "" "begin rls transaction: " ctx with
  | .error message => pure (failed message)
  | .ok _ =>
    let answer ← call (.statement s)
    pure (opened (.row (errorOf answer)))
def beginTx (ctx : Context) : P Data Returned := beginWith "begin transaction: " .tx ctx
def execContext : P Data Returned := execWith "begin rls transaction: " ctx s
def queryContext : P Data Returned := queryWith "begin rls transaction: " .sqlRows ctx s
def emptyRow : P Data Returned := do
  match ← call .acquire with
  | .error message => pure (opened (.loneRow (some message)))
  | .ok _ => pure (opened (.loneRow (some "sql: no rows in result set")))
/-- `RLSDB.QueryRowContext`. Without a tenant the transaction is nil when it cannot begin. -/
def queryRowContext : P Data Returned :=
  match tenantIDFromContext ctx with
  | .error _ => do
    match ← opening "" "" with
    | .error _ => pure (failed "runtime error: invalid memory address or nil pointer dereference")
    | .ok _ =>
      abandon
      emptyRow
  | .ok tenant => do
    match ← opening "" "" with
    | .error _ => emptyRow
    | .ok _ =>
      match ← call (.setLocal tenant) with
      | .error _ =>
        abandon
        emptyRow
      | .ok _ =>
        let answer ← call (.statement s)
        pure (opened (.sqlRow (errorOf answer)))
end
def sqlBeginTx (ctx : Context) : P Data Returned := beginWith "" .sqlTx ctx

inductive Operation (Data : Type)
  | exec (ctx : Context) (s : Statement Data)
  | query (ctx : Context) (s : Statement Data)
  | queryRow (ctx : Context) (s : Statement Data)
  | beginTx (ctx : Context)
  | execContext (ctx : Context) (s : Statement Data)
  | queryContext (ctx : Context) (s : Statement Data)
  | queryRowContext (ctx : Context) (s : Statement Data)
  | sqlBeginTx (ctx : Context)

def Operation.context : Operation Data → Context
  | .exec ctx _ | .query ctx _ | .queryRow ctx _ | .beginTx ctx | .execContext ctx _ | .queryContext ctx _
  | .queryRowContext ctx _ | .sqlBeginTx ctx => ctx
def Operation.program : Operation Data → P Data Returned
  | .exec ctx s => RowSecurity.exec ctx s
  | .query ctx s => RowSecurity.query ctx s
  | .queryRow ctx s => RowSecurity.queryRow ctx s
  | .beginTx ctx => RowSecurity.beginTx ctx
  | .execContext ctx s => RowSecurity.execContext ctx s
  | .queryContext ctx s => RowSecurity.queryContext ctx s
  | .queryRowContext ctx s => RowSecurity.queryRowContext ctx s
  | .sqlBeginTx ctx => RowSecurity.sqlBeginTx ctx

def rowsNext (r : Returned) : P Data Returned := do
  abandon
  pure r
/-- `rlsRows.Close`: the transaction goes on. -/
def rowsClose (r : Returned) : P Data Returned := pure { r with settled := true }
def rowScan (error : Option String) (r : Returned) : P Data Returned := do
  abandon
  pure { r with error := error, settled := true }
/-- A statement in a transaction that was handed out. -/
def txStatement (s : Statement Data) (r : Returned) : P Data Returned := do
  let answer ← call (.statement s)
  pure { r with error := errorOf answer }
/-- `rlsTx.Commit` and `rlsTx.Rollback`, and those of a `sql.Tx`. -/
def txEnd (ending : Call Data) (r : Returned) : P Data Returned := do
  let answer ← call ending
  let _ ← call .release
  pure { r with error := errorOf answer, settled := true }
def sqlRowsClose (r : Returned) : P Data Returned :=
  if r.settled then pure r
  else do
    abandon
    pure { r with settled := true }
/-- `Scan` of a row whose transaction nobody ends. -/
def sqlRowScan (error : Option String) (r : Returned) : P Data Returned := pure { r with error := error, settled := true }
def loneRowScan (error : Option String) (r : Returned) : P Data Returned := do
  let _ ← call .release
  pure { r with error := error, settled := true }

inductive Method (Data : Type)
  | next (more : Bool)
  | close
  | scan
  | statement (s : Statement Data)
  | commit
  | rollback

/-- A method of a result. There are more rows only while the rows are open; `live` tells whether their transaction is. -/
def use (live : Bool) (r : Returned) : Method Data → Option (P Data Returned)
  | .next true => if r.result = some .rows ∧ r.settled = false ∧ live then some (pure r) else none
  | .next false => if r.result = some .rows then some (rowsNext r) else none
  | .close =>
    match r.result with
    | some .rows => some (rowsClose r)
    | some .sqlRows => some (sqlRowsClose r)
    | _ => none
  | .scan =>
    match r.result with
    | some (.row error) => some (rowScan error r)
    | some (.sqlRow error) => some (sqlRowScan error r)
    | some (.loneRow error) => some (loneRowScan error r)
    | _ => none
  | .statement s => if r.result = some .tx ∨ r.result = some .sqlTx then some (txStatement s r) else none
  | .commit => if r.result = some .tx ∨ r.result = some .sqlTx then some (txEnd .commit r) else none
  | .rollback => if r.result = some .tx ∨ r.result = some .sqlTx then some (txEnd .rollback r) else none

/-- The connections, and the operations by lease with where they stand. -/
structure State (Data : Type) where
  world : World Data
  tasks : Nat → Option (Operation Data × P Data Returned)

/-- A caller starts an operation or uses a result of one, or a call is answered. -/
inductive Action (Data : Type)
  | start (n : Nat) (op : Operation Data)
  | use (n : Nat) (method : Method Data)
  | answer (n : Nat) (choice : Choice)

def State.set (s : State Data) (n : Nat) (op : Operation Data) (p : P Data Returned) : State Data :=
  { s with tasks := Function.update s.tasks n (some (op,p)) }

def step (s : State Data) : Action Data → Option (State Data)
  | .start n op =>
    match s.tasks n with
    | none => some (s.set n op op.program)
    | some _ => none
  | .use n method =>
    match s.tasks n with
    | some (op,.done r) => (RowSecurity.use (decide ((s.world.leases n).tx = .live)) r method).map (fun p => s.set n op p)
    | _ => none
  | .answer n choice =>
    match s.tasks n with
    | some (op,p) => (answer (perform n) s.world choice p).map (fun (w,p) => ({ s with world := w } : State Data).set n op p)
    | none => none

def start (durable : Data) : State Data := ⟨.start durable,fun _ => none⟩

/-! ### What the operations leave in hand -/

def Scoped (op : Operation Data) (setting : Option String) : Prop :=
  ∃ tenant, tenantIDFromContext op.context = .ok tenant ∧ setting = some tenant

/-- What a returned result has in hand. With `leaky`, closed rows may still have their transaction, as a row of a
    `sql.Tx` always has. -/
def Fits (leaky : Prop) (op : Operation Data) (r : Returned) (v : View Data) : Prop :=
  match r.result with
  | none => v.Free
  | some .rows => v.Free ∨ ((r.settled = true → leaky) ∧ v.Open (Scoped op))
  | some (.row _) | some .tx | some .sqlRows | some .sqlTx => if r.settled then v.Free else v.Open (Scoped op)
  | some (.sqlRow _) => leaky ∧ v.Open (Scoped op)
  | some (.loneRow _) => v.Free ∨ (r.settled = false ∧ v.Quiet)

section
variable {leaky : Prop} {op : Operation Data} {v : View Data} {ok : Option String → Prop}

theorem keeps_bind {Value Value' : Type} {p : P Data Value} {f : Value → P Data Value'} {middle : Value → View Data → Prop}
    {post : Value' → View Data → Prop} (first : Keeps ok middle p v)
    (rest : ∀ value v, middle value v → Keeps ok post (f value) v) : Keeps ok post (p >>= f) v :=
  safe_bind (first.mono rest)

theorem keeps_abandon (held : v.Open (fun _ => True) ∨ v.tx ≠ .live) : Keeps ok (fun _ v => v.Free) (abandon : P Data Unit) v := by
  rcases held with isOpen | ended
  · refine keeps_rollback isOpen (fun _ v quiet => ?_)
    exact keeps_release quiet.1 (fun _ v free => safe_pure free)
  · refine keeps_ended trivial (by simp) ended ?_
    exact keeps_release ended (fun _ v free => safe_pure free)
theorem keeps_opening (acquiring beginning : String) (free : v.Free) :
    Keeps ok (fun answer v => match answer with
      | .error _ => v.Free
      | .ok _ => v.Open (fun _ => True)) (opening acquiring beginning : P Data (Except String Unit)) v := by
  refine keeps_acquire free (fun v quiet => ?_) (fun message => safe_pure free)
  refine keeps_begin quiet (fun v isOpen => safe_pure isOpen) (fun message v quiet => ?_)
  exact keeps_release quiet.1 (fun _ v free => safe_pure free)
theorem keeps_withTenant (acquiring beginning : String) (free : v.Free) :
    Keeps ok (fun answer v => match answer with
      | .error _ => v.Free
      | .ok _ => v.Open (Scoped op)) (withTenant acquiring beginning op.context : P Data (Except String Unit)) v := by
  unfold withTenant
  split
  · exact safe_pure free
  · next tenant found =>
    refine keeps_bind (keeps_opening acquiring beginning free) (fun answer v held => ?_)
    cases answer with
    | error message => exact safe_pure held
    | ok =>
      refine keeps_setLocal held (fun v isOpen => ?_) (fun message v isOpen => ?_)
      · exact safe_pure (isOpen.mono (fun setting same => ⟨tenant,found,same⟩))
      · exact keeps_bind (keeps_abandon (.inl isOpen)) (fun _ v free => safe_pure free)

variable {r : Returned}

theorem keeps_abandon_done (held : v.Open (fun _ => True) ∨ v.tx ≠ .live) (empty : r.result = none) :
    Keeps ok (Fits leaky op) (do abandon; pure r : P Data Returned) v :=
  keeps_bind (keeps_abandon held) (fun _ v free => safe_pure (by rw [Fits,empty]; exact free))
theorem keeps_emptyRow (free : v.Free) : Keeps ok (Fits leaky op) (emptyRow : P Data Returned) v :=
  keeps_acquire free (fun _ quiet => safe_pure (.inr ⟨rfl,quiet⟩)) (fun _ => safe_pure (.inl free))
theorem keeps_abandon_emptyRow (held : v.Open (fun _ => True)) : Keeps ok (Fits leaky op) (do abandon; emptyRow : P Data Returned) v :=
  keeps_bind (keeps_abandon (.inl held)) (fun _ _ free => keeps_emptyRow free)

variable {kind : Kind}

section
variable (op : Operation Data) (free : v.Free)
include free
theorem keeps_execWith (acquiring : String) (s : Statement Data) :
    Keeps (Scoped op) (Fits leaky op) (execWith acquiring op.context s) v := by
  refine keeps_bind (keeps_withTenant acquiring _ free) (fun answer v held => ?_)
  cases answer with
  | error message => exact safe_pure held
  | ok =>
    refine keeps_statement held (fun answer v isOpen => ?_)
    have started : v.Open (fun _ => True) := isOpen.mono (fun _ _ => trivial)
    cases answer with
    | error message => exact keeps_abandon_done (.inl started) rfl
    | ok =>
      refine keeps_commit started (fun answer v quiet => ?_)
      cases answer with
      | error | ok => exact keeps_abandon_done (.inr quiet.1) rfl
theorem keeps_queryWith (acquiring : String) (s : Statement Data)
    (rows : kind = .rows ∨ kind = .sqlRows) : Keeps (Scoped op) (Fits leaky op) (queryWith acquiring kind op.context s) v := by
  refine keeps_bind (keeps_withTenant acquiring _ free) (fun answer v held => ?_)
  cases answer with
  | error message => exact safe_pure held
  | ok =>
    refine keeps_statement held (fun answer v isOpen => ?_)
    cases answer with
    | error message => exact keeps_abandon_done (.inl (isOpen.mono (fun _ _ => trivial))) rfl
    | ok =>
      rcases rows with rfl | rfl
      · exact safe_pure (.inr ⟨nofun,isOpen⟩)
      · exact safe_pure isOpen
private theorem keeps_beginWith (beginning : String) (tx : kind = .tx ∨ kind = .sqlTx) :
    Keeps (Scoped op) (Fits leaky op) (beginWith beginning kind op.context : P Data Returned) v := by
  refine keeps_bind (keeps_withTenant _ _ free) (fun answer v held => ?_)
  cases answer with
  | error message => exact safe_pure held
  | ok =>
    rcases tx with rfl | rfl
    · exact safe_pure held
    · exact safe_pure held
theorem keeps_queryRow (s : Statement Data) : Keeps (Scoped op) (Fits leaky op) (queryRow op.context s) v := by
  refine keeps_bind (keeps_withTenant _ _ free) (fun answer v held => ?_)
  cases answer with
  | error message => exact safe_pure held
  | ok => exact keeps_statement held (fun answer v isOpen => safe_pure isOpen)
private theorem keeps_queryRowContext (s : Statement Data) (allowed : (tenantIDFromContext op.context).isOk = true → leaky) :
    Keeps (Scoped op) (Fits leaky op) (queryRowContext op.context s) v := by
  unfold queryRowContext
  split
  · refine keeps_bind (keeps_opening _ _ free) (fun answer v held => ?_)
    cases answer with
    | error message => exact safe_pure held
    | ok => exact keeps_abandon_emptyRow held
  · next tenant found =>
    refine keeps_bind (keeps_opening _ _ free) (fun answer v held => ?_)
    cases answer with
    | error message => exact keeps_emptyRow held
    | ok =>
      refine keeps_setLocal held (fun v isOpen => ?_) (fun message v isOpen => keeps_abandon_emptyRow isOpen)
      have inside : v.Open (Scoped op) := isOpen.mono (fun setting same => ⟨tenant,found,same⟩)
      exact keeps_statement inside (fun answer v isOpen => safe_pure ⟨allowed (by rw [found]; rfl),isOpen⟩)
end

/-- A row that would never be released: `RLSDB.QueryRowContext` with a tenant. -/
def Operation.Dangling : Operation Data → Prop
  | .queryRowContext ctx _ => (tenantIDFromContext ctx).isOk = true
  | _ => False
theorem keeps_program (free : v.Free) (allowed : op.Dangling → leaky) : Keeps (Scoped op) (Fits leaky op) op.program v := by
  cases op with
  | exec ctx s => exact keeps_execWith (.exec ctx s) free "" s
  | query ctx s => exact keeps_queryWith (.query ctx s) free "" s (.inl rfl)
  | queryRow ctx s => exact keeps_queryRow (.queryRow ctx s) free s
  | beginTx ctx => exact keeps_beginWith (.beginTx ctx) free _ (.inl rfl)
  | execContext ctx s => exact keeps_execWith (.execContext ctx s) free _ s
  | queryContext ctx s => exact keeps_queryWith (.queryContext ctx s) free _ s (.inr rfl)
  | queryRowContext ctx s => exact keeps_queryRowContext (.queryRowContext ctx s) free s allowed
  | sqlBeginTx ctx => exact keeps_beginWith (.sqlBeginTx ctx) free _ (.inr rfl)

theorem held_of_open (isOpen : v.Open (Scoped op)) : v.Open (fun _ => True) ∨ v.tx ≠ .live :=
  .inl (isOpen.mono (fun _ _ => trivial))
theorem fits_tx (fits : if r.settled = true then v.Free else v.Open (Scoped op)) :
    (r.settled = true ∧ v.Free) ∨ (r.settled = false ∧ v.Open (Scoped op)) := by
  cases settled : r.settled <;> simpa [settled] using fits

theorem keeps_rowsNext (fits : Fits leaky op r v) (rows : r.result = some .rows) :
    Keeps ok (fun r' v => r' = r ∧ v.Free) (rowsNext r) v := by
  rw [Fits,rows] at fits
  have held : v.Open (fun _ => True) ∨ v.tx ≠ .live := fits.elim (fun free => .inr free.1) (fun isOpen => held_of_open isOpen.2)
  exact keeps_bind (keeps_abandon held) (fun _ v free => safe_pure ⟨rfl,free⟩)
theorem keeps_txStatement (s : Statement Data) (tx : r.result = some .tx ∨ r.result = some .sqlTx) (fits : Fits leaky op r v) :
    Keeps (Scoped op) (Fits leaky op) (txStatement s r) v := by
  have given : ∀ (error : Option String) (v : View Data), Fits leaky op { r with error := error } v ↔
      if r.settled = true then v.Free else v.Open (Scoped op) := by
    rcases tx with same | same <;> simp [Fits,same]
  rcases fits_tx ((given r.error v).mp fits) with ⟨settled,free⟩ | ⟨unsettled,isOpen⟩
  · exact keeps_ended trivial (by simp) free.1 (safe_pure ((given _ v).mpr (by simpa [settled] using free)))
  · exact keeps_statement isOpen (fun answer v isOpen => safe_pure ((given _ v).mpr (by simpa [unsettled] using isOpen)))
theorem keeps_txEnd {ending : Call Data} (ends : ending = .commit ∨ ending = .rollback) (tx : r.result = some .tx ∨ r.result = some .sqlTx)
    (fits : Fits leaky op r v) : Keeps (Scoped op) (Fits leaky op) (txEnd ending r) v := by
  have given : Fits leaky op r v ↔ if r.settled = true then v.Free else v.Open (Scoped op) := by
    rcases tx with same | same <;> simp [Fits,same]
  have after : ∀ (answer : Except String Unit) (v : View Data), v.tx ≠ .live →
      Keeps (Scoped op) (Fits leaky op) (do
        let _ ← call .release
        pure { r with error := errorOf answer, settled := true }) v := by
    refine fun answer v ended => keeps_release ended (fun _ v free => safe_pure ?_)
    rcases tx with same | same <;> simpa [Fits,same] using free
  rcases fits_tx (given.mp fits) with ⟨_,free⟩ | ⟨_,isOpen⟩
  · rcases ends with rfl | rfl
    · exact keeps_ended trivial (by simp) free.1 (after _ v free.1)
    · exact keeps_ended trivial (by simp) free.1 (after _ v free.1)
  · have started : v.Open (fun _ => True) := isOpen.mono (fun _ _ => trivial)
    rcases ends with rfl | rfl
    · exact keeps_commit started (fun answer v quiet => after answer v quiet.1)
    · exact keeps_rollback started (fun answer v quiet => after answer v quiet.1)

theorem keeps_use {live : Bool} {method : Method Data} {p : P Data Returned} (fits : Fits leaky op r v) (used : use live r method = some p)
    (allowed : method = .close → r.result = some .rows → v.tx = .live → leaky) : Keeps (Scoped op) (Fits leaky op) p v := by
  cases method with
  | next more =>
    cases more with
    | true =>
      obtain ⟨_,rfl⟩ := guarded used
      exact safe_pure fits
    | false =>
      obtain ⟨rows,rfl⟩ := guarded used
      refine (keeps_rowsNext fits rows).mono (fun r' v after => ?_)
      obtain ⟨rfl,free⟩ := after
      rw [Fits,rows]
      exact .inl free
  | close =>
    simp only [use] at used
    split at used
    · next rows =>
      cases used
      refine safe_pure ?_
      rw [Fits,rows] at fits
      rw [rows]
      exact fits.imp id (fun isOpen => ⟨fun _ => allowed rfl rows isOpen.2.1,isOpen.2⟩)
    · next rows =>
      cases used
      have fits' : if r.settled = true then v.Free else v.Open (Scoped op) := by rwa [Fits,rows] at fits
      unfold sqlRowsClose
      split
      · exact safe_pure fits
      · next unsettled =>
        rw [if_neg unsettled] at fits'
        refine keeps_bind (keeps_abandon (held_of_open fits')) (fun _ v free => safe_pure ?_)
        simpa [Fits,rows] using free
    · cases used
  | scan =>
    simp only [use] at used
    split at used
    · next error row =>
      cases used
      have fits' : if r.settled = true then v.Free else v.Open (Scoped op) := by rwa [Fits,row] at fits
      have held : v.Open (fun _ => True) ∨ v.tx ≠ .live := by
        rcases fits_tx fits' with ⟨_,free⟩ | ⟨_,isOpen⟩
        · exact .inr free.1
        · exact held_of_open isOpen
      refine keeps_bind (keeps_abandon held) (fun _ v free => safe_pure ?_)
      simpa [Fits,row] using free
    · next error row =>
      cases used
      refine safe_pure ?_
      simpa [Fits,row] using fits
    · next error row =>
      cases used
      have fits' : v.Free ∨ (r.settled = false ∧ v.Quiet) := by rwa [Fits,row] at fits
      have ended : v.tx ≠ .live := fits'.elim (fun free => free.1) (fun quiet => quiet.2.1)
      refine keeps_release ended (fun _ v free => safe_pure ?_)
      simpa [Fits,row] using free
    · cases used
  | statement s =>
    obtain ⟨tx,rfl⟩ := guarded used
    exact keeps_txStatement s tx fits
  | commit =>
    obtain ⟨tx,rfl⟩ := guarded used
    exact keeps_txEnd (.inl rfl) tx fits
  | rollback =>
    obtain ⟨tx,rfl⟩ := guarded used
    exact keeps_txEnd (.inr rfl) tx fits
end

/-! ### Every run -/

/-- Rows are closed when they were read to the end, and no row is left to dangle. -/
def Tidy (s : State Data) : Action Data → Prop
  | .start _ op => ¬ op.Dangling
  | .use n .close => ∀ op r, s.tasks n = some (op,.done r) → r.result = some .rows → (s.world.leases n).tx ≠ .live
  | _ => True

/-- The pool is clean, every operation goes on within its guard, and statements were executed for the tenant of their operation. -/
structure Sound (leaky : Prop) (s : State Data) : Prop where
  clean : s.world.Clean
  unused : ∀ n, s.tasks n = none → (s.world.view n).Free
  tasks : ∀ n op p, s.tasks n = some (op,p) → Keeps (Scoped op) (Fits leaky op) p (s.world.view n)
  log : ∀ e ∈ s.world.log, ∃ op p, s.tasks e.lease = some (op,p) ∧ Scoped op e.setting

section
variable {leaky : Prop} {s t : State Data}

theorem sound_start (durable : Data) : Sound leaky (start durable) :=
  ⟨World.start_clean durable,fun _ _ => ⟨by simp [start,World.start,World.view],rfl⟩,by simp [start],by simp [start,World.start]⟩

variable {n : Nat} {a : Action Data} {op : Operation Data} {v : View Data} {actions : List (Action Data)}

theorem Sound.goesOn {p : P Data Returned} {w : World Data} (sound : Sound leaky s) (clean : w.Clean)
    (others : ∀ m, m ≠ n → w.view m = s.world.view m) (same : ∀ op' p, s.tasks n = some (op',p) → op' = op)
    (keeps : Keeps (Scoped op) (Fits leaky op) p (w.view n))
    (log : w.log = s.world.log ∨ ∃ setting, Scoped op setting ∧ w.log = ⟨n,setting⟩ :: s.world.log) :
    Sound leaky (({ s with world := w } : State Data).set n op p) := by
  refine ⟨clean,?_,?_,?_⟩
  · intro m idle
    by_cases own : m = n
    · subst own
      simp [State.set] at idle
    · simp only [State.set,update_of_ne own] at idle
      show (w.view m).Free
      rw [others m own]
      exact sound.unused m idle
  · intro m op' p' task
    by_cases own : m = n
    · subst own
      simp only [State.set,update_self,Option.some.injEq,Prod.mk.injEq] at task
      obtain ⟨rfl,rfl⟩ := task
      exact keeps
    · simp only [State.set,update_of_ne own] at task
      show Keeps _ _ p' (w.view m)
      rw [others m own]
      exact sound.tasks m op' p' task
  · have before : ∀ e ∈ s.world.log, ∃ op' p', (({ s with world := w } : State Data).set n op p).tasks e.lease = some (op',p') ∧
        Scoped op' e.setting := by
      intro e executed
      obtain ⟨op',p',task,meets⟩ := sound.log e executed
      by_cases own : e.lease = n
      · obtain rfl := same op' p' (own ▸ task)
        exact ⟨op',p,by simp [State.set,own],meets⟩
      · exact ⟨op',p',by simpa [State.set,own] using task,meets⟩
    intro e executed
    have executed : e ∈ w.log := executed
    rcases log with equal | ⟨setting,meets,more⟩
    · exact before e (equal ▸ executed)
    · rw [more] at executed
      rcases List.mem_cons.mp executed with rfl | earlier
      · exact ⟨op,p,by simp [State.set],meets⟩
      · exact before e earlier

/-- A step starts an operation, uses a method on a result, or answers a call of an operation. -/
theorem step_cases (stepped : step s a = some t) :
    (∃ n op, a = .start n op ∧ s.tasks n = none ∧ t = s.set n op op.program) ∨
    (∃ n method op r p, a = .use n method ∧ s.tasks n = some (op,.done r) ∧
      use (decide ((s.world.leases n).tx = .live)) r method = some p ∧ t = s.set n op p) ∨
    (∃ n choice op c next reply w, a = .answer n choice ∧ s.tasks n = some (op,.call c next) ∧
      perform n s.world c choice = some (reply,w) ∧ t = ({ s with world := w } : State Data).set n op (next reply)) := by
  cases a with
  | start n op =>
    simp only [step] at stepped
    split at stepped <;> cases stepped
    next idle =>
    exact .inl ⟨n,op,rfl,idle,rfl⟩
  | use n method =>
    simp only [step] at stepped
    split at stepped
    · next op r task =>
      obtain ⟨p,used,rfl⟩ := Option.map_eq_some_iff.mp stepped
      exact .inr (.inl ⟨n,method,op,r,p,rfl,task,used,rfl⟩)
    · cases stepped
  | answer n choice =>
    simp only [step] at stepped
    split at stepped
    · next op p task =>
      obtain ⟨⟨w,p'⟩,answered,rfl⟩ := Option.map_eq_some_iff.mp stepped
      cases p with
      | done r => cases answered
      | call c next =>
        obtain ⟨⟨reply,w'⟩,performed,same⟩ := Option.map_eq_some_iff.mp answered
        cases same
        exact .inr (.inr ⟨n,choice,op,c,next,reply,w,rfl,task,performed,rfl⟩)
    · cases stepped
theorem sound_step (sound : Sound leaky s) (allowed : leaky ∨ Tidy s a) (stepped : step s a = some t) : Sound leaky t := by
  rcases step_cases stepped with ⟨n,op,rfl,idle,rfl⟩ | ⟨n,method,op,r,p,rfl,task,used,rfl⟩ |
    ⟨n,choice,op,c,next,reply,w,rfl,task,performed,rfl⟩
  · refine sound.goesOn sound.clean (fun _ _ => rfl) (by simp [idle]) (keeps_program (sound.unused n idle) ?_) (.inl rfl)
    exact fun dangling => allowed.elim id (fun tidy => absurd dangling tidy)
  · refine sound.goesOn sound.clean (fun _ _ => rfl) (by simp [task]) (keeps_use (sound.tasks n op _ task) used ?_) (.inl rfl)
    rintro rfl rows live
    exact allowed.elim id (fun tidy => absurd live (tidy op r task rows))
  · have keeps := sound.tasks n op _ task
    obtain ⟨clean,⟨chance,own⟩,others,log⟩ := perform_performed sound.clean keeps.1 performed
    exact sound.goesOn clean others (by simp [task]) (keeps.2 chance reply _ own) log

/-- However operations interleave and whatever fails, a statement is executed only in a transaction in which
    `app.tenant_id` is the tenant of the operation that sent it or opened the transaction. -/
theorem statements_scoped (durable : Data) {s : State Data} (run : Reach step Any (start durable) s) {e : Executed}
    (executed : e ∈ s.world.log) : ∃ op p tenant, s.tasks e.lease = some (op,p) ∧ tenantIDFromContext op.context = .ok tenant ∧
      e.setting = some tenant := by
  have sound : Sound True s := run.invariant (sound_start durable) (fun sound _ => sound_step sound (.inl trivial))
  obtain ⟨op,p,task,tenant,found,same⟩ := sound.log e executed
  exact ⟨op,p,tenant,task,found,same⟩

/-- Two tenants over one connection: an update that is committed, then a query that is left open. -/
def twoTenants : List (Action Nat) :=
  [.start 0 (.exec ⟨some "acme",none⟩ (fun _ data => .ok (data+1))),.answer 0 (.conn 3),.answer 0 .done,.answer 0 .done,
    .answer 0 .done,.answer 0 .done,.answer 0 .done,.answer 0 .done,
    .start 1 (.query ⟨some "",some "globex"⟩ (fun _ data => .ok data)),.answer 1 (.conn 3),.answer 1 .done,.answer 1 .done,
    .answer 1 .done]
theorem statements_scoped_two : ∃ s : State Nat, Reach step Any (start 0) s ∧ s.world.log = [⟨1,some "globex"⟩,⟨0,some "acme"⟩] ∧
      ∀ e ∈ s.world.log, ∃ op p tenant, s.tasks e.lease = some (op,p) ∧ tenantIDFromContext op.context = .ok tenant ∧
        e.setting = some tenant :=
  reach_seen twoTenants (by decide +kernel) (along_any _ _) (fun _ run _ e executed => statements_scoped 0 run executed)

/-- Every task has ended and settled its transaction. -/
def Settled (s : State Data) : Prop := ∀ n op p, s.tasks n = some (op,p) → ∃ r, p = .done r ∧ r.settled = true
def Released (w : World Data) : Prop := ∀ c, (w.conns c).holder = none ∧ (w.conns c).link.Quiet

private theorem fits_settled {r : Returned} (fits : Fits False op r v) (settled : r.settled = true) : v.Free := by
  obtain ⟨error,result,flag⟩ := r
  cases result with
  | none => exact fits
  | some kind => cases kind <;> simp_all [Fits]
/-- When rows are closed only after they were read to the end and no row dangles, everything is released once all is settled. -/
theorem settled_released (durable : Data) {s : State Data} (run : Reach step Tidy (start durable) s) (settled : Settled s) :
    Released s.world := by
  have sound : Sound False s := run.invariant (sound_start durable)
    (fun sound tidy => sound_step sound (.inr tidy))
  have free : ∀ n, (s.world.view n).Free := by
    intro n
    cases task : s.tasks n with
    | none => exact sound.unused n task
    | some entry =>
      obtain ⟨op,p⟩ := entry
      obtain ⟨r,rfl,done⟩ := settled n op p task
      exact fits_settled (sound.tasks n op _ task) done
  intro c
  cases holder : (s.world.conns c).holder with
  | none => exact ⟨rfl,sound.clean.quiet c holder⟩
  | some n =>
    have view := view_held (sound.clean.named c n holder) holder
    have none := (free n).2
    rw [view] at none
    cases none

def Action.lease : Action Data → Nat
  | .start n _ | .use n _ | .answer n _ => n
/-- The operation of a lease has a result that is settled, if it has begun. -/
def settledAt (s : State Data) (n : Nat) : Bool :=
  match s.tasks n with
  | none => true
  | some (_,.done r) => r.settled
  | some (_,.call ..) => false
private theorem step_tasks (stepped : step s a = some t) (other : n ≠ a.lease) : t.tasks n = s.tasks n := by
  rcases step_cases stepped with ⟨m,op,rfl,_,rfl⟩ | ⟨m,method,op,r,p,rfl,_,_,rfl⟩ | ⟨m,choice,op,c,next,reply,w,rfl,_,_,rfl⟩
  · exact update_of_ne other _ _
  · exact update_of_ne other _ _
  · exact update_of_ne other _ _
private theorem run_tasks (ran : run step s actions = some t) (others : ∀ a ∈ actions, n ≠ a.lease) : t.tasks n = s.tasks n := by
  induction actions generalizing s with
  | nil =>
    cases ran
    rfl
  | cons a rest ih =>
    obtain ⟨between,stepped,later⟩ := run_cons ran
    rw [ih later (fun a member => others a (List.mem_cons_of_mem _ member))]
    exact step_tasks stepped (others a List.mem_cons_self)
theorem run_settled {durable : Data} {count : Nat} (ran : run step (start durable) actions = some t)
    (below : ∀ a ∈ actions, a.lease < count) (settled : (List.range count).all (settledAt t) = true) : Settled t := by
  intro n op p task
  by_cases known : n < count
  · have done := List.all_eq_true.mp settled n (List.mem_range.mpr known)
    cases p with
    | done r => exact ⟨r,rfl,by simpa [settledAt,task] using done⟩
    | call c next => simp [settledAt,task] at done
  · have fresh := run_tasks ran (n := n) (fun a member same => known (same ▸ below a member))
    rw [task] at fresh
    cases fresh

instance (op : Operation Data) : Decidable op.Dangling := by
  unfold Operation.Dangling
  split <;> infer_instance
instance : ∀ (s : State Data) (a : Action Data), Decidable (Tidy s a)
  | _, .start _ op => inferInstanceAs (Decidable (¬ op.Dangling))
  | s, .use n .close =>
    match task : s.tasks n with
    | none => .isTrue (by simp [Tidy,task])
    | some (_,.call ..) => .isTrue (by simp [Tidy,task])
    | some (_,.done r) => decidable_of_iff (r.result = some .rows → (s.world.leases n).tx ≠ .live) (by
      simp only [Tidy,task,Option.some.injEq,Prod.mk.injEq,Prog.done.injEq]
      exact ⟨fun quiet _ _ same => same.2 ▸ quiet,fun quiet => quiet _ r ⟨rfl,rfl⟩⟩)
  | _, .use _ (.next _) | _, .use _ .scan | _, .use _ (.statement _) | _, .use _ .commit | _, .use _ .rollback
  | _, .answer .. => .isTrue trivial

/-- A query that is read to the end and closed, while a row is scanned on another connection. -/
def readAndClosed : List (Action Nat) :=
  [.start 0 (.query ⟨some "acme",none⟩ (fun _ data => .ok data)),.answer 0 (.conn 0),.answer 0 .done,.answer 0 .done,.answer 0 .done,
    .start 1 (.queryRow ⟨some "acme",none⟩ (fun _ _ => .error "no such table")),.answer 1 (.conn 1),.answer 1 .done,.answer 1 .done,
    .answer 1 .done,.use 0 (.next true),.use 0 (.next false),.answer 0 .done,.answer 0 .done,
    .use 1 .scan,.answer 1 .done,.use 0 .close,.answer 1 .done]
theorem settled_released_read : ∃ s : State Nat, Reach step Tidy (start 0) s ∧ s.world.log.length = 2 ∧ Settled s ∧ Released s.world := by
  obtain ⟨s,ran,length,settled⟩ := run_seen step (start 0) readAndClosed
    (fun s => s.world.log.length = 2 ∧ (List.range 2).all (settledAt s) = true) (by decide +kernel)
  have run := run_reach ran (show Along step Tidy (start 0) readAndClosed from by decide +kernel)
  have settled := run_settled ran (by decide) settled
  exact ⟨s,run,length,settled,settled_released 0 run settled⟩
/-- Rows that are closed before they are exhausted keep their connection and their transaction. -/
theorem closed_rows_leak :
    ¬ ∀ (Data : Type) (durable : Data) (s : State Data) (_ : Reach step Any (start durable) s) (_ : Settled s), Released s.world := by
  intro claim
  obtain ⟨s,ran,settled,holder⟩ := run_seen step (start 0)
    [.start 0 (.query ⟨some "acme",none⟩ (fun _ data => .ok data)),.answer 0 (.conn 0),.answer 0 .done,.answer 0 .done,.answer 0 .done,
      .use 0 .close]
    (fun s => (List.range 1).all (settledAt s) = true ∧ (s.world.conns 0).holder = some 0) (by decide +kernel)
  have released := claim Nat 0 s (run_any ran) (run_settled ran (by decide) settled) 0
  rw [holder] at released
  cases released.1

inductive Reading
  | query | queryRow
  deriving DecidableEq
section
variable (reading : Reading) (ctx : Context) (s : Statement Data)
def readAll : P Data Returned :=
  match reading with
  | .query => do
    let r ← query ctx s
    match r.result with
    | some .rows =>
      let r ← rowsNext r
      rowsClose r
    | _ => pure r
  | .queryRow => do
    let r ← queryRow ctx s
    match r.result with
    | some (.row error) => rowScan error r
    | _ => pure r
def Reading.operation : Operation Data :=
  match reading with
  | .query => .query ctx s
  | .queryRow => .queryRow ctx s

theorem uncommitted_abandon : Uncommitted (abandon : P Data Unit) :=
  uncommitted_call (by simp) (fun _ => uncommitted_call (by simp) (fun _ => trivial))
theorem uncommitted_opening (acquiring beginning : String) : Uncommitted (opening acquiring beginning : P Data (Except String Unit)) := by
  refine uncommitted_call (by simp) (fun answer => ?_)
  cases answer with
  | error message => trivial
  | ok =>
    refine uncommitted_call (by simp) (fun answer => ?_)
    cases answer with
    | error message => exact uncommitted_call (by simp) (fun _ => trivial)
    | ok => trivial
private theorem uncommitted_withTenant (acquiring beginning : String) (ctx : Context) :
    Uncommitted (withTenant acquiring beginning ctx : P Data (Except String Unit)) := by
  unfold withTenant
  split
  · trivial
  · refine uncommitted_bind (uncommitted_opening acquiring beginning) (fun answer => ?_)
    cases answer with
    | error message => trivial
    | ok =>
      refine uncommitted_call (by simp) (fun answer => ?_)
      cases answer with
      | error message => exact uncommitted_bind uncommitted_abandon (fun _ => trivial)
      | ok => trivial
theorem uncommitted_readAll : Uncommitted (readAll reading ctx s) := by
  cases reading with
  | query =>
    refine uncommitted_bind (uncommitted_bind (uncommitted_withTenant _ _ ctx) (fun answer => ?_)) (fun r => ?_)
    · cases answer with
      | error message => trivial
      | ok =>
        refine uncommitted_call (by simp) (fun answer => ?_)
        cases answer with
        | error message => exact uncommitted_bind uncommitted_abandon (fun _ => trivial)
        | ok => trivial
    · split
      · exact uncommitted_bind (uncommitted_bind uncommitted_abandon (fun _ => trivial)) (fun _ => trivial)
      · trivial
  | queryRow =>
    refine uncommitted_bind (uncommitted_bind (uncommitted_withTenant _ _ ctx) (fun answer => ?_)) (fun r => ?_)
    · cases answer with
      | error message => trivial
      | ok => exact uncommitted_call (by simp) (fun _ => trivial)
    · split
      · exact uncommitted_bind uncommitted_abandon (fun _ => trivial)
      · trivial
private theorem keeps_readAll (free : v.Free) :
    Keeps (Scoped (reading.operation ctx s)) (Fits True (reading.operation ctx s)) (readAll reading ctx s) v := by
  cases reading with
  | query =>
    have first : Keeps (Scoped _) (Fits True (.query ctx s)) (query ctx s) v := keeps_queryWith (.query ctx s) free "" s (.inl rfl)
    refine keeps_bind first (fun r v fits => ?_)
    split
    · next rows =>
      refine keeps_bind (keeps_rowsNext fits rows) (fun r' v after => safe_pure ?_)
      obtain ⟨rfl,free⟩ := after
      rw [rows]
      exact .inl free
    · exact safe_pure fits
  | queryRow =>
    have first : Keeps (Scoped _) (Fits True (.queryRow ctx s)) (queryRow ctx s) v := keeps_queryRow (.queryRow ctx s) free s
    refine keeps_bind first (fun r v fits => ?_)
    split
    · next error row => exact keeps_use fits (show use true r (.scan : Method Data) = some (rowScan error r) by simp [use,row]) (by simp)
    · exact safe_pure fits

/-- The statement on the plain pool, under the tenant of the context. -/
def plain (ctx : Context) (s : Statement Data) (data : Data) : Data :=
  match tenantIDFromContext ctx with
  | .ok tenant => applied (s (some tenant)) data
  | .error _ => data

/-- A query that is read to the end leaves what the statement on the plain pool leaves exactly when that changes nothing. -/
theorem reading_transparent_iff (n : Nat) {w w' : World Data}
    (clean : w.Clean) (free : (w.view n).Free) {choices : List Choice} {r : Returned}
    (read : answers (perform n) w choices (readAll reading ctx s) = some (w',.done r)) :
    w'.durable = plain ctx s w.durable ↔ plain ctx s w.durable = w.durable := by
  have unchanged : w'.durable = w.durable :=
    answers_durable (fun setting meets => by obtain ⟨_,_,rfl⟩ := meets; simp) clean (keeps_readAll reading ctx s free)
      (uncommitted_readAll reading ctx s) read
  rw [unchanged]
  exact eq_comm
end

def acme : Context := ⟨some "acme",none⟩
def allDone : List Choice := [.conn 0,.done,.done,.done,.done,.done]
theorem start_free (durable : Data) (n : Nat) : ((World.start durable).view n).Free := ⟨by simp [World.start,World.view],rfl⟩

theorem reading_transparent_select :
    ∃ w' r, answers (perform 0) (World.start 5) allDone (readAll .query acme (fun _ data => .ok data)) = some (w',.done r) ∧
      r.error = none ∧ w'.durable = plain acme (fun _ data => .ok data) 5 := by
  obtain ⟨r,w',read,good⟩ := answers_seen (perform 0) (World.start 5) allDone (readAll .query acme (fun _ data => .ok data))
    (fun r _ => r.error = none) (by decide +kernel)
  exact ⟨w',r,read,good,(reading_transparent_iff .query acme (fun _ data => .ok data) 0 (World.start_clean 5) (start_free 5 0) read).mpr rfl⟩
/-- The row of an `UPDATE ... RETURNING` is read, and the update is rolled back. -/
theorem reading_rolled_back :
    ¬ ∀ (Data : Type) (reading : Reading) (ctx : Context) (s : Statement Data) (n : Nat) (w w' : World Data) (_ : w.Clean)
      (_ : (w.view n).Free) (choices : List Choice) (r : Returned)
      (_ : answers (perform n) w choices (readAll reading ctx s) = some (w',.done r)) (_ : r.error = none),
      w'.durable = plain ctx s w.durable := by
  intro claim
  obtain ⟨r,w',read,good,kept⟩ := answers_seen (perform 0) (World.start 0) allDone (readAll .queryRow acme (fun _ data => .ok (data+1)))
    (fun r w => r.error = none ∧ w.durable = 0) (by decide +kernel)
  have same := claim Nat .queryRow acme (fun _ data => .ok (data+1)) 0 (World.start 0) w' (World.start_clean 0) (start_free 0 0) allDone r
    read good
  rw [kept] at same
  exact absurd same (by decide)
end

end Stellabill.RowSecurity
