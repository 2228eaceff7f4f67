import Mathlib.Data.List.Perm.Basic
import Mathlib.Logic.Function.Basic
import Stellabill.Program

/-!
The migration of the statements to a partitioned table, and the way back. The migration copies some
columns of every row and swaps the names of the tables; the way back copies nothing.
-/
namespace Stellabill.PartitionMigration
open Program Function
open Option (bind_eq_some_iff bind_some map_eq_some_iff)

abbrev Column := String
abbrev Row := Column → Option String
def project (columns : List Column) (row : Row) : List (Option String) := columns.map row

/-- Rows that meet the constraints: each alone (NOT NULL, CHECK, a partition for it), and the primary key if there is one. -/
def Valid (accepts : Row → Bool) (key : Option (List Column)) (rows : List Row) : Prop :=
  (∀ row ∈ rows, accepts row = true) ∧ ∀ columns ∈ key, (rows.map (project columns)).Nodup
  deriving Decidable

structure Relation where
  partitioned : Bool
  columns : List Column
  default_ : Row
  accepts : Row → Bool
  key : Option (List Column)
  rows : List Row
  valid : Valid accepts key rows

def Relation.withRows (r : Relation) (rows : List Row) : Option Relation :=
  if valid : Valid r.accepts r.key rows then some { r with rows, valid } else none

abbrev Values := List (Column × Option String)
def assign (values : Values) (row : Row) : Row := fun column => (values.lookup column).getD (row column)

/-- An INSERT of one row, or an UPDATE of the rows that meet a condition. -/
inductive Write
  | insert (values : Values)
  | update (cond : Row → Bool) (values : Values)
def Write.values : Write → Values
  | .insert values | .update _ values => values
def Write.rows (r : Relation) : Write → List Row
  | .insert values => r.rows ++ [assign values r.default_]
  | .update cond values => r.rows.map fun row => if cond row then assign values row else row
/-- A write that is refused changes nothing. -/
def Relation.write (r : Relation) (w : Write) : Relation :=
  if ∀ value ∈ w.values, value.1 ∈ r.columns then (r.withRows (w.rows r)).getD r else r

abbrev Database := String → Option Relation
def rename (db : Database) (name newName : String) : Option Database :=
  match db name,db newName with
  | some r,none => some (update (update db name none) newName (some r))
  | _,_ => none

def oldStatementsTable : String := "statements_old"
def copied : List Column :=
  ["id","subscription_id","customer_id","period_start","period_end","issued_at","total_amount","currency","kind","status","deleted_at"]
def copyRow (target : Relation) (row : Row) : Row := fun column => if column ∈ copied then row column else target.default_ column
def copyInto (target source : Relation) : Option Relation :=
  if (∀ column ∈ copied, column ∈ source.columns) ∧ ∀ column ∈ copied, column ∈ target.columns then
    target.withRows (target.rows ++ source.rows.map (copyRow target))
  else none

inductive Statement
  | lock (name : String)
  | copy (target source : String)
  | rename (name newName : String)
def Statement.run (db : Database) : Statement → Option Database
  | .lock name => (db name).map fun _ => db
  | .copy target source =>
    (db target).bind fun t => (db source).bind fun s => (copyInto t s).map fun filled => update db target (some filled)
  | .rename name newName => PartitionMigration.rename db name newName

structure World where
  durable : Database
  tx : Option Database

inductive Call
  | isTablePartitioned (name : String)
  | tableExists (name : String)
  | beginTx
  | exec (statement : Statement)
  | commit
abbrev Answer : Call → Type
  | .isTablePartitioned _ | .tableExists _ => Except String Bool
  | .beginTx | .exec _ | .commit => Option String

/-- The calls. The check of a table that does not exist fails, and so may any call. -/
def perform (w : World) : (c : Call) → Reply → Option (Answer c × World)
  | .isTablePartitioned name,reply =>
    match reply.error,w.durable name with
    | none,some r => some (.ok r.partitioned,w)
    | some message,_ => some (.error message,w)
    | none,none => some (.error "relation does not exist",w)
  | .tableExists name,reply =>
    match reply.error with
    | none => some (.ok (w.durable name).isSome,w)
    | some message => some (.error message,w)
  | .beginTx,reply =>
    match reply.error with
    | none => some (none,{ w with tx := some w.durable })
    | some message => some (some message,w)
  | .exec statement,reply =>
    match reply.error,w.tx.bind fun db => statement.run db with
    | none,some db => some (none,{ w with tx := some db })
    | some message,_ => some (some message,{ w with tx := none })
    | none,none => some (some "statement refused",{ w with tx := none })
  | .commit,reply =>
    match w.tx with
    | some db => some (reply.error,⟨if reply.effective then db else w.durable,none⟩)
    | none => some (some "no transaction",w)

/-- `ParseBool` of the variable. -/
def statementsPartitioningEnabled (env : Option String) : Bool := env.any fun val => val ∈ ["1","t","T","TRUE","true","True"]

/-- The statements of a transaction, each with the text that is put in front of its error. -/
def execAll : List (String × Statement) → Prog Call Answer (Option String)
  | [] => pure none
  | (context,statement) :: rest => do
    match ← call (Call.exec statement) with
    | some message => pure (some (context ++ ": " ++ message))
    | none => execAll rest
def inTransaction (what : String) (statements : List (String × Statement)) : Prog Call Answer (Option String) := do
  match ← call Call.beginTx with
  | some message => pure (some ("begin " ++ what ++ " transaction: " ++ message))
  | none =>
    match ← execAll statements with
    | some message => pure (some message)
    | none =>
      match ← call Call.commit with
      | some message => pure (some ("commit " ++ what ++ " transaction: " ++ message))
      | none => pure none

def migration : List (String × Statement) :=
  [("lock statements",.lock "statements"),
    ("copy statements to partitioned table",.copy "statements_partitioned" "statements"),
    ("rename statements to " ++ oldStatementsTable,.rename "statements" oldStatementsTable),
    ("rename statements_partitioned to statements",.rename "statements_partitioned" "statements")]
def migrateStatementsPartition (env : Option String) : Prog Call Answer (Option String) :=
  if statementsPartitioningEnabled env then do
    match ← call (Call.isTablePartitioned "statements") with
    | .error message => pure (some ("check if statements is partitioned: " ++ message))
    | .ok true => pure none
    | .ok false =>
      match ← call (Call.tableExists "statements_partitioned") with
      | .error message => pure (some ("check table statements_partitioned existence: " ++ message))
      | .ok false => pure (some "statements_partitioned table does not exist; run migrations first")
      | .ok true => inTransaction "migration" migration
  else pure none

def rollback : List (String × Statement) :=
  [("lock statements for rollback",.lock "statements"),
    ("rename statements to statements_partitioned",.rename "statements" "statements_partitioned"),
    ("rename " ++ oldStatementsTable ++ " to statements",.rename oldStatementsTable "statements")]
def rollbackStatementsPartition : Prog Call Answer (Option String) := do
  match ← call (Call.tableExists oldStatementsTable) with
  | .error message => pure (some ("check table " ++ oldStatementsTable ++ " existence: " ++ message))
  | .ok false => pure none
  | .ok true => inTransaction "rollback" rollback

/-! ### What they leave behind -/

def runAll (db : Database) (statements : List (String × Statement)) : Option Database :=
  statements.foldlM (fun db statement => statement.2.run db) db

/-- What may be durable after the program was run, to its end or to some call. -/
def Leaves (p : Prog Call Answer (Option String)) (db db' : Database) : Prop :=
  ∃ replies w p', answers perform ⟨db,none⟩ replies p = some (w,p') ∧ w.durable = db'

section
variable {db db' d : Database} {w : World} {statements : List (String × Statement)} {what : String}

theorem runAll_cons {context : String} {statement : Statement} :
    runAll db ((context,statement) :: statements) = (statement.run db).bind (runAll · statements) := rfl
/-- The program leaves what was durable, or something that meets `outcome`. -/
abbrev Keeps (outcome : Database → Prop) (p : Prog Call Answer (Option String)) (db : Database) (post : Option String → World → Prop)
    (w : World) : Prop :=
  Safe perform (fun w _ => w.durable = db ∨ outcome w.durable) (fun value w => (w.durable = db ∨ outcome w.durable) ∧ post value w) p w

variable {outcome : Database → Prop} {p : Prog Call Answer (Option String)} {name : String} {reply : Reply} {answer : Except String Bool}
  {w' : World}

theorem execAll_safe (same : w.durable = db) (isOpen : w.tx = some d) : Keeps outcome (execAll statements) db
      (fun error w' => w'.durable = db ∧ (error = none → ∃ d', w'.tx = some d' ∧ runAll d statements = some d')) w := by
  induction statements generalizing w d with
  | nil => exact ⟨.inl same,same,fun _ => ⟨d,isOpen,rfl⟩⟩
  | cons statement rest ih =>
    obtain ⟨context,statement⟩ := statement
    refine safe_call_bind (.inl same) ?_
    intro reply answer w' performed
    rw [perform,isOpen,bind_some] at performed
    cases failed : reply.error with
    | some message =>
      rw [failed] at performed
      cases performed
      exact ⟨.inl same,same,nofun⟩
    | none =>
      rw [failed] at performed
      cases ran : statement.run d with
      | none =>
        rw [ran] at performed
        cases performed
        exact ⟨.inl same,same,nofun⟩
      | some d' =>
        rw [ran] at performed
        cases performed
        refine (ih (w := { w with tx := some d' }) same rfl).mono ?_
        rintro error w' ⟨kept,same',ends⟩
        rw [runAll_cons,ran]
        exact ⟨kept,same',ends⟩
theorem inTransaction_safe (leads : ∀ db', runAll db statements = some db' → outcome db') (same : w.durable = db) :
    Keeps outcome (inTransaction what statements) db (fun _ _ => True) w := by
  refine safe_call_bind (.inl same) ?_
  intro reply answer w' performed
  rw [perform] at performed
  cases failed : reply.error with
  | some message =>
    rw [failed] at performed
    cases performed
    exact ⟨.inl same,trivial⟩
  | none =>
    rw [failed] at performed
    cases performed
    have executed : Keeps outcome (execAll statements) db
        (fun error w' => w'.durable = db ∧ (error = none → ∃ d', w'.tx = some d' ∧ runAll w.durable statements = some d'))
        { w with tx := some w.durable } :=
      execAll_safe same rfl
    refine safe_bind (executed.mono ?_)
    rintro error w' ⟨kept,same',ends⟩
    cases error with
    | some message => exact ⟨kept,trivial⟩
    | none =>
      obtain ⟨d,isOpen,ran⟩ := ends rfl
      rw [same] at ran
      refine safe_call_bind kept ?_
      intro reply answer w₁ performed
      rw [perform,isOpen] at performed
      cases performed
      have ends : (if reply.effective then d else w'.durable) = db ∨ outcome (if reply.effective then d else w'.durable) := by
        split
        · exact .inr (leads d ran)
        · exact .inl same'
      cases reply.error with
      | none | some => exact ⟨ends,trivial⟩

private theorem execAll_ends (ran : runAll d statements = some db') : Ends perform (execAll statements) ⟨db,some d⟩ none ⟨db,some db'⟩ := by
  induction statements generalizing d with
  | nil =>
    cases ran
    exact ends_pure
  | cons statement rest ih =>
    obtain ⟨context,statement⟩ := statement
    rw [runAll_cons] at ran
    obtain ⟨d',ran',later⟩ := bind_eq_some_iff.mp ran
    have executed : perform ⟨db,some d⟩ (.exec statement) .done = some (none,⟨db,some d'⟩) := by
      rw [perform,bind_some,ran']
      rfl
    exact ends_call_bind executed (ih later)
theorem inTransaction_ends (ran : runAll db statements = some db') : Ends perform (inTransaction what statements) ⟨db,none⟩ none ⟨db',none⟩ := by
  have begun : perform ⟨db,none⟩ .beginTx .done = some (none,⟨db,some db⟩) := rfl
  have committed : perform ⟨db,some db'⟩ .commit .done = some (none,⟨db',none⟩) := rfl
  exact ends_call_bind begun ((execAll_ends ran).bind (ends_call_bind committed ends_pure))

theorem Leaves.keeps (leaves : Leaves p db db') (safe : Keeps outcome p db (fun _ _ => True) ⟨db,none⟩) : db' = db ∨ outcome db' := by
  obtain ⟨replies,w,p',ran,rfl⟩ := leaves
  let kept (w : World) : Prop := w.durable = db ∨ outcome w.durable
  have later : Keeps outcome p' db (fun _ _ => True) w := safe_answers safe ran
  have holds : kept w := later.kept (fun _ _ kept => kept) (fun _ _ kept => kept.1)
  exact holds
theorem leaves_same : Leaves p db db := ⟨[],⟨db,none⟩,p,rfl,rfl⟩
theorem Ends.leaves {error : Option String} (ends : Ends perform p ⟨db,none⟩ error ⟨db',none⟩) : Leaves p db db' := by
  obtain ⟨replies,ran⟩ := ends
  exact ⟨replies,_,_,ran,rfl⟩

theorem isTablePartitioned_answer (performed : perform w (.isTablePartitioned name) reply = some (answer,w')) :
    w' = w ∧ ∀ b, answer = .ok b → ∃ r, w.durable name = some r ∧ r.partitioned = b := by
  rw [perform] at performed
  split at performed
  · next r _ found =>
    cases performed
    exact ⟨rfl,fun b is => ⟨r,found,Except.ok.inj is⟩⟩
  · cases performed
    exact ⟨rfl,nofun⟩
  · cases performed
    exact ⟨rfl,nofun⟩
theorem tableExists_answer (performed : perform w (.tableExists name) reply = some (answer,w')) :
    w' = w ∧ ∀ b, answer = .ok b → (w.durable name).isSome = b := by
  rw [perform] at performed
  split at performed
  · cases performed
    exact ⟨rfl,fun b is => Except.ok.inj is⟩
  · cases performed
    exact ⟨rfl,nofun⟩

variable (env : Option String)
/-- The conditions under which the migration gets as far as its transaction. -/
def Migrates (db db' : Database) : Prop :=
  statementsPartitioningEnabled env = true ∧ (∃ r, db "statements" = some r ∧ r.partitioned = false) ∧ runAll db migration = some db'
theorem migrate_safe : Keeps (Migrates env db) (migrateStatementsPartition env) db (fun _ _ => True) ⟨db,none⟩ := by
  unfold migrateStatementsPartition
  split
  · next enabled =>
    refine safe_call_bind (.inl rfl) ?_
    intro reply answer w performed
    obtain ⟨rfl,checked⟩ := isTablePartitioned_answer performed
    cases answer with
    | error message => exact ⟨.inl rfl,trivial⟩
    | ok partitioned =>
      have unpartitioned := checked partitioned rfl
      cases partitioned with
      | true => exact ⟨.inl rfl,trivial⟩
      | false =>
        refine safe_call_bind (.inl rfl) ?_
        intro reply answer w performed
        obtain ⟨rfl,_⟩ := tableExists_answer performed
        cases answer with
        | error message => exact ⟨.inl rfl,trivial⟩
        | ok exists_ =>
          cases exists_ with
          | false => exact ⟨.inl rfl,trivial⟩
          | true => exact inTransaction_safe (fun db' ran => ⟨enabled,unpartitioned,ran⟩) rfl
  · exact ⟨.inl rfl,trivial⟩

theorem run_rename {newName : String} : (Statement.rename name newName).run db = some db' ↔
    ∃ r, db name = some r ∧ db newName = none ∧ db' = update (update db name none) newName (some r) := by
  rw [Statement.run,rename]
  cases db name <;> cases db newName <;> simp [eq_comm]
structure Ready (db : Database) (source target filled : Relation) : Prop where
  statements : db "statements" = some source
  partitioned : db "statements_partitioned" = some target
  free : db oldStatementsTable = none
  copy : copyInto target source = some filled
theorem migration_ran (ran : runAll db migration = some db') : ∃ source target filled, Ready db source target filled ∧
    db' "statements" = some filled ∧ db' oldStatementsTable = some source ∧ db' "statements_partitioned" = none := by
  rw [migration,runAll_cons] at ran
  obtain ⟨db₁,locked,ran⟩ := bind_eq_some_iff.mp ran
  obtain ⟨source,statements,rfl⟩ := map_eq_some_iff.mp locked
  rw [runAll_cons] at ran
  obtain ⟨db₂,copied_,ran⟩ := bind_eq_some_iff.mp ran
  obtain ⟨target,partitioned,copied_⟩ := bind_eq_some_iff.mp copied_
  obtain ⟨source',statements',copied_⟩ := bind_eq_some_iff.mp copied_
  rw [statements] at statements'
  cases statements'
  obtain ⟨filled,copy,rfl⟩ := map_eq_some_iff.mp copied_
  rw [runAll_cons] at ran
  obtain ⟨db₃,renamed,ran⟩ := bind_eq_some_iff.mp ran
  obtain ⟨r,found,free,rfl⟩ := run_rename.mp renamed
  rw [runAll_cons] at ran
  obtain ⟨db₄,renamed',ran⟩ := bind_eq_some_iff.mp ran
  obtain ⟨r',found',free',rfl⟩ := run_rename.mp renamed'
  cases ran
  simp [oldStatementsTable,statements] at found free found'
  cases found
  cases found'
  exact ⟨source,target,filled,⟨statements,partitioned,free,copy⟩,by simp [oldStatementsTable]⟩

theorem migration_runs {source target filled : Relation} (ready : Ready db source target filled) : ∃ db', runAll db migration = some db' ∧
    db' "statements" = some filled ∧ db' oldStatementsTable = some source ∧ db' "statements_partitioned" = none := by
  let db₁ := update db "statements_partitioned" (some filled)
  let db₂ := update (update db₁ "statements" none) oldStatementsTable (some source)
  let db₃ := update (update db₂ "statements_partitioned" none) "statements" (some filled)
  have locked : (Statement.lock "statements").run db = some db := by rw [Statement.run,ready.statements]; rfl
  have copying : (Statement.copy "statements_partitioned" "statements").run db = some db₁ := by
    rw [Statement.run,ready.partitioned,bind_some,ready.statements,bind_some,ready.copy]
    rfl
  have away : (Statement.rename "statements" oldStatementsTable).run db₁ = some db₂ :=
    run_rename.mpr ⟨source,by simp [db₁,ready.statements],ready.free,rfl⟩
  refine ⟨db₃,?_,by simp [db₃,db₂,oldStatementsTable]⟩
  rw [migration,runAll_cons,locked,bind_some,runAll_cons,copying,bind_some,runAll_cons,away,bind_some,runAll_cons]
  rfl
structure Reversible (db : Database) (table old : Relation) : Prop where
  statements : db "statements" = some table
  old : db oldStatementsTable = some old
  free : db "statements_partitioned" = none
theorem rollback_ran (ran : runAll db rollback = some db') : ∃ table old, Reversible db table old ∧ db' "statements" = some old := by
  obtain ⟨db₁,locked,ran⟩ := bind_eq_some_iff.mp ran
  obtain ⟨table,statements,rfl⟩ := map_eq_some_iff.mp locked
  obtain ⟨db₂,renamed,ran⟩ := bind_eq_some_iff.mp ran
  obtain ⟨r,found,free,rfl⟩ := run_rename.mp renamed
  obtain ⟨db₃,renamed',ran⟩ := bind_eq_some_iff.mp ran
  obtain ⟨old,found',free',rfl⟩ := run_rename.mp renamed'
  cases ran
  exact ⟨table,old,⟨statements,found',free⟩,by simp⟩
theorem rollback_runs {table old : Relation} (reversible : Reversible db table old) :
    ∃ db', runAll db rollback = some db' ∧ db' "statements" = some old := by
  let db₁ := update (update db "statements" none) "statements_partitioned" (some table)
  let db₂ := update (update db₁ oldStatementsTable none) "statements" (some old)
  have locked : (Statement.lock "statements").run db = some db := by rw [Statement.run,reversible.statements]; rfl
  have away : (Statement.rename "statements" "statements_partitioned").run db = some db₁ :=
    run_rename.mpr ⟨table,reversible.statements,reversible.free,rfl⟩
  have named : (Statement.rename oldStatementsTable "statements").run db₁ = some db₂ :=
    run_rename.mpr ⟨old,reversible.old,by simp [db₁],rfl⟩
  refine ⟨db₂,?_,by simp [db₂]⟩
  rw [rollback,runAll_cons,locked,bind_some,runAll_cons,away,bind_some,runAll_cons,named]
  rfl

private theorem migrate_ends {env : Option String} (migrates : Migrates env db db') :
    Ends perform (migrateStatementsPartition env) ⟨db,none⟩ none ⟨db',none⟩ := by
  obtain ⟨enabled,⟨r,found,unpartitioned⟩,ran⟩ := migrates
  obtain ⟨_,_,_,ready,_⟩ := migration_ran ran
  have checked : perform ⟨db,none⟩ (.isTablePartitioned "statements") .done = some (.ok false,⟨db,none⟩) := by
    simp [perform,Reply.error,found,unpartitioned]
  have exists_ : perform ⟨db,none⟩ (.tableExists "statements_partitioned") .done = some (.ok true,⟨db,none⟩) := by
    simp [perform,Reply.error,ready.partitioned]
  rw [migrateStatementsPartition,if_pos enabled]
  exact ends_call_bind checked (ends_call_bind exists_ (inTransaction_ends ran))
theorem migrates_iff : Leaves (migrateStatementsPartition env) db db' ↔ db' = db ∨ Migrates env db db' := by
  constructor
  · exact fun leaves => leaves.keeps (migrate_safe env)
  · rintro (rfl | migrates)
    · exact leaves_same
    · exact Ends.leaves (migrate_ends migrates)
theorem rollback_safe : Keeps (fun db' => runAll db rollback = some db') rollbackStatementsPartition db (fun _ _ => True) ⟨db,none⟩ := by
  refine safe_call_bind (.inl rfl) ?_
  intro reply answer w performed
  obtain ⟨rfl,_⟩ := tableExists_answer performed
  cases answer with
  | error message => exact ⟨.inl rfl,trivial⟩
  | ok exists_ =>
    cases exists_ with
    | false => exact ⟨.inl rfl,trivial⟩
    | true => exact inTransaction_safe (fun _ ran => ran) rfl
theorem rollback_ends (ran : runAll db rollback = some db') : Ends perform rollbackStatementsPartition ⟨db,none⟩ none ⟨db',none⟩ := by
  obtain ⟨_,_,reversible,_⟩ := rollback_ran ran
  have exists_ : perform ⟨db,none⟩ (.tableExists oldStatementsTable) .done = some (.ok true,⟨db,none⟩) := by
    simp [perform,Reply.error,reversible.old]
  exact ends_call_bind exists_ (inTransaction_ends ran)
theorem rollsBack_iff : Leaves rollbackStatementsPartition db db' ↔ db' = db ∨ runAll db rollback = some db' := by
  constructor
  · exact fun leaves => leaves.keeps rollback_safe
  · rintro (rfl | ran)
    · exact leaves_same
    · exact Ends.leaves (rollback_ends ran)

end

/-! ### What is preserved -/

/-- The rows of a table, in all of its columns, are those of another. -/
def Preserved (before after : Relation) : Prop :=
  (∀ column ∈ before.columns, column ∈ after.columns) ∧
    (before.rows.map (project before.columns)).Perm (after.rows.map (project before.columns))
/-- Every statement is still there. -/
def Same (db db' : Database) : Prop := ∀ before ∈ db "statements", ∃ after ∈ db' "statements", Preserved before after
/-- The other table is empty and has all columns, and fills in the value of what is not copied. -/
structure Lossless (source target : Relation) : Prop where
  empty : target.rows = []
  columns : ∀ column ∈ source.columns, column ∈ target.columns
  defaults : ∀ row ∈ source.rows, ∀ column ∈ source.columns, column ∉ copied → row column = target.default_ column

theorem Preserved.refl (r : Relation) : Preserved r r := ⟨fun _ listed => listed,.refl _⟩
theorem Same.refl (db : Database) : Same db db := fun before found => ⟨before,found,.refl before⟩
private theorem project_eq {columns : List Column} {row row' : Row} :
    project columns row = project columns row' ↔ ∀ column ∈ columns, row column = row' column :=
  List.map_inj_left
theorem withRows_some {r r' : Relation} {rows : List Row} (made : r.withRows rows = some r') : r'.rows = rows ∧ r'.columns = r.columns := by
  unfold Relation.withRows at made
  split at made <;> cases made
  exact ⟨rfl,rfl⟩

variable {source target filled : Relation} {db : Database}

private theorem copyInto_some (copy : copyInto target source = some filled) :
    filled.rows = target.rows ++ source.rows.map (copyRow target) ∧ filled.columns = target.columns := by
  unfold copyInto at copy
  split at copy
  · exact withRows_some copy
  · cases copy
theorem copied_iff (copy : copyInto target source = some filled) : Preserved source filled ↔ Lossless source target := by
  obtain ⟨rows,columns⟩ := copyInto_some copy
  unfold Preserved
  rw [rows,columns]
  constructor
  · rintro ⟨all,same⟩
    have lengths := same.length_eq
    simp only [List.length_map,List.length_append] at lengths
    have empty : target.rows = [] := List.length_eq_zero_iff.mp (by omega)
    rw [empty,List.nil_append,List.map_map] at same
    refine ⟨empty,all,fun row member column listed missing => ?_⟩
    -- The row is found among the copies, which have the default in the column.
    obtain ⟨row',_,is⟩ := List.mem_map.mp (same.subset (List.mem_map_of_mem member))
    have value := project_eq.mp is column listed
    rw [← value]
    simp [copyRow,missing]
  · intro lossless
    refine ⟨lossless.columns,?_⟩
    rw [lossless.empty,List.nil_append,List.map_map]
    have same : source.rows.map (project source.columns) = source.rows.map (project source.columns ∘ copyRow target) := by
      refine List.map_inj_left.mpr fun row member => project_eq.mpr fun column listed => ?_
      by_cases taken : column ∈ copied
      · simp [copyRow,taken]
      · simp [copyRow,taken,lossless.defaults row member column listed taken]
    rw [same]

def writeAll (db : Database) (writes : List Write) : Database :=
  update db "statements" ((db "statements").map fun r => writes.foldl Relation.write r)

theorem reversible_writeAll {writes : List Write} {table' old : Relation} :
    Reversible (writeAll db writes) table' old ↔ ∃ table, Reversible db table old ∧ writes.foldl Relation.write table = table' := by
  constructor
  · rintro ⟨statements,old_,free⟩
    obtain ⟨table,found,is⟩ := map_eq_some_iff.mp statements
    exact ⟨table,⟨found,by simpa [writeAll,oldStatementsTable] using old_,free⟩,is⟩
  · rintro ⟨table,reversible,rfl⟩
    exact ⟨by simp [writeAll,reversible.statements],reversible.old,reversible.free⟩
theorem same_of_tables {db' : Database} {before after : Relation} (found : db "statements" = some before)
    (found' : db' "statements" = some after) : Same db db' ↔ Preserved before after := by
  unfold Same
  rw [found,found']
  simp
theorem rollback_same_iff : (∀ db', Leaves rollbackStatementsPartition db db' → Same db db') ↔ ∀ table old, Reversible db table old → Preserved table old := by
  constructor
  · intro claim table old reversible
    obtain ⟨db',ran,restored⟩ := rollback_runs reversible
    exact (same_of_tables reversible.statements restored).mp (claim db' (rollsBack_iff.mpr (.inr ran)))
  · intro preserved db' leaves
    obtain rfl | ran := rollsBack_iff.mp leaves
    · exact .refl _
    · obtain ⟨table,old,reversible,restored⟩ := rollback_ran ran
      exact (same_of_tables reversible.statements restored).mpr (preserved table old reversible)

/-- The migration loses nothing, and whatever the way back leads to has the rows that the writes have left. -/
structure Careful (env : Option String) (db : Database) (writes : List Write) : Prop where
  migration : ∀ source target filled, statementsPartitioningEnabled env = true → source.partitioned = false → Ready db source target filled →
    Lossless source target ∧ Preserved (writes.foldl Relation.write filled) source
  rollback : ∀ table old, Reversible db table old → Preserved (writes.foldl Relation.write table) old

/-- After the migration, and after a way back that follows some writes, the statements are what they were, however the
    calls end, if and only if it is careful. -/
theorem migration_preserves_iff (env : Option String) (db : Database) (writes : List Write) :
    (∀ db₁, Leaves (migrateStatementsPartition env) db db₁ → Same db db₁ ∧
      ∀ db₂, Leaves rollbackStatementsPartition (writeAll db₁ writes) db₂ → Same (writeAll db₁ writes) db₂) ↔ Careful env db writes := by
  have back (db₁ : Database) : (∀ db₂, Leaves rollbackStatementsPartition (writeAll db₁ writes) db₂ → Same (writeAll db₁ writes) db₂) ↔
      ∀ table old, Reversible db₁ table old → Preserved (writes.foldl Relation.write table) old := by
    rw [rollback_same_iff]
    constructor
    · exact fun preserved table old reversible => preserved _ old (reversible_writeAll.mpr ⟨table,reversible,rfl⟩)
    · intro preserved table' old found
      obtain ⟨table,reversible,rfl⟩ := reversible_writeAll.mp found
      exact preserved table old reversible
  constructor
  · intro claim
    refine ⟨?_,(back db).mp (claim db leaves_same).2⟩
    intro source target filled enabled unpartitioned ready
    obtain ⟨db₁,ran,statements,old,free⟩ := migration_runs ready
    obtain ⟨same,rolled⟩ := claim db₁ ((migrates_iff env).mpr (.inr ⟨enabled,⟨source,ready.statements,unpartitioned⟩,ran⟩))
    refine ⟨?_,(back db₁).mp rolled filled source ⟨statements,old,free⟩⟩
    exact (copied_iff ready.copy).mp ((same_of_tables ready.statements statements).mp same)
  · intro careful db₁ leaves
    rw [back]
    obtain rfl | ⟨enabled,⟨source',found,unpartitioned⟩,ran⟩ := (migrates_iff env).mp leaves
    · exact ⟨.refl _,careful.rollback⟩
    · obtain ⟨source,target,filled,ready,statements,old,free⟩ := migration_ran ran
      have its : source' = source := Option.some.inj (found.symm.trans ready.statements)
      rw [its] at unpartitioned
      obtain ⟨lossless,undone⟩ := careful.migration source target filled enabled unpartitioned ready
      refine ⟨(same_of_tables ready.statements statements).mpr ((copied_iff ready.copy).mpr lossless),?_⟩
      rintro table old' ⟨statements',found',_⟩
      cases Option.some.inj (statements'.symm.trans statements)
      cases Option.some.inj (found'.symm.trans old)
      exact undone

def required : List Column := copied.filter (· ≠ "deleted_at")
def statementsWith (partitioned : Bool) (more : List Column) (rows : List Row) (valid : Valid (fun row => required.all fun column => (row column).isSome)
    (some ["id","period_start"]) rows) : Relation :=
  ⟨partitioned,copied ++ more,fun _ => none,_,_,rows,valid⟩
def statement (id : String) (archiveKey : Option String) : Row := fun column =>
  if column = "id" then some id
  else if column = "archived_at" ∨ column = "archive_key" then archiveKey
  else if column = "deleted_at" then none
  else some ""
def january : Relation := statementsWith false ["archived_at","archive_key"] [statement "st_1" (some "archive/st_1.json")] (by decide +kernel)
def live : Relation := statementsWith false [] [statement "st_1" none] (by decide +kernel)
def emptyPartitions : Relation := statementsWith true [] [] (by decide)
def tables (table : Relation) : Database := fun name =>
  if name = "statements" then some table else if name = "statements_partitioned" then some emptyPartitions else none
def second : Write := .insert (copied.map fun column => (column,statement "st_2" none column))

/-- The migration drops the archive columns; and a statement inserted after it is gone after the way back. -/
theorem written_since_lost :
    (∃ db₁, Leaves (migrateStatementsPartition (some "true")) (tables january) db₁ ∧ ¬ Same (tables january) db₁) ∧
      ∃ db₁ db₂, Leaves (migrateStatementsPartition (some "true")) (tables live) db₁ ∧ Same (tables live) db₁ ∧
        Leaves rollbackStatementsPartition (writeAll db₁ [second]) db₂ ∧ ¬ Same (writeAll db₁ [second]) db₂ := by
  constructor
  · obtain ⟨filled,copy⟩ := Option.isSome_iff_exists.mp (show (copyInto emptyPartitions january).isSome = true by decide +kernel)
    obtain ⟨db₁,ran,statements,_,_⟩ := migration_runs (⟨rfl,rfl,rfl,copy⟩ : Ready (tables january) january emptyPartitions filled)
    refine ⟨db₁,(migrates_iff _).mpr (.inr ⟨by decide,⟨january,rfl,rfl⟩,ran⟩),fun same => ?_⟩
    have lossless := (copied_iff copy).mp ((same_of_tables rfl statements).mp same)
    exact absurd (lossless.columns "archive_key" (by decide)) (by decide)
  · obtain ⟨filled,copy,grown⟩ : ∃ filled, copyInto emptyPartitions live = some filled ∧ (filled.write second).rows.length = 2 := by
      have seen : (copyInto emptyPartitions live).any (fun filled => (filled.write second).rows.length = 2) = true := by decide +kernel
      obtain ⟨filled,copy,grown⟩ := (Option.any_eq_true ..).mp seen
      exact ⟨filled,copy,by simpa using grown⟩
    obtain ⟨db₁,ran,statements,old,free⟩ := migration_runs (⟨rfl,rfl,rfl,copy⟩ : Ready (tables live) live emptyPartitions filled)
    have lossless : Lossless live emptyPartitions :=
      ⟨rfl,fun _ listed => listed,fun _ _ column listed missing => absurd listed missing⟩
    have reversible : Reversible (writeAll db₁ [second]) (filled.write second) live := reversible_writeAll.mpr ⟨filled,⟨statements,old,free⟩,rfl⟩
    obtain ⟨db₂,back,restored⟩ := rollback_runs reversible
    refine ⟨db₁,db₂,(migrates_iff _).mpr (.inr ⟨by decide,⟨live,rfl,rfl⟩,ran⟩),
      (same_of_tables rfl statements).mpr ((copied_iff copy).mpr lossless),rollsBack_iff.mpr (.inr back),fun same => ?_⟩
    have lengths := ((same_of_tables reversible.statements restored).mp same).2.length_eq
    rw [List.length_map,List.length_map,grown] at lengths
    exact absurd lengths (by decide)

end Stellabill.PartitionMigration
