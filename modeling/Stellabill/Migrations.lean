import Stellabill.LockedSessions
import Mathlib.Data.List.Nodup

/-!
The runner of the schema migrations. `Up` and `Down` are sessions that lock the table of
applied versions before they read it. The lists they are given grow at the end.
-/
namespace Stellabill.Migrations
open Transitions Program LockedSessions List

variable {Schema : Type}

/-- A migration. `DownSQL` takes back what `UpSQL` did. -/
structure Migration (Schema : Type) where
  version : Int
  name : String
  upSQL : Schema → Except String Schema
  downSQL : Schema → Except String Schema
  inverts : ∀ s t u, upSQL s = .ok t → downSQL t = .ok u → u = s

structure Row where
  version : Int
  name : String
  deriving DecidableEq, Repr

/-- The schema without `schema_migrations`, and that table if it is there. -/
structure Database (Schema : Type) where
  schema : Schema
  table : Option (List Row)

def Migration.row (m : Migration Schema) : Row := ⟨m.version,m.name⟩
def Database.rows (db : Database Schema) : List Row := db.table.getD []

def missing : String := "pq: relation \"schema_migrations\" does not exist"
def runUp (m : Migration Schema) : Statement (Database Schema) := fun db => (m.upSQL db.schema).map (fun schema => { db with schema })
def runDown (m : Migration Schema) : Statement (Database Schema) := fun db => (m.downSQL db.schema).map (fun schema => { db with schema })
def insertRow (row : Row) : Statement (Database Schema) := fun db =>
  match db.table with
  | none => .error missing
  | some rows =>
    if row.version ∈ rows.map Row.version then .error "pq: duplicate key value violates unique constraint \"schema_migrations_pkey\""
    else .ok { db with table := some (rows ++ [row]) }
def deleteRow (version : Int) : Statement (Database Schema) := fun db =>
  match db.table with
  | none => .error missing
  | some rows => .ok { db with table := some (rows.filter (fun row => row.version ≠ version)) }
def highest : List Row → Option Row
  | [] => none
  | row :: rest => match highest rest with
    | none => some row
    | some best => if row.version < best.version then some best else some row

def ensureSchemaMigrations : Script (Database Schema) (Except String Unit) := 
  create (fun db => db.table.isSome) (fun db => { db with table := some [] })
def selectRows : Script (Database Schema) (Except String (List Row)) := query >>= fun
  | .error message => pure (.error message)
  | .ok db => match db.table with
    | none => pure (.error missing)
    | some rows => pure (.ok rows)
def appliedVersions : Script (Database Schema) (Except String (List Int)) := andThen selectRows (fun rows => pure (.ok (rows.map Row.version)))
def wrapped (context : String) (m : Migration Schema) (statement : Statement (Database Schema)) : Script (Database Schema) (Except String Unit) :=
  exec statement >>= fun
    | .error message => pure (.error (context ++ " " ++ toString m.version ++ "_" ++ m.name ++ ": " ++ message))
    | .ok () => pure (.ok ())
def applyMissing (appliedSet : List Int) : List (Migration Schema) → List (Migration Schema) → Script (Database Schema) (Except String (List (Migration Schema)))
  | [], appliedNow => pure (.ok appliedNow)
  | m :: rest, appliedNow =>
    if m.version ∈ appliedSet then applyMissing appliedSet rest appliedNow
    else andThen (wrapped "apply up" m (runUp m)) (fun _ =>
      andThen (wrapped "record migration" m (insertRow m.row)) (fun _ => applyMissing appliedSet rest (appliedNow ++ [m])))
def transaction {α : Type} (body : Script (Database Schema) (Except String α)) : Script (Database Schema) (Except String α) := andThen begin (fun _ => body >>= fun
  | .ok value => pure (.ok value)
  | .error message => rollback >>= fun _ => pure (.error message))

def up (migs : List (Migration Schema)) : Script (Database Schema) (Except String (List (Migration Schema))) :=
  if migs.isEmpty then pure (.error "no migrations provided")
  else transaction (
    andThen ensureSchemaMigrations (fun _ =>
    andThen lock (fun _ =>
    andThen appliedVersions (fun appliedSet =>
    andThen (applyMissing appliedSet migs []) (fun appliedNow =>
    andThen commit (fun _ => pure (.ok appliedNow)))))))
def findByVersion (migs : List (Migration Schema)) (version : Int) : Option (Migration Schema) := migs.find? (fun m => m.version = version)
def down (migs : List (Migration Schema)) : Script (Database Schema) (Except String (Option (Migration Schema))) :=
  if migs.isEmpty then pure (.error "no migrations provided")
  else transaction (
    andThen ensureSchemaMigrations (fun _ =>
    andThen lock (fun _ =>
    andThen selectRows (fun rows =>
    match highest rows with
    | none => andThen commit (fun _ => pure (.ok none))
    | some row => match findByVersion migs row.version with
      | none => pure (.error ("database has applied migration version " ++ toString row.version ++ " not present locally"))
      | some m =>
        andThen (wrapped "apply down" m (runDown m)) (fun _ =>
        andThen (wrapped "remove migration record" m (deleteRow row.version)) (fun _ =>
        andThen commit (fun _ => pure (.ok (some m)))))))))

inductive Entry (Schema : Type)
  | up (migs : List (Migration Schema)) | down (migs : List (Migration Schema))
def Entry.migs : Entry Schema → List (Migration Schema)
  | .up migs | .down migs => migs
inductive Outcome (Schema : Type)
  | up (result : Except String (List (Migration Schema))) | down (result : Except String (Option (Migration Schema)))
def program : Entry Schema → Script (Database Schema) (Outcome Schema)
  | .up migs => up migs >>= fun result => pure (.up result)
  | .down migs => down migs >>= fun result => pure (.down result)

def applyAll (schema : Schema) (migs : List (Migration Schema)) : Except String Schema := migs.foldlM (fun schema m => m.upSQL schema) schema
/-- The schema is that of the recorded migrations. -/
structure Holds (start : Schema) (migs : List (Migration Schema)) (db : Database Schema) : Prop where
  rows : db.rows = migs.map Migration.row
  schema : applyAll start migs = .ok db.schema
/-- The recorded migrations are the first ones of the list. -/
def Recorded (start : Schema) (all : List (Migration Schema)) (db : Database Schema) : Prop := ∃ migs, migs <+: all ∧ Holds start migs db
def Ordered (migs : List (Migration Schema)) : Prop := migs.Pairwise (fun a b => a.version < b.version)

def longest : List (Entry Schema) → List (Migration Schema)
  | [] => []
  | entry :: rest => if (longest rest).length < entry.migs.length then entry.migs else longest rest
/-- The lists are ordered, and of any two one is the other with more migrations at its end. -/
def Extends (s : State (Database Schema) (Entry Schema) (Outcome Schema)) : Action (Entry Schema) → Prop
  | .start _ entry => Ordered entry.migs ∧ ∀ used ∈ s.used, used.migs <+: entry.migs ∨ entry.migs <+: used.migs
  | .answer _ _ | .crash _ => True

section
variable {all migs done rest : List (Migration Schema)} {m m' : Migration Schema} {start : Schema} {db : Database Schema}

theorem version_unique (ordered : Ordered all) (member : m ∈ all) (member' : m' ∈ all) (same : m.version = m'.version) : m = m' := by
  have distinct : (all.map Migration.version).Nodup := pairwise_map.mpr (ordered.imp (fun below => Int.ne_of_lt below))
  exact inj_on_of_nodup_map distinct member member' same
theorem version_fresh (ordered : Ordered all) (part : done ++ [m] <+: all) (before : migs <+: done) : m.version ∉ migs.map Migration.version := by
  intro member
  obtain ⟨m',found,same⟩ := mem_map.mp member
  have ordered_part : Ordered (done ++ [m]) := ordered.sublist part.sublist
  have below : m'.version < m.version :=
    (pairwise_append.mp ordered_part).2.2 m' (before.subset found) m mem_cons_self
  omega
theorem highest_last (ordered : Ordered (done ++ [m])) : highest ((done ++ [m]).map Migration.row) = some m.row := by
  induction done with
  | nil => rfl
  | cons first rest ih =>
    obtain ⟨first_below,ordered⟩ := pairwise_cons.mp ordered
    have below : first.row.version < m.row.version := first_below m (mem_append_right _ mem_cons_self)
    rw [cons_append,map_cons,highest,ih ordered]
    simp only [if_pos below]
theorem filter_last (ordered : Ordered (done ++ [m])) :
    ((done ++ [m]).map Migration.row).filter (fun row => row.version ≠ m.version) = done.map Migration.row := by
  rw [map_append,filter_append]
  have last : ([m].map Migration.row).filter (fun row => row.version ≠ m.version) = [] := by simp [Migration.row]
  rw [last,append_nil,filter_eq_self]
  intro row member
  obtain ⟨m',found,rfl⟩ := mem_map.mp member
  have below : m'.version < m.version := (pairwise_append.mp ordered).2.2 m' found m mem_cons_self
  exact decide_eq_true (Int.ne_of_lt below)

variable {db' db'' : Database Schema}

theorem runUp_ok (ran : runUp m db = .ok db') :
    ∃ schema, m.upSQL db.schema = .ok schema ∧ db' = { db with schema } := by
  cases result : m.upSQL db.schema with
  | error message => simp [runUp,result,Except.map] at ran
  | ok schema =>
    simp only [runUp,result,Except.map,Except.ok.injEq] at ran
    exact ⟨schema,rfl,ran.symm⟩
theorem runDown_ok (ran : runDown m db = .ok db') :
    ∃ schema, m.downSQL db.schema = .ok schema ∧ db' = { db with schema } := by
  cases result : m.downSQL db.schema with
  | error message => simp [runDown,result,Except.map] at ran
  | ok schema =>
    simp only [runDown,result,Except.map,Except.ok.injEq] at ran
    exact ⟨schema,rfl,ran.symm⟩
private theorem insertRow_ok {row : Row} (inserted : insertRow row db = .ok db') :
    db' = { db with table := some (db.rows ++ [row]) } := by
  cases here : db.table with
  | none => simp [insertRow,here] at inserted
  | some rows =>
    simp only [insertRow,here] at inserted
    split at inserted
    · cases inserted
    · simpa [Database.rows,here] using inserted.symm
private theorem deleteRow_ok {version : Int} (deleted : deleteRow version db = .ok db') :
    db' = { db with table := some (db.rows.filter (fun row => row.version ≠ version)) } := by
  cases here : db.table with
  | none => simp [deleteRow,here] at deleted
  | some rows => simpa [deleteRow,Database.rows,here] using deleted.symm

theorem applyAll_last : applyAll start (done ++ [m]) = (applyAll start done).bind m.upSQL := by
  simp only [applyAll,foldlM_append,foldlM_cons,foldlM_nil,bind_pure]
  rfl
theorem Holds.applied (holds : Holds start done db) (ran : runUp m db = .ok db') (recorded : insertRow m.row db' = .ok db'') :
    Holds start (done ++ [m]) db'' := by
  obtain ⟨schema,made,rfl⟩ := runUp_ok ran
  obtain rfl := insertRow_ok recorded
  refine ⟨?_,?_⟩
  · show db.rows ++ [m.row] = _
    rw [holds.rows,map_append,map_singleton]
  · rw [applyAll_last,holds.schema]
    exact made
theorem Holds.reverted (holds : Holds start (done ++ [m]) db) (ordered : Ordered (done ++ [m])) (ran : runDown m db = .ok db')
    (removed : deleteRow m.version db' = .ok db'') : Holds start done db'' := by
  obtain ⟨schema,made,rfl⟩ := runDown_ok ran
  obtain rfl := deleteRow_ok removed
  have applied := holds.schema
  rw [applyAll_last] at applied
  refine ⟨?_,?_⟩
  · show db.rows.filter _ = _
    rw [holds.rows]
    exact filter_last ordered
  · cases before : applyAll start done with
    | error message => simp [before,Except.bind] at applied
    | ok schema' =>
      rw [before] at applied
      obtain rfl := m.inverts schema' db.schema schema applied made
      rfl

/-! ### The runner keeps what is recorded -/

/-- How the body of a transaction ends. -/
def Ends {α : Type} (committed : α → Database Schema → Prop) : Except String α → View (Database Schema) → Prop
  | .error _, _ => True
  | .ok value, v => ∃ db, v = .committed db ∧ committed value db
/-- How a step of the body ends that goes on under the lock. -/
def GoesOn {α : Type} (held : α → Database Schema → Prop) : Except String α → View (Database Schema) → Prop
  | .error _, _ => True
  | .ok value, v => ∃ db, v = .holding db ∧ held value db

section
variable {inv : Database Schema → Prop} {α β : Type}

theorem keeps_goesOn {held : α → Database Schema → Prop} {post : Except String β → View (Database Schema) → Prop}
    {p : Script (Database Schema) (Except String α)} {f : α → Script (Database Schema) (Except String β)} {v : View (Database Schema)}
    (errors : ∀ message v, post (.error message) v) (first : Keeps inv (GoesOn held) p v)
    (next : ∀ value db, held value db → Keeps inv post (f value) (.holding db)) : Keeps inv post (andThen p f) v := by
  refine keeps_andThen (first.mono (fun result v goesOn => ?_))
  cases result with
  | error message => exact errors message v
  | ok value =>
    obtain ⟨db,rfl,holds⟩ := goesOn
    exact next value db holds
theorem keeps_wrapped {context : String} {statement : Statement (Database Schema)} :
    Keeps inv (GoesOn (fun _ changed => statement db = .ok changed)) (wrapped context m statement) (.holding db) :=
  keeps_exec (fun _ => by trivial) (fun changed done => ⟨changed,rfl,done⟩)
theorem keeps_selectRows : Keeps inv (GoesOn (fun rows found => found = db ∧ rows = db.rows)) selectRows (.holding db) := by
  refine keeps_query (fun _ => trivial) ?_
  cases here : db.table with
  | none => simp only [here]; trivial
  | some rows =>
    simp only [here]
    exact ⟨db,rfl,rfl,by simp [Database.rows,here]⟩
theorem keeps_appliedVersions :
    Keeps inv (GoesOn (fun versions found => found = db ∧ versions = db.rows.map Row.version)) appliedVersions (.holding db) := by
  refine keeps_goesOn (fun _ _ => trivial) keeps_selectRows (fun rows found holds => ?_)
  obtain ⟨rfl,rfl⟩ := holds
  exact ⟨found,rfl,rfl,rfl⟩

variable {committed : α → Database Schema → Prop}

theorem keeps_lastCommit {value : α} (meets : inv db) (holds : committed value db) :
    Keeps inv (Ends committed) (andThen commit (fun _ => pure (.ok value))) (.holding db) :=
  keeps_commit meets ⟨db,rfl,holds⟩ (fun _ => trivial) (fun _ => trivial)
theorem keeps_locked {body : Script (Database Schema) (Except String α)}
    (created : ∀ db, inv db → db.table = none → inv { db with table := some [] })
    (keeps : ∀ db, inv db → Keeps inv (Ends committed) body (.holding db)) :
    Keeps inv (fun result v => v.Over ∧ Ends committed result v)
      (transaction (andThen ensureSchemaMigrations (fun _ => andThen lock (fun _ => body)))) .idle := by
  have locked : Keeps inv (Ends committed) (andThen ensureSchemaMigrations (fun _ => andThen lock (fun _ => body))) .opened := by
    refine keeps_create (fun _ => by trivial) ?_ (fun db meets missing => ?_)
    · exact keeps_lock (fun _ => trivial) keeps
    · exact keeps_relock (fun _ => trivial) (keeps _ (created db meets (by simpa using missing)))
  refine keeps_begin (keeps_bind (locked.mono (fun result v ends => ?_))) (fun _ => ⟨trivial,trivial⟩)
  cases result with
  | error message => exact keeps_rollback ⟨trivial,trivial⟩
  | ok value =>
    obtain ⟨db,rfl,holds⟩ := ends
    exact ⟨trivial,db,rfl,holds⟩
end

variable {inv : Database Schema → Prop}

theorem recorded_created (db : Database Schema) (recorded : Recorded start all db) (missing : db.table = none) :
    Recorded start all { db with table := some [] } := by
  obtain ⟨migs,shorter,holds⟩ := recorded
  refine ⟨migs,shorter,?_,holds.schema⟩
  have rows := holds.rows
  simp only [Database.rows,missing,Option.getD_none] at rows
  exact rows
/-- What the loop of `Up` has made of the recorded migrations `migs` when it has gone through `done`. -/
def Extended (migs done extended : List (Migration Schema)) : Prop := done <+: migs ∧ extended = migs ∨ migs <+: done ∧ extended = done

/-- The loop of `Up`, by induction on the migrations that are left. -/
theorem keeps_applyMissing (ordered : Ordered all) (recorded : migs <+: all) {appliedNow : List (Migration Schema)}
    {extended : List (Migration Schema)} (part : done ++ rest <+: all) (far : Extended migs done extended) (holds : Holds start extended db) :
    Keeps inv (GoesOn (fun _ db => ∃ final, final <+: all ∧ done ++ rest <+: final ∧ Holds start final db))
      (applyMissing (migs.map Migration.version) rest appliedNow) (.holding db) := by
  induction rest generalizing done db appliedNow extended with
  | nil =>
    rw [append_nil] at part ⊢
    obtain ⟨before,rfl⟩ | ⟨_,rfl⟩ := far
    · exact ⟨db,rfl,extended,recorded,before,holds⟩
    · exact ⟨db,rfl,extended,part,prefix_rfl,holds⟩
  | cons m rest ih =>
    rw [append_cons] at part ⊢
    have next : done ++ [m] <+: all := (prefix_append _ rest).trans part
    rw [applyMissing]
    obtain beyond | before : done ++ [m] <+: migs ∨ migs <+: done := by
      obtain beyond | within := prefix_or_prefix_of_prefix next recorded
      · exact .inl beyond
      · obtain rfl | before := prefix_concat_iff.mp within
        · exact .inl prefix_rfl
        · exact .inr before
    · -- The migration is recorded already, and the loop passes it by.
      have here : m ∈ migs := beyond.subset (mem_append_right _ mem_cons_self)
      have same : extended = migs := by
        obtain ⟨_,same⟩ | ⟨shorter,_⟩ := far
        · exact same
        · have lengths := Nat.le_trans beyond.length_le shorter.length_le
          simp only [length_append,length_singleton] at lengths
          omega
      rw [if_pos (mem_map_of_mem here)]
      exact ih part (.inl ⟨beyond,same⟩) holds
    · -- Everything before it is applied, and so is the migration now.
      have same : extended = done := by
        obtain ⟨shorter,same⟩ | ⟨_,same⟩ := far
        · exact same.trans (before.eq_of_length_le shorter.length_le)
        · exact same
      rw [if_neg (version_fresh ordered next before)]
      refine keeps_goesOn (fun _ _ => trivial) keeps_wrapped (fun _ db' ran => ?_)
      refine keeps_goesOn (fun _ _ => trivial) keeps_wrapped (fun _ db'' inserted => ?_)
      exact ih part (.inr ⟨before.trans (prefix_append ..),rfl⟩) ((same ▸ holds).applied ran inserted)

theorem Holds.versions (holds : Holds start migs db) : db.rows.map Row.version = migs.map Migration.version := by
  rw [holds.rows,map_map]
  rfl

theorem keeps_up (ordered : Ordered all) (part : migs <+: all) : Keeps (Recorded start all)
      (fun result v => v.Over ∧ Ends (fun _ db => ∃ final, final <+: all ∧ migs <+: final ∧ Holds start final db) result v)
      (up migs) .idle := by
  unfold up
  split
  · exact ⟨trivial,trivial⟩
  · refine keeps_locked recorded_created (fun db recorded => ?_)
    obtain ⟨before,shorter,holds⟩ := recorded
    refine keeps_goesOn (fun _ _ => trivial) keeps_appliedVersions (fun versions _ read => ?_)
    obtain ⟨rfl,rfl⟩ := read
    have whole : [] ++ migs <+: all := part
    rw [holds.versions]
    refine keeps_goesOn (fun _ _ => trivial) (keeps_applyMissing ordered shorter whole (.inl ⟨ nil_prefix,rfl⟩) holds) ?_
    rintro appliedNow db' ⟨final,inside,contains,holds'⟩
    exact keeps_lastCommit ⟨final,inside,holds'⟩ ⟨final,inside,contains,holds'⟩
theorem keeps_down (ordered : Ordered all) (part : migs <+: all) :
    Keeps (Recorded start all) (fun result v => v.Over ∧ Ends (fun _ _ => True) result v) (down migs) .idle := by
  unfold down
  split
  · exact ⟨trivial,trivial⟩
  · refine keeps_locked recorded_created (fun db recorded => ?_)
    obtain ⟨before,shorter,holds⟩ := recorded
    refine keeps_goesOn (fun _ _ => trivial) keeps_selectRows (fun rows _ read => ?_)
    obtain ⟨rfl,rfl⟩ := read
    obtain rfl | ⟨done,m,rfl⟩ := eq_nil_or_concat' before
    · rw [holds.rows]
      exact keeps_lastCommit ⟨[],shorter,holds⟩ trivial
    · have ordered_part : Ordered (done ++ [m]) := ordered.sublist shorter.sublist
      rw [holds.rows,highest_last ordered_part]
      cases found : findByVersion migs m.version with
      | none => simp only [Migration.row,found]; trivial
      | some m' =>
        simp only [Migration.row,found]
        have same : m'.version = m.version := by simpa using find?_some found
        obtain rfl : m' = m := version_unique ordered (part.subset (mem_of_find?_eq_some found))
          (shorter.subset (mem_append_right _ mem_cons_self)) same
        refine keeps_goesOn (fun _ _ => trivial) keeps_wrapped (fun _ db' ran => ?_)
        refine keeps_goesOn (fun _ _ => trivial) keeps_wrapped (fun _ db'' removed => ?_)
        exact keeps_lastCommit ⟨done,(prefix_append ..).trans shorter,holds.reverted ordered_part ran removed⟩ trivial

end

section
variable {used : List (Entry Schema)} {s t : State (Database Schema) (Entry Schema) (Outcome Schema)} {start : Schema}

/-- The lists used so far are ordered, and any two have one as the beginning of the other. -/
structure Chain (used : List (Entry Schema)) : Prop where
  ordered : ∀ entry ∈ used, Ordered entry.migs
  nested : ∀ a ∈ used, ∀ b ∈ used, a.migs <+: b.migs ∨ b.migs <+: a.migs

variable {entry : Entry Schema}

theorem chain_cons (chain : Chain used) (ordered : Ordered entry.migs) (nested : ∀ a ∈ used, a.migs <+: entry.migs ∨ entry.migs <+: a.migs) :
    Chain (entry :: used) := by
  refine ⟨forall_mem_cons.mpr ⟨ordered,chain.ordered⟩,forall_mem_cons.mpr ⟨?_,fun a member => ?_⟩⟩
  · exact forall_mem_cons.mpr ⟨.inl prefix_rfl,fun b member => (nested b member).symm⟩
  · exact forall_mem_cons.mpr ⟨nested a member,chain.nested a member⟩
theorem chain_reached (run : Reach (step program) Extends (initial ⟨start,none⟩) s) : Chain s.used := by
  have base : Chain ([] : List (Entry Schema)) := ⟨by simp,by simp⟩
  refine run.invariant (I := fun s => Chain s.used) base (@fun s a t chain allowed stepped => ?_)
  rw [step_used stepped]
  cases a with
  | start n entry => exact chain_cons chain allowed.1 allowed.2
  | answer _ _ | crash _ => exact chain
private theorem longest_used (used : List (Entry Schema)) : longest used = [] ∨ ∃ entry ∈ used, longest used = entry.migs := by
  induction used with
  | nil => exact .inl rfl
  | cons entry rest ih =>
    rw [longest]
    split
    · exact .inr ⟨entry,mem_cons_self,rfl⟩
    · exact ih.imp_right (fun ⟨other,member,same⟩ => ⟨other,mem_cons_of_mem _ member,same⟩)
private theorem length_longest (member : entry ∈ used) : entry.migs.length ≤ (longest used).length := by
  induction used with
  | nil => cases member
  | cons first rest ih =>
    rw [longest]
    obtain rfl | member := mem_cons.mp member
    · split <;> omega
    · have below := ih member
      split <;> omega
theorem Chain.longest (chain : Chain used) : Ordered (longest used) ∧ ∀ entry ∈ used, entry.migs <+: Migrations.longest used := by
  obtain empty | ⟨best,member,same⟩ := longest_used used
  · rw [empty]
    refine ⟨.nil,fun entry member => ?_⟩
    have short := length_longest member
    rw [empty,length_nil,Nat.le_zero,length_eq_zero_iff] at short
    exact short ▸ prefix_rfl
  · rw [same]
    refine ⟨chain.ordered best member,fun entry other => ?_⟩
    have short := length_longest other
    rw [same] at short
    obtain before | after := chain.nested entry other best member
    · exact before
    · exact after.eq_of_length_le short ▸ prefix_rfl

def Committed (start : Schema) (all : List (Migration Schema)) : Entry Schema → Outcome Schema → View (Database Schema) → Prop
  | .up migs, .up (.ok _), v => ∃ db, v = .committed db ∧ ∃ final, final <+: all ∧ migs <+: final ∧ Holds start final db
  | _, _, _ => True
private theorem keeps_program {all : List (Migration Schema)} (ordered : Ordered all) (entry : Entry Schema) (part : entry.migs <+: all) :
    Keeps (Recorded start all) (fun value v => v.Over ∧ Committed start all entry value v) (program entry) .idle := by
  cases entry with
  | up migs =>
    refine keeps_bind ((keeps_up ordered part).mono (fun result v ends => ?_))
    cases result with
    | error message => exact ⟨ends.1,trivial⟩
    | ok value => exact ends
  | down migs =>
    refine keeps_bind ((keeps_down ordered part).mono (fun result v ends => ?_))
    exact ⟨ends.1,trivial⟩
private theorem kept_reached (run : Reach (step program) Extends (initial ⟨start,none⟩) s) :
    Kept (Recorded start (longest s.used)) (Committed start (longest s.used)) s := by
  obtain ⟨ordered,shorter⟩ := (chain_reached run).longest
  refine reach_kept ⟨[], nil_prefix,rfl,rfl⟩ (fun _ n entry allowed => ?_) (reach_used run)
  exact keeps_program ordered entry (shorter entry (allowed entry mem_cons_self))

/-- Whatever fails, a first part of the longest list is applied and recorded; where `Up` returns, its whole list is in it. -/
theorem migrations_recorded (start : Schema) (s : State (Database Schema) (Entry Schema) (Outcome Schema))
    (run : Reach (step program) Extends (initial ⟨start,none⟩) s) : Recorded start (longest s.used) s.world.durable ∧
      ∀ n reply migs p applied t, s.sessions n = some (.up migs,p) → step program s (.answer n reply) = some t →
        t.sessions n = some (.up migs,.done (.up (.ok applied))) →
        ∃ final, final <+: longest t.used ∧ migs <+: final ∧ Holds start final t.world.durable := by
  have kept := kept_reached run
  refine ⟨kept.meets,fun n reply migs p applied t here stepped ended => ?_⟩
  obtain ⟨v,⟨db,rfl,final⟩,same⟩ := kept.ended here stepped ended
  rw [step_used stepped,same db rfl]
  exact final
end

/-- A migration that adds a table to a schema that is a list of tables. -/
def addTable (version : Int) (name : String) : Migration (List String) where
  version := version
  name := name
  upSQL schema := .ok (name :: schema)
  downSQL schema := .ok schema.tail
  inverts := by
    rintro s t u ⟨⟩ ⟨⟩
    rfl
def plans := addTable 1 "plans"
def statements := addTable 2 "statements"

/-- Two runners; the second has a longer list, waits for the lock, fails once and goes on until its commit. -/
def twoRunners : List (Action (Entry (List String))) :=
  [Action.start 0 (Entry.up [plans]),.start 1 (.up [plans,statements]),.start 2 (.up [plans,statements])] ++
    List.replicate 2 (Action.answer 0 .done) ++ [Action.answer 1 .done] ++ List.replicate 5 (Action.answer 0 .done) ++
    List.replicate 4 (Action.answer 1 .done) ++ [Action.answer 1 (.failed "connection reset"),.answer 1 .done] ++ List.replicate 6 (Action.answer 2 .done)
def beforeCommit : State (Database (List String)) (Entry (List String)) (Outcome (List String)) :=
  (run (step program) (initial ⟨[],none⟩) twoRunners).getD (initial ⟨[],none⟩)

private theorem beforeCommit_run : run (step program) (initial ⟨[],none⟩) twoRunners = some beforeCommit := rfl
private theorem along_answers {actions : List (Action (Entry (List String)))} (quiet : ∀ a ∈ actions, a.entries = []) :
    ∀ s, Along (step program) Extends s actions := by
  induction actions with
  | nil => exact fun _ => trivial
  | cons a rest ih =>
    intro s
    have later := ih (fun b member => quiet b (mem_cons_of_mem _ member))
    refine ⟨?_,?_⟩
    · cases a with
      | start n entry => exact absurd (quiet _ mem_cons_self) (by simp [Action.entries])
      | answer _ _ | crash _ => trivial
    · split
      · trivial
      · exact later _
private theorem ordered_one : Ordered [plans] := pairwise_singleton ..
private theorem ordered_two : Ordered [plans,statements] := by simp [Ordered,plans,statements,addTable]
private theorem twoRunners_along : Along (step program) Extends (initial ⟨[],none⟩) twoRunners := by
  have quiet : ∀ a ∈ twoRunners.drop 3, a.entries = [] := by simp [twoRunners,Action.entries,List.replicate]
  have longer : (Entry.up [plans]).migs <+: [plans,statements] := ⟨[statements],rfl⟩
  refine ⟨⟨ordered_one,nofun⟩,⟨ordered_two,?_⟩,⟨ordered_two,?_⟩,along_answers quiet _⟩
  · exact forall_mem_cons.mpr ⟨.inl longer,nofun⟩
  · exact forall_mem_cons.mpr ⟨.inl prefix_rfl,forall_mem_cons.mpr ⟨.inl longer,nofun⟩⟩
theorem migrations_recorded_two : ∃ final t, step program beforeCommit (.answer 2 .done) = some t ∧ [plans,statements] <+: final ∧
    final <+: longest t.used ∧ Holds [] final t.world.durable := by
  obtain ⟨_,committed⟩ := migrations_recorded [] beforeCommit (run_reach beforeCommit_run twoRunners_along)
  obtain ⟨final,inside,contains,holds⟩ := committed 2 .done [plans,statements] _ _ _ rfl rfl rfl
  exact ⟨final,_,rfl,contains,inside,holds⟩

end Stellabill.Migrations
