import Stellabill.ShardRouting

/-!
The two outbox repositories column by column: the INSERT of `Store` and the SELECT of
`GetByID`. The one on `database/sql` neither writes nor reads `partition`; the INSERT of
the one on pgx names seventeen columns for sixteen placeholders.
-/
namespace Stellabill.OutboxColumns
open Keyed Transitions Uuid
open Outbox (Event Status newEvent)
open ShardRouting (Repository)

inductive Column
  | id | tenantID | eventType | eventData | aggregateID | aggregateType | occurredAt | status | retryCount | maxRetries | nextRetryAt
  | errorMessage | createdAt | updatedAt | version | deduplicationID | partition
  deriving DecidableEq, Repr

inductive Value
  | null | uuid (id : UUID) | text (value : String) | instant (value : Time) | status (value : Status) | integer (value : Int)
  deriving DecidableEq

abbrev Row := Column → Value
abbrev Rows := Table (fun row : Row => row .id)

inductive Kind
  | null | uuid | text | instant | status | integer
  deriving DecidableEq
def Value.kind : Value → Kind
  | .null => .null
  | .uuid _ => .uuid
  | .text _ => .text
  | .instant _ => .instant
  | .status _ => .status
  | .integer _ => .integer

/-- What a column makes of a value: it may refuse it (a length, a range, a CHECK, malformed JSON) or change it
    (`TIMESTAMPTZ`, `JSONB`), but not into another kind. Columns that an INSERT leaves out get their defaults. -/
structure Schema where
  keep : Column → Value → Option Value
  default : Column → Value
  kept_kind : ∀ c v v', keep c v = some v' → v'.kind = v.kind
  kept_id : ∀ id, keep .id (.uuid id) = some (.uuid id)
  partition : default .partition = .integer 0

/-- An INSERT with its column list, the number of its placeholders and its arguments. -/
structure Insert where
  columns : List Column
  placeholders : Nat
  arguments : List Value

/-- The database or the connection fails, the parts of the statement do not match, a column refuses a value, or a key is taken. -/
inductive StoreError
  | database (message : String) | malformed | refused | duplicate
  deriving DecidableEq

def keptValues (schema : Schema) (statement : Insert) : Option (List (Column × Value)) :=
  (statement.columns.zip statement.arguments).mapM (fun (c,v) => (schema.keep c v).map (fun kept => (c,kept)))
/-- An INSERT. `deduplication_id` is unique among the rows that have one. -/
def exec (schema : Schema) (rows : Rows) (statement : Insert) (failure : Option String) : Except StoreError Rows :=
  match failure with
  | some message => .error (.database message)
  | none =>
    if statement.columns.length ≠ statement.placeholders ∨ statement.arguments.length ≠ statement.placeholders then .error .malformed
    else match keptValues schema statement with
      | none => .error .refused
      | some values =>
        let row : Row := fun c => (values.lookup c).getD (schema.default c)
        if row .deduplicationID ≠ .null ∧ ∃ other ∈ rows.rows, other .deduplicationID = row .deduplicationID then .error .duplicate
        else match rows.insert row with
          | none => .error .duplicate
          | some rows => .ok rows

def ofText : Option String → Value
  | some value => .text value
  | none => .null
def ofInstant : Option Time → Value
  | some value => .instant value
  | none => .null

def commonColumns : List Column :=
  [.id,.tenantID,.eventType,.eventData,.aggregateID,.aggregateType,.occurredAt,.status,.retryCount,.maxRetries,.nextRetryAt,
    .errorMessage,.createdAt,.updatedAt,.version,.deduplicationID]
def storeStatement (event : Event) : Repository → Insert
  | .postgres => ⟨commonColumns,16,
    [.uuid event.id,.text event.tenantID,.text event.eventType,.text event.eventData,ofText event.aggregateID,ofText event.aggregateType,
      .instant event.occurredAt,.status event.status,.integer event.retryCount,.integer event.maxRetries,ofInstant event.nextRetryAt,
      ofText event.errorMessage,.instant event.createdAt,.instant event.updatedAt,.integer event.version,ofText event.deduplicationID]⟩
  | .pgx => ⟨commonColumns ++ [.partition],16,
    [.uuid event.id,.text event.tenantID,.text event.eventType,.text event.eventData,ofText event.aggregateID,ofText event.aggregateType,
      .instant event.occurredAt,.status event.status,.integer event.retryCount,.integer event.maxRetries,ofInstant event.nextRetryAt,
      ofText event.errorMessage,.instant event.createdAt,.instant event.updatedAt,.integer event.version,ofText event.deduplicationID,
      .integer event.partition]⟩
def store (schema : Schema) (repository : Repository) (rows : Rows) (event : Event) (failure : Option String) : Except StoreError Rows :=
  exec schema rows (storeStatement event repository) failure

def Value.asUUID : Value → Option UUID
  | .uuid id => some id
  | _ => none
def Value.asText : Value → Option String
  | .text value => some value
  | _ => none
def Value.asInstant : Value → Option Time
  | .instant value => some value
  | _ => none
def Value.asStatus : Value → Option Status
  | .status value => some value
  | _ => none
def Value.asInteger : Value → Option Int
  | .integer value => some value
  | _ => none
def Value.asNullText : Value → Option (Option String)
  | .null => some none
  | .text value => some (some value)
  | _ => none
def Value.asNullInstant : Value → Option (Option Time)
  | .null => some none
  | .instant value => some (some value)
  | _ => none

/-- The variables of `scanEvent` before the scan: `partition` has the zero value of its type. -/
def zero : Row
  | .partition => .integer 0
  | _ => .null
/-- The event that `scanEvent` builds; a value that does not fit its variable is an error of the scan. -/
def build (vars : Row) : Option Event := do
  let id ← (vars .id).asUUID
  let tenantID ← (vars .tenantID).asNullText
  let eventType ← (vars .eventType).asText
  let eventData ← (vars .eventData).asText
  let aggregateID ← (vars .aggregateID).asNullText
  let aggregateType ← (vars .aggregateType).asNullText
  let occurredAt ← (vars .occurredAt).asInstant
  let status ← (vars .status).asStatus
  let retryCount ← (vars .retryCount).asInteger
  let maxRetries ← (vars .maxRetries).asInteger
  let nextRetryAt ← (vars .nextRetryAt).asNullInstant
  let errorMessage ← (vars .errorMessage).asNullText
  let createdAt ← (vars .createdAt).asInstant
  let updatedAt ← (vars .updatedAt).asInstant
  let version ← (vars .version).asInteger
  let deduplicationID ← (vars .deduplicationID).asNullText
  let partition ← (vars .partition).asInteger
  pure ⟨id,tenantID.getD "",eventType,eventData,aggregateID,aggregateType,occurredAt,status,retryCount,maxRetries,nextRetryAt,errorMessage,
    createdAt,updatedAt,version,deduplicationID,partition⟩

def selected : Repository → List Column
  | .postgres => commonColumns
  | .pgx => commonColumns ++ [.tenantID,.partition]
def scanned : Repository → List Column
  | .postgres => commonColumns
  | .pgx => commonColumns ++ [.tenantID,.partition]

inductive ReadError
  | noRows | scan
  deriving DecidableEq
def scanEvent (repository : Repository) (values : List Value) : Except ReadError Event :=
  if values.length ≠ (scanned repository).length then .error .scan
  else match build (((scanned repository).zip values).foldl (fun vars (c,v) => Function.update vars c v) zero) with
    | some event => .ok event
    | none => .error .scan
def getByID (repository : Repository) (rows : Rows) (id : UUID) : Except ReadError Event :=
  match rows.find (.uuid id) with
  | none => .error .noRows
  | some row => scanEvent repository ((selected repository).map row)

def rowOf (event : Event) : Row
  | .id => .uuid event.id
  | .tenantID => .text event.tenantID
  | .eventType => .text event.eventType
  | .eventData => .text event.eventData
  | .aggregateID => ofText event.aggregateID
  | .aggregateType => ofText event.aggregateType
  | .occurredAt => .instant event.occurredAt
  | .status => .status event.status
  | .retryCount => .integer event.retryCount
  | .maxRetries => .integer event.maxRetries
  | .nextRetryAt => ofInstant event.nextRetryAt
  | .errorMessage => ofText event.errorMessage
  | .createdAt => .instant event.createdAt
  | .updatedAt => .instant event.updatedAt
  | .version => .integer event.version
  | .deduplicationID => ofText event.deduplicationID
  | .partition => .integer event.partition

section
variable {v : Value} {vars : Row} {event : Event}

private theorem asUUID_some {id : UUID} : v.asUUID = some id ↔ v = .uuid id := by cases v <;> simp [Value.asUUID]
private theorem asText_some {value : String} : v.asText = some value ↔ v = .text value := by cases v <;> simp [Value.asText]
private theorem asInstant_some {value : Time} : v.asInstant = some value ↔ v = .instant value := by cases v <;> simp [Value.asInstant]
private theorem asStatus_some {value : Status} : v.asStatus = some value ↔ v = .status value := by cases v <;> simp [Value.asStatus]
private theorem asInteger_some {value : Int} : v.asInteger = some value ↔ v = .integer value := by cases v <;> simp [Value.asInteger]
theorem asNullText_some {value : Option String} : v.asNullText = some value ↔ v = ofText value := by
  cases v <;> cases value <;> simp [Value.asNullText,ofText]
theorem asNullInstant_some {value : Option Time} : v.asNullInstant = some value ↔ v = ofInstant value := by
  cases v <;> cases value <;> simp [Value.asNullInstant,ofInstant]

theorem build_rowOf (event : Event) : build (rowOf event) = some event := by
  have nullText : ∀ value, (ofText value).asNullText = some value := fun value => asNullText_some.mpr rfl
  have nullInstant : ∀ value, (ofInstant value).asNullInstant = some value := fun value => asNullInstant_some.mpr rfl
  simp only [build,rowOf,nullText,nullInstant]
  rfl
/-- The variables determine the event, and the event determines them, but for a tenant that is NULL. -/
theorem build_iff (present : vars .tenantID ≠ .null) : build vars = some event ↔ vars = rowOf event := by
  constructor
  · intro built
    obtain ⟨_,_,built⟩ := Option.bind_eq_some_iff.mp built
    obtain ⟨tenantID,isTenant,built⟩ := Option.bind_eq_some_iff.mp built
    iterate 15 obtain ⟨_,_,built⟩ := Option.bind_eq_some_iff.mp built
    cases built
    -- What a variable was read as says what it held.
    simp only [asUUID_some,asText_some,asNullText_some,asInstant_some,asStatus_some,asInteger_some,asNullInstant_some] at *
    cases tenantID with
    | none => exact absurd isTenant present
    | some tenantID =>
      funext c
      cases c <;> assumption
  · rintro rfl
    exact build_rowOf event

/-! ### What is stored and what is read -/

variable {schema : Schema} {rows rows' : Rows} {failure : Option String} {row : Row}

theorem lookup_kept {columns : List Column} {values : List (Column × Value)}
    (kept : (columns.zip (columns.map row)).mapM (fun (c,v) => (schema.keep c v).map (fun kept => (c,kept))) = some values) :
    (∀ c ∈ columns, (schema.keep c (row c)).isSome) ∧ ∀ c, values.lookup c = if c ∈ columns then schema.keep c (row c) else none := by
  induction columns generalizing values with
  | nil =>
    cases kept
    simp
  | cons first columns ih =>
    rw [List.map_cons,List.zip_cons_cons,List.mapM_cons] at kept
    obtain ⟨entry,is_entry,kept⟩ := Option.bind_eq_some_iff.mp kept
    obtain ⟨others,is_others,kept⟩ := Option.bind_eq_some_iff.mp kept
    obtain ⟨v,is_v,rfl⟩ := Option.map_eq_some_iff.mp is_entry
    cases kept
    obtain ⟨all,found⟩ := ih is_others
    refine ⟨List.forall_mem_cons.mpr ⟨by rw [is_v]; rfl,all⟩,fun c => ?_⟩
    rw [List.lookup_cons]
    by_cases same : c = first
    · subst same
      simp [is_v]
    · have differs : (c == first) = false := beq_false_of_ne same
      simp [differs,same,found c]
/-- The row that the INSERT of the repository on `database/sql` makes. -/
def storedRow (schema : Schema) (event : Event) : Row := fun c =>
  if c ∈ commonColumns then (schema.keep c (rowOf event c)).getD (schema.default c) else schema.default c
theorem store_ok (ok : store schema .postgres rows event failure = .ok rows') :
    (∀ c ∈ commonColumns, (schema.keep c (rowOf event c)).isSome) ∧ rows'.find (.uuid event.id) = some (storedRow schema event) := by
  cases failure with
  | some message => cases ok
  | none =>
    rw [store,exec,if_neg (by simp [storeStatement,commonColumns])] at ok
    cases kept : keptValues schema (storeStatement event .postgres) with
    | none => simp [kept] at ok
    | some values =>
      rw [kept] at ok
      obtain ⟨all,found⟩ := @lookup_kept schema (rowOf event) commonColumns values kept
      have made : (fun c => (values.lookup c).getD (schema.default c)) = storedRow schema event := by
        funext c
        rw [found c,storedRow]
        split <;> rfl
      simp only [made] at ok
      split at ok
      · cases ok
      · split at ok
        · cases ok
        · rename_i inserted
          cases ok
          have here : storedRow schema event .id = .uuid event.id := by
            show (schema.keep .id (.uuid event.id)).getD _ = _
            rw [schema.kept_id]
            rfl
          exact ⟨all,rows'.find_some.mpr ⟨((Table.insert_some inserted).2 _).mpr (.inr rfl),here⟩⟩
private theorem foldl_update (columns : List Column) (vars : Row) (c : Column) :
    (columns.zip (columns.map row)).foldl (fun vars (c,v) => Function.update vars c v) vars c = if c ∈ columns then row c else vars c := by
  induction columns generalizing vars with
  | nil => simp
  | cons first columns ih =>
    rw [List.map_cons,List.zip_cons_cons,List.foldl_cons,ih]
    by_cases same : c = first
    · subst same
      simp
    · simp [same]
def scannedRow (repository : Repository) (row : Row) : Row := fun c => if c ∈ scanned repository then row c else zero c
theorem getByID_found {repository : Repository} (found : rows.find (.uuid event.id) = some row) :
    getByID repository rows event.id = match build (scannedRow repository row) with
      | some event => .ok event
      | none => .error .scan := by
  have vars : ((scanned repository).zip ((selected repository).map row)).foldl (fun vars (c,v) => Function.update vars c v) zero =
      scannedRow repository row := by
    funext c
    cases repository <;> exact foldl_update _ zero c
  have size : ((selected repository).map row).length = (scanned repository).length := by
    cases repository <;> rfl
  rw [getByID,found]
  dsimp only
  rw [scanEvent,if_neg (not_not.mpr size),vars]
/-- A row that has all of an event is read as the event, by the first repository without its partition. -/
theorem getByID_rowOf (repository : Repository) (found : rows.find (.uuid event.id) = some (rowOf event)) :
    getByID repository rows event.id = .ok (repository.read event) := by
  have vars : scannedRow repository (rowOf event) = rowOf (repository.read event) := by
    funext c
    cases repository <;> cases c <;> rfl
  rw [getByID_found found,vars,build_rowOf]
end

/-- What is stored is read back, and `Store` fails only for an error of the database or a duplicate key. -/
def Lossless (schema : Schema) (repository : Repository) (rows : Rows) (event : Event) : Prop :=
  ∀ failure, (∀ rows', store schema repository rows event failure = .ok rows' → getByID repository rows' event.id = .ok event) ∧
    store schema repository rows event failure ≠ .error .malformed
def Exact (schema : Schema) (event : Event) : Prop := ∀ c ∈ commonColumns, schema.keep c (rowOf event c) = some (rowOf event c)

section
variable {schema : Schema} {rows rows' : Rows} {event : Event} {failure : Option String}

private theorem not_common {c : Column} : c ∉ commonColumns ↔ c = .partition := by cases c <;> decide
theorem storedRow_exact (kept : Exact schema event) : storedRow schema event = rowOf (Outbox.inserted event) := by
  funext c
  rw [storedRow]
  by_cases common : c ∈ commonColumns
  · rw [kept c common]
    cases c with
    | partition => exact absurd rfl (mt not_common.mpr (not_not.mpr common))
    | _ => rfl
  · obtain rfl := not_common.mp common
    rw [schema.partition]
    rfl
theorem store_pgx (schema : Schema) (rows : Rows) (event : Event) : store schema .pgx rows event none = .error .malformed := rfl
theorem store_postgres (schema : Schema) (rows : Rows) (event : Event) (failure : Option String) :
    store schema .postgres rows event failure ≠ .error .malformed := by
  cases failure with
  | some message => simp [store,exec]
  | none =>
    rw [store,exec,if_neg (by simp [storeStatement,commonColumns])]
    split
    · simp
    · dsimp only
      split
      · simp
      · split <;> simp
/-- The repository on `database/sql` reads an event back exactly when it has partition 0 and the columns keep its values. -/
theorem read_back (ok : store schema .postgres rows event failure = .ok rows') :
    getByID .postgres rows' event.id = .ok event ↔ event.partition = 0 ∧ Exact schema event := by
  obtain ⟨all,found⟩ := store_ok ok
  constructor
  · intro read
    rw [getByID_found found] at read
    have present : scannedRow .postgres (storedRow schema event) .tenantID ≠ .null := by
      obtain ⟨v,kept⟩ := Option.isSome_iff_exists.mp (all .tenantID (by decide))
      show (schema.keep .tenantID (rowOf event .tenantID)).getD _ ≠ _
      rw [kept]
      intro null
      have kind := schema.kept_kind _ _ _ kept
      rw [show v = .null from null] at kind
      cases kind
    have built : build (scannedRow .postgres (storedRow schema event)) = some event := by
      cases result : build (scannedRow .postgres (storedRow schema event)) with
      | none => simp [result] at read
      | some event' =>
        rw [result] at read
        cases read
        rfl
    have same := (build_iff present).mp built
    have partition : Value.integer 0 = .integer event.partition := congrFun same .partition
    refine ⟨(Value.integer.inj partition).symm,fun c common => ?_⟩
    obtain ⟨v,kept⟩ := Option.isSome_iff_exists.mp (all c common)
    have here := congrFun same c
    rw [scannedRow,if_pos (show c ∈ scanned .postgres from common),storedRow,if_pos common,kept] at here
    rw [kept]
    exact congrArg some here
  · rintro ⟨partition,kept⟩
    have unsharded : Outbox.inserted event = event := by rw [Outbox.inserted,← partition]
    rw [storedRow_exact kept,unsharded] at found
    rw [getByID_rowOf .postgres found]
    exact congrArg Except.ok unsharded
/-- Lossless are the events with partition 0 whose values the columns keep, on `database/sql`; and none on pgx. -/
theorem lossless_iff (schema : Schema) (repository : Repository) (rows : Rows) (event : Event) :
    Lossless schema repository rows event ↔ repository = .postgres ∧
      ((∃ rows', store schema .postgres rows event none = .ok rows') → event.partition = 0 ∧ Exact schema event) := by
  constructor
  · intro lossless
    cases repository with
    | pgx => exact absurd (store_pgx schema rows event) (lossless none).2
    | postgres =>
      refine ⟨rfl,?_⟩
      rintro ⟨rows',ok⟩
      exact (read_back ok).mp ((lossless none).1 rows' ok)
  · rintro ⟨rfl,kept⟩ failure
    refine ⟨fun rows' ok => (read_back ok).mpr (kept ⟨rows',?_⟩),store_postgres schema rows event failure⟩
    cases failure with
    | none => exact ok
    | some message => cases ok
end

def exactly : Schema := ⟨fun _ v => some v,zero,by simp,by simp,rfl⟩
def sharded : Event := { newEvent 1 0 "user.created" "{}" none none with partition := 3 }
/-- The partition is lost by one repository, and the other one stores no event. -/
theorem partition_lost : ¬ Lossless exactly .postgres .empty sharded ∧ ∀ event, ¬ Lossless exactly .pgx .empty event := by
  refine ⟨fun lossless => ?_,fun event lossless => (lossless none).2 (store_pgx exactly .empty event)⟩
  obtain ⟨rows,ok⟩ : ∃ rows, store exactly .postgres .empty sharded none = .ok rows := ⟨_,rfl⟩
  exact absurd ((read_back ok).mp ((lossless none).1 rows ok)).1 (by decide)

end Stellabill.OutboxColumns
