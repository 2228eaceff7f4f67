import Stellabill.ByteStrings
import Stellabill.ExportRequests
import Stellabill.StatementService

/-!
The handler for GET /api/v1/statements/:id. Its comment promises that a statement of
someone else is answered like one that does not exist; it answers 403 to the first
and 404 to the second.
-/
namespace Stellabill.StatementHandler
open ByteStrings TenantExport StatementService
open ExportRequests (RequestContext ContextValue getAuthContext)

/-- What the handler reads of a request; `generated` is the trace ID made when none is set. -/
structure Request where
  context : RequestContext
  id : String
  fields : Bytes
  path : String
  accept : String
  traceID : String
  generated : String

/-- How texts are written: `security.MaskPII`, and the quotation of a string in a message. -/
structure Writing where
  maskPII : String → String
  quote : Bytes → String

structure ProblemDetails where
  type : String
  title : String
  status : Nat
  detail : String
  instance_ : String
  code : String
  traceID : String
  deriving DecidableEq

inductive Body
  | problem (details : ProblemDetails) | error (message : String) | id (id : String) | statement (detail : StatementDetail)
  | projected (fields : List (Bytes × String))
  deriving DecidableEq
structure Response where
  status : Nat
  contentType : String
  body : Body
  deriving DecidableEq

def json (status : Nat) (body : Body) : Response := ⟨status,"application/json; charset=utf-8",body⟩
def renderProblem (w : Writing) (c : Request) (status : Nat) (code detail : String) : Response :=
  let traceID := if c.traceID = "" then c.generated else c.traceID
  let contentType := if c.accept = "application/json" then "application/json; charset=utf-8" else "application/problem+json; charset=utf-8"
  ⟨status,contentType,.problem ⟨"about:blank",code,status,w.maskPII detail,c.path,code,traceID⟩⟩

def statementAllowedFields : List Bytes :=
  ["id","subscription_id","customer","period_start","period_end","issued_at","total_amount","currency","kind","status"].map text

def alphanumeric (byte : UInt8) : Bool := (0x30 ≤ byte ∧ byte ≤ 0x39) ∨ (0x41 ≤ byte ∧ byte ≤ 0x5A) ∨ (0x61 ≤ byte ∧ byte ≤ 0x7A)
/-- `identifierPattern`: a letter or digit, then letters, digits, dots, underscores and hyphens. -/
def identifier : Bytes → Bool
  | [] => false
  | first :: rest => alphanumeric first && rest.all (fun byte => alphanumeric byte || byte = 0x2E || byte = 0x5F || byte = 0x2D)
def invalidFields (reason : String) : String := "invalid query parameter \"fields\": " ++ reason
/-- The loop of `ParseFields` over the parts; what is in the result has been seen. -/
def parseParts (w : Writing) (allowed : List Bytes) : List Bytes → List Bytes → Except String (List Bytes)
  | [], result => if result = [] then .error (invalidFields "must specify at least one valid field") else .ok result
  | part :: rest, result =>
    let trimmed := trimSpace part
    if trimmed = [] then parseParts w allowed rest result
    else if ¬ identifier trimmed then .error (invalidFields (w.quote trimmed ++ " is not a valid field name"))
    else if ¬ allowed.contains trimmed then .error (invalidFields ("unknown or forbidden field " ++ w.quote trimmed))
    else if result.contains trimmed then parseParts w allowed rest result
    else parseParts w allowed rest (result ++ [trimmed])
def parseFields (w : Writing) (raw : Bytes) (allowed : List Bytes) : Except String (Option (List Bytes)) :=
  if raw = [] then .ok none else (parseParts w allowed (raw.splitOn 0x2C) []).map some

section
variable (detail : StatementDetail)
/-- The members of the JSON of a statement, with the tags of `StatementDetail`. -/
def members : List (Bytes × String) :=
  [(text "id",detail.id),(text "subscription_id",detail.subscriptionID),(text "customer",detail.customer),
    (text "period_start",detail.periodStart),(text "period_end",detail.periodEnd),(text "issued_at",detail.issuedAt),
    (text "total_amount",detail.totalAmount),(text "currency",detail.currency),(text "kind",detail.kind),(text "status",detail.status)]
/-- The fields that may be asked for are the members. -/
theorem members_allowed : (members detail).map Prod.fst = statementAllowedFields := rfl
def projectFields (fields : List Bytes) : Except String (List (Bytes × String)) :=
  if fields = [] then .error "fields must not be empty"
  else .ok (fields.filterMap (fun name => ((members detail).lookup name).map (fun value => (name,value))))

def renderError (w : Writing) (c : Request) : ServiceError → Response
  | .notFound | .deleted => renderProblem w c 404 "client/not-found" "statement not found"
  | .forbidden => renderProblem w c 403 "client/forbidden" "forbidden"
  | .repository _ => renderProblem w c 500 "system/internal-error" "failed to fetch statement"
def renderStatement : Option (List Bytes) → Response
  | none => json 200 (.statement detail)
  | some fields =>
    match projectFields detail fields with
    | .error _ => json 500 (.error "failed to build response")
    | .ok projected => json 200 (.projected projected)
end
/-- The handler of `NewGetStatementHandler`; there may be no service. -/
def newGetStatementHandler (w : Writing) (svc : Option Service) (c : Request) : Response :=
  match svc with
  | none => json 200 (.id c.id)
  | some svc =>
    match getAuthContext c.context with
    | none => renderProblem w c 401 "client/unauthorized" "unauthorized"
    | some (callerID,roles) =>
      if c.id = "" then renderProblem w c 400 "client/bad-request" "id is required"
      else match parseFields w c.fields statementAllowedFields with
        | .error message => json 400 (.error message)
        | .ok fields =>
          match getDetail svc callerID roles c.id with
          | .error error => renderError w c error
          | .ok detail => renderStatement detail fields

/-! ### Field lists -/

/-- The fields of an accepted list are allowed ones, each of them once. -/
structure FieldList (allowed fields : List Bytes) : Prop where
  some_field : fields ≠ []
  distinct : fields.Nodup
  known : ∀ field ∈ fields, field ∈ allowed

variable {w : Writing} {allowed fields : List Bytes}

theorem parseParts_ok {parts result : List Bytes} (distinct : result.Nodup) (known : ∀ field ∈ result, field ∈ allowed)
    (ok : parseParts w allowed parts result = .ok fields) : FieldList allowed fields := by
  induction parts generalizing result with
  | nil =>
    rw [parseParts] at ok
    split at ok
    · cases ok
    · rename_i nonempty
      cases ok
      exact ⟨nonempty,distinct,known⟩
  | cons part rest ih =>
    rw [parseParts] at ok
    split_ifs at ok with empty valid unknown seen
    · exact ih distinct known ok
    · exact ih distinct known ok
    · have fresh : (result ++ [trimSpace part]).Nodup := List.nodup_append.mpr
        ⟨distinct,by simp,fun field member field' last same => seen (List.contains_iff_mem.mpr (List.mem_singleton.mp last ▸ same ▸ member))⟩
      refine ih fresh ?_ ok
      intro field member
      obtain member | last := List.mem_append.mp member
      · exact known field member
      · exact List.mem_singleton.mp last ▸ List.contains_iff_mem.mp unknown
private theorem parseFields_ok {raw : Bytes} (ok : parseFields w raw allowed = .ok (some fields)) : FieldList allowed fields := by
  rw [parseFields] at ok
  split at ok
  · cases ok
  · cases parsed : parseParts w allowed (raw.splitOn 0x2C) [] with
    | error message => simp [parsed,Except.map] at ok
    | ok found =>
      rw [parsed] at ok
      cases ok
      exact parseParts_ok List.nodup_nil (by simp) parsed
/-- A statement is answered with 200, and the projection on an accepted list has all its fields. -/
theorem renderStatement_projected {c : Request} (detail : StatementDetail)
    (ok : parseFields w c.fields statementAllowedFields = .ok (some fields)) :
    ∃ projected, renderStatement detail (some fields) = json 200 (.projected projected) ∧ projected.map Prod.fst = fields := by
  have list := parseFields_ok ok
  refine ⟨_,by rw [renderStatement,projectFields,if_neg list.some_field],?_⟩
  have named : ∀ name ∈ fields, (((members detail).lookup name).map (fun value => (name,value))).map Prod.fst = some name := by
    intro name member
    have key : name ∈ (members detail).map Prod.fst := members_allowed detail ▸ list.known name member
    obtain ⟨entry,inside,rfl⟩ := List.mem_map.mp key
    have present : ((members detail).lookup entry.1).isSome = true := List.lookup_isSome_iff.mpr ⟨entry,inside,beq_self_eq_true _⟩
    obtain ⟨value,found⟩ := Option.isSome_iff_exists.mp present
    rw [found]
    rfl
  rw [List.map_filterMap,List.filterMap_congr named,List.filterMap_some]

section
variable {w : Writing} {svc svc' : Service} {c : Request} {callerID : String} {roles : List String} {row : StatementRow}

theorem getDetail_foreign (found : svc.db.statements.find c.id = some row) (foreign : ¬ Access svc callerID roles row) :
    getDetail svc callerID roles c.id = .error (match svc.findError c.id with
      | some message => .repository message
      | none => if row.deletedAt = none then .forbidden else .deleted) := by
  have unreadable : ¬ mayRead svc callerID roles row = true := mt mayRead_iff.mp foreign
  rw [getDetail,findByID,found]
  cases svc.findError c.id with
  | some message => rfl
  | none =>
    by_cases kept : row.deletedAt = none
    · simp [bind,Except.bind,kept,unreadable]
    · simp [bind,Except.bind,kept]
private theorem getDetail_absent (absent : svc.db.statements.find c.id = none) :
    getDetail svc callerID roles c.id = .error (match svc.findError c.id with
      | some message => .repository message
      | none => .notFound) := by
  rw [getDetail,findByID,absent]
  cases svc.findError c.id <;> rfl
private theorem renderError_forbidden : renderError w c .forbidden ≠ renderError w c .notFound := by
  intro same
  have status := congrArg Response.status same
  simp [renderError,renderProblem] at status

/-- A statement without access is answered like none exactly when the request does not get to it, the lookup fails, or
    it is deleted. -/
theorem undisclosed_iff (w : Writing) (svc svc' : Service) (c : Request) (signed : getAuthContext c.context = some (callerID,roles))
    (found : svc.db.statements.find c.id = some row) (foreign : ¬ Access svc callerID roles row)
    (absent : svc'.db.statements.find c.id = none) (failing : svc'.findError = svc.findError) :
    newGetStatementHandler w (some svc) c = newGetStatementHandler w (some svc') c ↔
      c.id = "" ∨ (∃ message, parseFields w c.fields statementAllowedFields = .error message) ∨ svc.findError c.id ≠ none ∨
        row.deletedAt ≠ none := by
  simp only [newGetStatementHandler,signed]
  by_cases unnamed : c.id = ""
  · simp [unnamed]
  rw [if_neg unnamed,if_neg unnamed,getDetail_foreign found foreign,getDetail_absent absent,failing]
  cases parsed : parseFields w c.fields statementAllowedFields with
  | error message => simp
  | ok fields =>
    cases svc.findError c.id with
    | some message => simp
    | none =>
      by_cases kept : row.deletedAt = none
      · simpa [unnamed,kept] using renderError_forbidden
      · simp [kept,renderError]
end

def plainly : Writing := ⟨id,fun _ => "field"⟩
def fromBob : Request := ⟨⟨some (.text "bob"),some (.texts []),none⟩,"st-1",[],"/api/v1/statements/st-1","","trace-1","trace-2"⟩
theorem renderStatement_projected_kind : ∃ projected,
    renderStatement ⟨"","","","","","","","","",""⟩ (some [text "kind"]) = json 200 (.projected projected) ∧ projected.map Prod.fst = [text "kind"] :=
  renderStatement_projected (c := { fromBob with fields := text "kind, ,kind" }) (w := plainly) _ (by decide +kernel)
def unbilled : Database := { single with statements := .empty }
theorem undisclosed_iff_removed : newGetStatementHandler plainly (some (serving removed)) fromBob =
    newGetStatementHandler plainly (some (serving unbilled)) fromBob := by
  have found : (serving removed).db.statements.find fromBob.id = some { statementOf "st-1" "acme" "sub-1" "ann" with deletedAt := some 0 } := by
    decide +kernel
  refine (undisclosed_iff plainly (serving removed) (serving unbilled) fromBob rfl found ?_ rfl rfl).mpr (.inr (.inr (.inr (by simp))))
  simp [Access,statementOf]
/-- A statement of Ann is refused to Bob with 403, and one that does not exist with 404. -/
theorem existence_disclosed : ¬ ∀ (w : Writing) (svc svc' : Service) (c : Request) (callerID : String) (roles : List String) (row : StatementRow),
    getAuthContext c.context = some (callerID,roles) → svc.db.statements.find c.id = some row → ¬ Access svc callerID roles row →
      svc'.db.statements.find c.id = none → svc'.findError = svc.findError →
        newGetStatementHandler w (some svc) c = newGetStatementHandler w (some svc') c := by
  intro undisclosed
  have found : (serving single).db.statements.find fromBob.id = some (statementOf "st-1" "acme" "sub-1" "ann") := by decide +kernel
  have same := undisclosed plainly (serving single) (serving unbilled) fromBob "bob" [] _ rfl found (by simp [Access,statementOf]) rfl rfl
  have status := congrArg Response.status same
  revert status
  decide +kernel

end Stellabill.StatementHandler
