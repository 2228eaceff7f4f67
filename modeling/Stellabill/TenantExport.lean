import Stellabill.Parsing
import Stellabill.Subscriptions
import Mathlib.Data.List.Dedup
import Mathlib.Data.List.Sort

/-!
The export of a tenant's data. `ExportTenantData` lists the plans, the tenant's
subscriptions and the statements of the customers of these, and uploads an
archive of the three lists. Only the subscriptions are listed by tenant.
-/
namespace Stellabill.TenantExport
open Keyed Transitions Program Parsing List
open Subscriptions (SubscriptionRow)

structure PlanRow where
  id : String
  tenantID : String
  name : String
  amount : String
  currency : String
  interval : String
  description : String
  updatedAt : Time
  version : Int
  deriving DecidableEq

structure StatementRow where
  id : String
  tenantID : String
  subscriptionID : String
  customerID : String
  periodStart : String
  periodEnd : String
  issuedAt : String
  totalAmount : String
  currency : String
  kind : String
  status : String
  deletedAt : Option Time
  deriving DecidableEq

/-- The three tables; the rows in memory stand in the order in which the map is iterated. -/
structure Database where
  plans : Table PlanRow.id
  subscriptions : Subscriptions.Rows
  statements : Table StatementRow.id

inductive PlanRepo
  | memory | postgres
  deriving DecidableEq

/-- `List`: the plans of all tenants, from PostgreSQL ordered by name and ID. -/
def listPlans (repo : PlanRepo) (db : Database) : List PlanRow :=
  match repo with
  | .memory => db.plans.rows
  | .postgres => db.plans.rows.insertionSort (fun a b => a.name < b.name ∨ (a.name = b.name ∧ a.id ≤ b.id))
/-- `ListByTenant`, which both repositories answer in the order of their rows. -/
def listByTenant (db : Database) (tenantID : String) : List SubscriptionRow :=
  db.subscriptions.rows.filter (fun row => row.tenantID = tenantID)

structure StatementQuery where
  subscriptionID : String
  kind : String
  status : String
  startAfter : String
  endBefore : String
  limit : Int

def selected (customerID : String) (q : StatementQuery) (row : StatementRow) : Bool :=
  row.customerID = customerID ∧ (q.subscriptionID = "" ∨ row.subscriptionID = q.subscriptionID) ∧ (q.kind = "" ∨ row.kind = q.kind) ∧
    (q.status = "" ∨ row.status = q.status) ∧ (q.startAfter = "" ∨ ¬ row.periodStart < q.startAfter) ∧
    (q.endBefore = "" ∨ ¬ q.endBefore < row.periodEnd)
def listByCustomerID (db : Database) (customerID : String) (q : StatementQuery) : List StatementRow :=
  (db.statements.rows.filter (selected customerID q)).take (if q.limit ≤ 0 then 10 else q.limit.toNat)

/-- The archive: `plans.json`, `subscriptions.json` and `statements.json`. -/
structure Archive where
  plans : List PlanRow
  subscriptions : List SubscriptionRow
  statements : List StatementRow
  deriving DecidableEq

inductive Checkpoint
  | beforeFetch | afterPlans | fetching (customerID : String) | beforeZip | zipStart | afterPlansFile | afterSubscriptionsFile
  | beforeUpload | afterUpload
  deriving DecidableEq

inductive ZipFault
  | create (reason : String) | marshal (reason : String) | write (reason : String)
def ZipFault.message (name : String) : ZipFault → String
  | .create reason => "create " ++ name ++ " in zip: " ++ reason
  | .marshal reason => "marshal " ++ name ++ ": " ++ reason
  | .write reason => "write " ++ name ++ " to zip: " ++ reason

structure PresignedURL where
  url : String
  expiresAt : Time
  deriving DecidableEq

/-- What an export meets: the errors of the context, the repositories, the archive and the uploader, the order of the
    map of customers, the digest and the time. -/
structure Surroundings where
  repo : PlanRepo
  cancelled : Checkpoint → Option String
  plansError : Option String
  subscriptionsError : Option String
  statementsError : String → Option String
  order : List String → List String
  permutes : ∀ customers, (order customers).Perm customers
  zipFault : Archive → String → Option ZipFault
  closeError : Option String
  sha256 : Archive → String
  timestamp : String
  put : Reply
  presign : Except String PresignedURL

def forbidden : String := "forbidden"
def statementsPageSize : Int := 1000
def exportQuery : StatementQuery := ⟨"","","","","",statementsPageSize⟩

def answered {α : Type} (error : Option String) (message : String) (value : α) : Except String α :=
  match error with
  | none => .ok value
  | some reason => .error (message ++ reason)
section
variable (env : Surroundings)
def check (point : Checkpoint) (message : String) : Except String Unit := answered (env.cancelled point) message ()

def customersOf (subs : List SubscriptionRow) : List String := ((subs.map SubscriptionRow.customerID).filter (fun c => c ≠ "")).dedup
def fetchStatements (env : Surroundings) (db : Database) : List String → Except String (List StatementRow)
  | [] => .ok []
  | customerID :: rest => do
    check env (.fetching customerID) "export cancelled during statement fetch: "
    let statements ← answered (env.statementsError customerID) ("list statements for customer " ++ customerID ++ ": ")
      (listByCustomerID db customerID exportQuery)
    let more ← fetchStatements env db rest
    pure (statements ++ more)
def addJSONToZip (archive : Archive) (name : String) : Except String Unit :=
  answered ((env.zipFault archive name).map (ZipFault.message name)) "" ()
def buildExportZIP (archive : Archive) : Except String Archive := do
  check env .zipStart ""
  addJSONToZip env archive "plans.json"
  check env .afterPlansFile ""
  addJSONToZip env archive "subscriptions.json"
  check env .afterSubscriptionsFile ""
  addJSONToZip env archive "statements.json"
  answered env.closeError "close zip: " archive
def collect (db : Database) (callerID : String) (roles : List String) (tenantID : String) : Except String Archive :=
  let isAdmin := roles.contains "admin"
  let isMerchant := roles.contains "merchant"
  if ¬ isAdmin ∧ ¬ isMerchant then .error forbidden
  else if isMerchant ∧ callerID ≠ tenantID then .error forbidden
  else do
    check env .beforeFetch "export cancelled before data fetch: "
    let plans ← answered env.plansError "list plans: " (listPlans env.repo db)
    check env .afterPlans "export cancelled after plans: "
    let subs ← answered env.subscriptionsError "list subscriptions: " (listByTenant db tenantID)
    let statements ← fetchStatements env db (env.order (customersOf subs))
    check env .beforeZip "export cancelled before zip build: "
    (buildExportZIP env ⟨plans,subs,statements⟩).mapError ("build export zip: " ++ ·)

structure Upload where
  objectKey : String
  archive : Archive
  deriving DecidableEq
structure TenantExportResult where
  objectKey : String
  url : String
  expiresAt : Time
  sha256Hash : String
  deriving DecidableEq

def exportTenantData (db : Database) (callerID : String) (roles : List String) (tenantID : String) :
    Option Upload × Except String TenantExportResult :=
  match collect env db callerID roles tenantID with
  | .error message => (none,.error message)
  | .ok archive =>
    let objectKey := "exports/tenants/" ++ tenantID ++ "/" ++ env.timestamp ++ ".zip"
    match check env .beforeUpload "export cancelled before upload: " with
    | .error message => (none,.error message)
    | .ok _ =>
      (if env.put.effective then some ⟨objectKey,archive⟩ else none,do
        answered env.put.error "upload export: " ()
        check env .afterUpload "export cancelled after upload: "
        let presigned ← env.presign.mapError ("presign url: " ++ ·)
        pure ⟨objectKey,presigned.url,presigned.expiresAt,env.sha256 archive⟩)
end

section
variable {env : Surroundings} {db db' : Database} {callerID tenantID : String} {roles : List String} {α : Type} {archive : Archive}
  {customerID : String}

theorem answered_ok {error : Option String} {message : String} {value result : α} (ok : answered error message value = .ok result) : result = value := by
  cases error with
  | none =>
    cases ok
    rfl
  | some reason => cases ok
theorem mapError_ok {x : Except String α} {f : String → String} {result : α} (ok : x.mapError f = .ok result) : x = .ok result := by
  cases x with
  | error message => cases ok
  | ok value => exact ok

variable {customers : List String} {q : StatementQuery}

theorem fetchStatements_ok {result : List StatementRow} (ok : fetchStatements env db customers = .ok result) :
    result = customers.flatMap (fun customerID => listByCustomerID db customerID exportQuery) := by
  induction customers generalizing result with
  | nil =>
    cases ok
    rfl
  | cons customerID rest ih =>
    obtain ⟨_,_,ok⟩ := bind_ok.mp ok
    obtain ⟨statements,first,ok⟩ := bind_ok.mp ok
    obtain ⟨more,later,ok⟩ := bind_ok.mp ok
    cases ok
    rw [flatMap_cons,answered_ok first,ih later]
theorem buildExportZIP_ok {result : Archive} (ok : buildExportZIP env archive = .ok result) : result = archive := by
  iterate 6 obtain ⟨_,_,ok⟩ := bind_ok.mp ok
  exact answered_ok ok
theorem listByCustomerID_customer {row : StatementRow} (listed : row ∈ listByCustomerID db customerID q) :
    row.customerID = customerID := by
  have passed := (mem_filter.mp (mem_of_mem_take listed)).2
  exact (of_decide_eq_true passed).1
private theorem nodup_order (subs : List SubscriptionRow) : (env.order (customersOf subs)).Nodup :=
  (env.permutes (customersOf subs)).nodup_iff.mpr (nodup_dedup _)
theorem mem_order {subs : List SubscriptionRow} :
    customerID ∈ env.order (customersOf subs) ↔ customerID ∈ customersOf subs := (env.permutes (customersOf subs)).mem_iff
private theorem filter_flatMap_label {β : Type} [DecidableEq α] {label : β → α} {part : α → List β} (own : ∀ a, ∀ b ∈ part a, label b = a)
    {labels : List α} (distinct : labels.Nodup) {a : α} (member : a ∈ labels) :
    (labels.flatMap part).filter (fun b => label b = a) = part a := by
  have kept : (part a).filter (fun b => label b = a) = part a :=
    filter_eq_self.mpr (fun b inside => by simp [own a b inside])
  have dropped : ∀ rest : List α, a ∉ rest → (rest.flatMap part).filter (fun b => label b = a) = [] := by
    intro rest absent
    refine filter_eq_nil_iff.mpr ?_
    intro b inside same
    obtain ⟨a',earlier,inside⟩ := mem_flatMap.mp inside
    have named : a' = a := (own a' b inside).symm.trans (of_decide_eq_true same)
    exact absent (named ▸ earlier)
  induction labels with
  | nil => cases member
  | cons first rest ih =>
    obtain ⟨fresh,distinct⟩ := nodup_cons.mp distinct
    rw [flatMap_cons,filter_append]
    by_cases same : a = first
    · subst same
      rw [kept,dropped rest fresh,append_nil]
    · have other := dropped [first] (by simpa using same)
      rw [flatMap_singleton] at other
      rw [other]
      exact ih distinct ((mem_cons.mp member).resolve_left same)
section
variable (ok : collect env db callerID roles tenantID = .ok archive)
include ok
theorem collect_ok :
    archive = ⟨listPlans env.repo db,listByTenant db tenantID,(env.order (customersOf (listByTenant db tenantID))).flatMap
      (fun customerID => listByCustomerID db customerID exportQuery)⟩ := by
  unfold collect at ok
  dsimp only at ok
  split_ifs at ok with neither foreign
  obtain ⟨_,_,ok⟩ := bind_ok.mp ok
  obtain ⟨plans,listed,ok⟩ := bind_ok.mp ok
  obtain ⟨_,_,ok⟩ := bind_ok.mp ok
  obtain ⟨subs,found,ok⟩ := bind_ok.mp ok
  obtain ⟨statements,gathered,ok⟩ := bind_ok.mp ok
  obtain ⟨_,_,ok⟩ := bind_ok.mp ok
  rw [buildExportZIP_ok (mapError_ok ok),answered_ok listed,fetchStatements_ok gathered,answered_ok found]
theorem archive_statements (customer : customerID ∈ customersOf (listByTenant db tenantID)) :
    archive.statements.filter (fun row => row.customerID = customerID) = listByCustomerID db customerID exportQuery := by
  rw [collect_ok ok]
  exact filter_flatMap_label (fun _ _ => listByCustomerID_customer) (nodup_order _) (mem_order.mpr customer)
/-- Two archives are the same exactly when all plans, the tenant's subscriptions and their customers' statements were
    listed alike. -/
theorem archive_eq_iff {archive' : Archive} (ok' : collect env db' callerID roles tenantID = .ok archive') :
    archive = archive' ↔ listPlans env.repo db = listPlans env.repo db' ∧ listByTenant db tenantID = listByTenant db' tenantID ∧
      ∀ customerID ∈ customersOf (listByTenant db tenantID),
        listByCustomerID db customerID exportQuery = listByCustomerID db' customerID exportQuery := by
  constructor
  · rintro rfl
    have same := (collect_ok ok).symm.trans (collect_ok ok')
    have subs : listByTenant db tenantID = listByTenant db' tenantID := congrArg Archive.subscriptions same
    refine ⟨congrArg Archive.plans same,subs,?_⟩
    intro customerID customer
    rw [← archive_statements ok customer]
    exact archive_statements ok' (subs ▸ customer)
  · rintro ⟨plans,subs,statements⟩
    rw [collect_ok ok,collect_ok ok',← subs]
    congr 1
    exact flatMap_congr (fun customerID customer => statements customerID (mem_order.mp customer))
end

/-! ### Isolation -/

def tenantStatements (db : Database) (tenantID : String) : List StatementRow :=
  db.statements.rows.filter (fun row => row.subscriptionID ∈ (listByTenant db tenantID).map SubscriptionRow.id)

/-- Two databases have the same plans, subscriptions and statements of the tenant, in the same order. -/
structure Agree (tenantID : String) (db db' : Database) : Prop where
  plans : db.plans.rows.filter (fun row => row.tenantID = tenantID) = db'.plans.rows.filter (fun row => row.tenantID = tenantID)
  subscriptions : listByTenant db tenantID = listByTenant db' tenantID
  statements : tenantStatements db tenantID = tenantStatements db' tenantID

/-- The customers of the tenant have no statements but those of its subscriptions. -/
def Unshared (tenantID : String) (db : Database) : Prop :=
  ∀ row ∈ db.statements.rows, row.customerID ∈ customersOf (listByTenant db tenantID) → row ∈ tenantStatements db tenantID

theorem Unshared.listByCustomerID (unshared : Unshared tenantID db) (customer : customerID ∈ customersOf (listByTenant db tenantID)) :
    listByCustomerID db customerID q =
      ((tenantStatements db tenantID).filter (selected customerID q)).take (if q.limit ≤ 0 then 10 else q.limit.toNat) := by
  have same : db.statements.rows.filter (selected customerID q) = (tenantStatements db tenantID).filter (selected customerID q) := by
    rw [tenantStatements,filter_filter]
    refine filter_congr ?_
    intro row member
    cases chosen : selected customerID q row with
    | false => rfl
    | true =>
      have own : row.customerID = customerID := (of_decide_eq_true chosen).1
      exact (mem_filter.mp (unshared row member (own ▸ customer))).2.symm
  rw [TenantExport.listByCustomerID,same]
private theorem fetchStatements_congr (same : ∀ customerID ∈ customers,
    listByCustomerID db customerID exportQuery = listByCustomerID db' customerID exportQuery) :
    fetchStatements env db customers = fetchStatements env db' customers := by
  induction customers with
  | nil => rfl
  | cons customerID rest ih =>
    rw [fetchStatements,fetchStatements,same customerID (by simp),ih (fun customerID later => same customerID (by simp [later]))]
private theorem collect_congr (plans : listPlans env.repo db = listPlans env.repo db')
    (subs : listByTenant db tenantID = listByTenant db' tenantID) (statements : ∀ customerID ∈ customersOf (listByTenant db tenantID),
      listByCustomerID db customerID exportQuery = listByCustomerID db' customerID exportQuery) :
    collect env db callerID roles tenantID = collect env db' callerID roles tenantID := by
  unfold collect
  rw [plans,← subs]
  cases found : answered env.subscriptionsError "list subscriptions: " (listByTenant db tenantID) with
  | error message => rfl
  | ok result =>
    have gathered : fetchStatements env db (env.order (customersOf result)) = fetchStatements env db' (env.order (customersOf result)) := by
      rw [answered_ok found]
      exact fetchStatements_congr (fun customerID customer => statements customerID (mem_order.mp customer))
    simp only [bind,Except.bind,gathered]
/-- Where the plans are the same and the tenant's customers are not shared, the export depends on the rows of that
    tenant alone: whatever is uploaded, returned or reported. -/
theorem exported_isolated (agree : Agree tenantID db db') (plans : db.plans = db'.plans) (unshared : Unshared tenantID db)
    (unshared' : Unshared tenantID db') :
    exportTenantData env db callerID roles tenantID = exportTenantData env db' callerID roles tenantID := by
  have listed : listPlans env.repo db = listPlans env.repo db' := by
    unfold listPlans
    rw [plans]
  have statements : ∀ customerID ∈ customersOf (listByTenant db tenantID),
      listByCustomerID db customerID exportQuery = listByCustomerID db' customerID exportQuery := by
    intro customerID customer
    rw [unshared.listByCustomerID customer,unshared'.listByCustomerID (agree.subscriptions ▸ customer),agree.statements]
  rw [exportTenantData,exportTenantData,collect_congr listed agree.subscriptions statements]
theorem exportTenantData_upload {upload : Upload} (made : (exportTenantData env db callerID roles tenantID).1 = some upload) :
    ∃ archive, collect env db callerID roles tenantID = .ok archive ∧
      upload = ⟨"exports/tenants/" ++ tenantID ++ "/" ++ env.timestamp ++ ".zip",archive⟩ := by
  unfold exportTenantData at made
  cases collected : collect env db callerID roles tenantID with
  | error message => simp [collected] at made
  | ok archive =>
    simp only [collected] at made
    split at made
    · cases made
    · split_ifs at made
      exact ⟨archive,rfl,(Option.some.inj made).symm⟩
/-- For states with the same rows of the tenant, the upload is the same exactly when all plans, whosever they are, are
    listed alike and so are the statements of the tenant's customers. -/
theorem exported_alike_iff (agree : Agree tenantID db db') {upload upload' : Upload}
    (made : (exportTenantData env db callerID roles tenantID).1 = some upload)
    (made' : (exportTenantData env db' callerID roles tenantID).1 = some upload') :
    upload = upload' ↔ listPlans env.repo db = listPlans env.repo db' ∧ ∀ customerID ∈ customersOf (listByTenant db tenantID),
        listByCustomerID db customerID exportQuery = listByCustomerID db' customerID exportQuery := by
  obtain ⟨archive,collected,rfl⟩ := exportTenantData_upload made
  obtain ⟨archive',collected',rfl⟩ := exportTenantData_upload made'
  have same : archive = archive' ↔ _ := archive_eq_iff collected collected'
  constructor
  · intro alike
    obtain ⟨plans,_,statements⟩ := same.mp (Upload.mk.inj alike).2
    exact ⟨plans,statements⟩
  · rintro ⟨plans,statements⟩
    rw [same.mpr ⟨plans,agree.subscriptions,statements⟩]
end

/-- Nothing fails, and the customers come in the order of the subscriptions. -/
def calm : Surroundings where
  repo := .memory
  cancelled _ := none
  plansError := none
  subscriptionsError := none
  statementsError _ := none
  order customers := customers
  permutes customers := List.Perm.refl customers
  zipFault _ _ := none
  closeError := none
  sha256 archive := "digest of " ++ toString archive.statements.length ++ " statements"
  timestamp := "20260102T030405Z"
  put := .done
  presign := .ok ⟨"signed-url",86400⟩
def planOf (id tenantID : String) : PlanRow := ⟨id,tenantID,"Gold","1999","USD","month","",0,1⟩
def subscriptionOf (id tenantID customerID : String) : SubscriptionRow :=
  ⟨id,"plan-1",tenantID,customerID,"active","1999","USD","month","",0,1,none⟩
def statementOf (id tenantID subscriptionID customerID : String) : StatementRow :=
  ⟨id,tenantID,subscriptionID,customerID,"2026-01-01","2026-02-01","2026-02-01","1999","USD","invoice","paid",none⟩
def single : Database :=
  ⟨⟨[planOf "plan-1" "acme"],by decide⟩,⟨[subscriptionOf "sub-1" "acme" "ann"],by decide⟩,
    ⟨[statementOf "st-1" "acme" "sub-1" "ann"],by decide⟩⟩
/-- Another tenant has a subscription and statements of it, for this customer. -/
def joined (customerID : String) : Database :=
  ⟨single.plans,⟨[subscriptionOf "sub-2" "globex" customerID,subscriptionOf "sub-1" "acme" "ann"],by simp [subscriptionOf]⟩,
    ⟨[statementOf "st-1" "acme" "sub-1" "ann",statementOf "st-2" "globex" "sub-2" customerID],by simp [statementOf]⟩⟩
def priced : Database := { single with plans := ⟨[planOf "plan-1" "acme",planOf "plan-2" "globex"],by decide⟩ }

theorem exported_alike_iff_joined : ∃ upload upload' : Upload,
    Agree "acme" single (joined "bob") ∧ (exportTenantData calm single "acme" ["merchant"] "acme").1 = some upload ∧
      (exportTenantData calm (joined "bob") "acme" ["merchant"] "acme").1 = some upload' ∧ upload = upload' := by
  have agree : Agree "acme" single (joined "bob") := ⟨by decide +kernel,by decide +kernel,by decide +kernel⟩
  obtain ⟨upload,made⟩ : ∃ upload, (exportTenantData calm single "acme" ["merchant"] "acme").1 = some upload :=
    Option.isSome_iff_exists.mp (by decide +kernel)
  obtain ⟨upload',made'⟩ : ∃ upload, (exportTenantData calm (joined "bob") "acme" ["merchant"] "acme").1 = some upload :=
    Option.isSome_iff_exists.mp (by decide +kernel)
  exact ⟨upload,upload',agree,made,made',(exported_alike_iff agree made made').mpr ⟨rfl,by decide +kernel⟩⟩
theorem exported_isolated_joined : exportTenantData calm single "acme" ["merchant"] "acme" =
    exportTenantData calm (joined "bob") "acme" ["merchant"] "acme" := by
  refine exported_isolated ⟨rfl,by decide +kernel,by decide +kernel⟩ rfl ?_ ?_ <;> unfold Unshared <;> decide +kernel
theorem exported_foreign_plan :
    ¬ ∀ (env : Surroundings) (tenantID callerID : String) (roles : List String) (db db' : Database), Agree tenantID db db' →
      (exportTenantData env db callerID roles tenantID).1 = (exportTenantData env db' callerID roles tenantID).1 := by
  intro isolated
  have agree : Agree "acme" single priced := ⟨by decide +kernel,by decide +kernel,by decide +kernel⟩
  have same := isolated calm "acme" "acme" ["merchant"] single priced agree
  revert same
  decide +kernel
-- With the same plans, a customer that two tenants share is enough.
example : (exportTenantData calm single "acme" ["merchant"] "acme").1 ≠
    (exportTenantData calm (joined "ann") "acme" ["merchant"] "acme").1 := by decide +kernel

end Stellabill.TenantExport
