import Stellabill.TenantExport

/-!
The service for billing statements. `GetDetail` decides about one statement, by its
subscription and its customer; `ListByCustomer` decides about the customer that is
asked for, and lets every merchant pass.
-/
namespace Stellabill.StatementService
open Keyed Transitions TenantExport
open Subscriptions (SubscriptionRow)

/-- The repositories with the errors they meet, and `timeutil.NormalizeRFC3339StringToUTC`. -/
structure Service where
  db : Database
  findError : String → Option String
  listError : Option String
  subscriptionError : String → Option String
  normalize : String → Except String String

/-- `ErrNotFound`, `ErrDeleted` and `ErrForbidden` of the service, and the errors of the repository. -/
inductive ServiceError
  | notFound | deleted | forbidden | repository (message : String)
  deriving DecidableEq

structure StatementDetail where
  id : String
  subscriptionID : String
  customer : String
  periodStart : String
  periodEnd : String
  issuedAt : String
  totalAmount : String
  currency : String
  kind : String
  status : String
  deriving DecidableEq

def normalizeRFC3339OrKeep (svc : Service) (raw : String) : String :=
  match svc.normalize raw with
  | .ok normalized => normalized
  | .error _ => raw
def detailOf (svc : Service) (row : StatementRow) : StatementDetail where
  id := row.id
  subscriptionID := row.subscriptionID
  customer := row.customerID
  periodStart := normalizeRFC3339OrKeep svc row.periodStart
  periodEnd := normalizeRFC3339OrKeep svc row.periodEnd
  issuedAt := normalizeRFC3339OrKeep svc row.issuedAt
  totalAmount := row.totalAmount
  currency := row.currency
  kind := row.kind
  status := row.status

def findByID (svc : Service) (id : String) : Except ServiceError StatementRow :=
  match svc.findError id with
  | some message => .error (.repository message)
  | none =>
    match svc.db.statements.find id with
    | some row => .ok row
    | none => .error .notFound
/-- `FindByID` of the subscriptions; the caller does not tell its errors apart. -/
def findSubscription (svc : Service) (id : String) : Option SubscriptionRow :=
  match svc.subscriptionError id with
  | some _ => none
  | none => Subscriptions.findByID svc.db.subscriptions id

/-- The loop over the roles: whether one is "admin", and whether one before it is "merchant". -/
def roleFlags (isMerchant : Bool) : List String → Bool × Bool
  | [] => (false,isMerchant)
  | role :: rest => if role = "admin" then (true,isMerchant) else roleFlags (isMerchant || role = "merchant") rest
section
variable (svc : Service) (callerID : String) (roles : List String)
def mayRead (row : StatementRow) : Bool :=
  let (isAdmin,isMerchant) := roleFlags false roles
  if isAdmin then true
  else if isMerchant then
    match findSubscription svc row.subscriptionID with
    | some sub => sub.tenantID = callerID
    | none => false
  else callerID = row.customerID
def mayList (callerID : String) (roles : List String) (customerID : String) : Bool :=
  let (isAdmin,isMerchant) := roleFlags false roles
  if isAdmin then true
  else if isMerchant then true
  else callerID = customerID

def getDetail (statementID : String) : Except ServiceError StatementDetail := do
  let row ← findByID svc statementID
  if row.deletedAt ≠ none then .error .deleted
  else if mayRead svc callerID roles row then .ok (detailOf svc row)
  else .error .forbidden
/-- `ListByCustomer`: the details and the number of all rows that match. -/
def listByCustomer (customerID : String) (q : StatementQuery) :
    Except ServiceError (List StatementDetail × Nat) :=
  if mayList callerID roles customerID then
    match svc.listError with
    | some message => .error (.repository message)
    | none => .ok ((listByCustomerID svc.db customerID q).map (detailOf svc),(svc.db.statements.rows.filter (selected customerID q)).length)
  else .error .forbidden
end

section
variable {svc : Service} {callerID customerID statementID : String} {roles : List String} {q : StatementQuery} {row : StatementRow}

theorem roleFlags_admin (isMerchant : Bool) (roles : List String) : (roleFlags isMerchant roles).1 = true ↔ "admin" ∈ roles := by
  induction roles generalizing isMerchant with
  | nil => simp [roleFlags]
  | cons role rest ih =>
    rw [roleFlags,List.mem_cons]
    split
    · rename_i admin
      simp [admin]
    · rename_i other
      rw [ih,or_iff_right (Ne.symm other)]
theorem roleFlags_merchant {isMerchant : Bool} {roles : List String} (admin : "admin" ∉ roles) :
    (roleFlags isMerchant roles).2 = true ↔ isMerchant = true ∨ "merchant" ∈ roles := by
  induction roles generalizing isMerchant with
  | nil => simp [roleFlags]
  | cons role rest ih =>
    obtain ⟨other,later⟩ := not_or.mp (mt List.mem_cons.mpr admin)
    rw [roleFlags,if_neg (Ne.symm other),ih later,Bool.or_eq_true,decide_eq_true_eq,List.mem_cons,or_assoc,eq_comm (a := role)]

def OfTenant (svc : Service) (tenantID : String) (row : StatementRow) : Prop :=
  ∃ sub, findSubscription svc row.subscriptionID = some sub ∧ sub.tenantID = tenantID
/-- Who has access: an administrator, the merchant of the subscription, or the customer. -/
def Access (svc : Service) (callerID : String) (roles : List String) (row : StatementRow) : Prop :=
  "admin" ∈ roles ∨ ("merchant" ∈ roles ∧ OfTenant svc callerID row) ∨ ("merchant" ∉ roles ∧ callerID = row.customerID)
theorem mayRead_iff : mayRead svc callerID roles row = true ↔ Access svc callerID roles row := by
  rw [Access]
  by_cases admin : "admin" ∈ roles
  · simp [mayRead,(roleFlags_admin false roles).mpr admin,admin]
  · have plain : (roleFlags false roles).1 = false := by
      rw [← Bool.not_eq_true,roleFlags_admin]
      exact admin
    by_cases merchant : "merchant" ∈ roles
    · have flagged : (roleFlags false roles).2 = true := (roleFlags_merchant admin).mpr (.inr merchant)
      cases found : findSubscription svc row.subscriptionID <;> simp [mayRead,plain,flagged,found,admin,merchant,OfTenant]
    · have unflagged : (roleFlags false roles).2 = false := by
        rw [← Bool.not_eq_true,roleFlags_merchant admin]
        simpa using merchant
      simp [mayRead,plain,unflagged,admin,merchant]
theorem mayList_iff : mayList callerID roles customerID = true ↔ "admin" ∈ roles ∨ "merchant" ∈ roles ∨ callerID = customerID := by
  by_cases admin : "admin" ∈ roles
  · simp [mayList,(roleFlags_admin false roles).mpr admin,admin]
  · have plain : (roleFlags false roles).1 = false := by
      rw [← Bool.not_eq_true,roleFlags_admin]
      exact admin
    have flagged : (roleFlags false roles).2 = true ↔ _ := roleFlags_merchant admin
    cases flag : (roleFlags false roles).2 <;> simp_all [mayList]

/-! ### Lists and details -/

/-- What is listed is returned by `GetDetail` as well, with the same caller and roles. -/
def Agrees (svc : Service) (callerID : String) (roles : List String) (customerID : String) (q : StatementQuery) : Prop :=
  ∀ listed count, listByCustomer svc callerID roles customerID q = .ok (listed,count) →
    ∀ detail ∈ listed, getDetail svc callerID roles detail.id = .ok detail

/-- A listed statement that `GetDetail` returns: it is found, not deleted, and a merchant has its subscription. -/
structure Opens (svc : Service) (callerID : String) (roles : List String) (row : StatementRow) : Prop where
  found : svc.findError row.id = none
  kept : row.deletedAt = none
  permitted : "admin" ∈ roles ∨ "merchant" ∉ roles ∨ OfTenant svc callerID row

private theorem findByID_row (member : row ∈ svc.db.statements) : findByID svc row.id =
    match svc.findError row.id with
    | some message => .error (.repository message)
    | none => .ok row := by
  rw [findByID,svc.db.statements.find_some.mpr ⟨member,rfl⟩]
theorem getDetail_iff (member : row ∈ svc.db.statements) : getDetail svc callerID roles row.id = .ok (detailOf svc row) ↔
    svc.findError row.id = none ∧ row.deletedAt = none ∧ mayRead svc callerID roles row = true := by
  rw [getDetail,findByID_row member]
  cases svc.findError row.id with
  | some message => simp [bind,Except.bind]
  | none =>
    simp only [bind,Except.bind]
    split_ifs with gone readable <;> simp_all
/-- The listing shows a statement that its caller may read by its ID exactly when it is one of these. -/
theorem opens_iff (allowed : mayList callerID roles customerID = true) (listed : row ∈ listByCustomerID svc.db customerID q) :
    getDetail svc callerID roles row.id = .ok (detailOf svc row) ↔ Opens svc callerID roles row := by
  have member : row ∈ svc.db.statements := List.mem_of_mem_filter (List.mem_of_mem_take listed)
  have own := listByCustomerID_customer listed
  rw [mayList_iff] at allowed
  rw [getDetail_iff member,mayRead_iff,Access]
  constructor
  · rintro ⟨found,kept,readable⟩
    exact ⟨found,kept,by tauto⟩
  · rintro ⟨found,kept,permitted⟩
    subst own
    exact ⟨found,kept,by tauto⟩
private theorem listByCustomer_ok (allowed : mayList callerID roles customerID = true) (answered : svc.listError = none) :
    listByCustomer svc callerID roles customerID q =
      .ok ((listByCustomerID svc.db customerID q).map (detailOf svc),(svc.db.statements.rows.filter (selected customerID q)).length) := by
  rw [listByCustomer,if_pos allowed,answered]
/-- List and detail agree exactly when every listed statement is one of these. -/
theorem listed_returned_iff (svc : Service) (callerID : String) (roles : List String) (customerID : String) (q : StatementQuery) :
    Agrees svc callerID roles customerID q ↔ (mayList callerID roles customerID = true → svc.listError = none →
      ∀ row ∈ listByCustomerID svc.db customerID q, Opens svc callerID roles row) := by
  constructor
  · intro agrees allowed answered row listed
    have made := listByCustomer_ok (q := q) allowed answered
    exact (opens_iff allowed listed).mp (agrees _ _ made _ (List.mem_map_of_mem listed))
  · intro opens listed count made detail member
    by_cases allowed : mayList callerID roles customerID = true
    · cases answered : svc.listError with
      | some message => simp [listByCustomer,allowed,answered] at made
      | none =>
        rw [listByCustomer_ok allowed answered] at made
        obtain ⟨rfl,_⟩ := Prod.mk.inj (Except.ok.inj made)
        obtain ⟨row,listed,rfl⟩ := List.mem_map.mp member
        exact (opens_iff allowed listed).mpr (opens allowed answered row listed)
    · rw [listByCustomer,if_neg allowed] at made
      cases made
end

def serving (db : Database) : Service := ⟨db,fun _ => none,none,fun _ => none,.ok⟩
def anyQuery : StatementQuery := ⟨"","","","","",10⟩
/-- The merchant of another tenant gets a statement in the list that it may not read. -/
theorem listed_refused : ¬ ∀ svc callerID roles customerID q, Agrees svc callerID roles customerID q := by
  intro agrees
  have refused := agrees (serving single) "globex" ["merchant"] "ann" anyQuery
    [detailOf (serving single) (statementOf "st-1" "acme" "sub-1" "ann")] 1 (by decide +kernel) _ List.mem_cons_self
  revert refused
  decide +kernel
def removed : Database :=
  { single with statements := ⟨[{ statementOf "st-1" "acme" "sub-1" "ann" with deletedAt := some 0 }],by decide⟩ }
-- So does the customer whose statement is deleted.
example : (listByCustomer (serving removed) "ann" [] "ann" anyQuery).map (·.1.length) = .ok 1 ∧
    getDetail (serving removed) "ann" [] "st-1" = .error .deleted := by decide +kernel

end Stellabill.StatementService
