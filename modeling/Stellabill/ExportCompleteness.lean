import Stellabill.TenantExport

/-!
Which statements an export misses. `ExportTenantData` asks for one page of each
customer's statements and does not look at the total that the repository reports
with it, and it passes over subscriptions without a customer.
-/
namespace Stellabill.ExportCompleteness
open Keyed Parsing TenantExport List
open Subscriptions (SubscriptionRow)

/-- The statements of a customer, in the order in which they are listed. -/
def statementsOf (db : Database) (customerID : String) : List StatementRow :=
  db.statements.rows.filter (fun row => row.customerID = customerID)
/-- Every undeleted statement of a customer with a subscription in the tenant is in the archive once. -/
def Complete (db : Database) (tenantID : String) (archive : Archive) : Prop :=
  ∀ sub ∈ listByTenant db tenantID, ∀ row ∈ statementsOf db sub.customerID, row.deletedAt = none → archive.statements.count row = 1

def asked (customerID : String) : Nat := if customerID = "" then 0 else 1000
/-- Beyond what is asked for there are only deleted statements. -/
def OnlyDeletedLeft (db : Database) (tenantID : String) : Prop :=
  ∀ sub ∈ listByTenant db tenantID, ∀ row ∈ (statementsOf db sub.customerID).drop (asked sub.customerID), row.deletedAt ≠ none

section
variable {env : Surroundings} {db : Database} {callerID tenantID customerID : String} {roles : List String} {archive : Archive}
  {row : StatementRow}

theorem nodup_statementsOf (db : Database) (customerID : String) : (statementsOf db customerID).Nodup :=
  db.statements.unique.of_map.filter _
theorem mem_statementsOf : row ∈ statementsOf db customerID ↔ row ∈ db.statements.rows ∧ row.customerID = customerID := by
  simp [statementsOf]
private theorem selected_exportQuery (customerID : String) (row : StatementRow) :
    selected customerID exportQuery row = decide (row.customerID = customerID) := by
  simp [selected,exportQuery]
private theorem listByCustomerID_export : listByCustomerID db customerID exportQuery = (statementsOf db customerID).take 1000 := by
  have same : selected customerID exportQuery = fun row => decide (row.customerID = customerID) :=
    funext (selected_exportQuery customerID)
  rw [listByCustomerID,same]
  rfl
private theorem mem_customersOf {subs : List SubscriptionRow} {sub : SubscriptionRow} (listed : sub ∈ subs) :
    sub.customerID ∈ customersOf subs ↔ sub.customerID ≠ "" := by
  simp only [customersOf,mem_dedup,mem_filter,decide_eq_true_eq]
  exact and_iff_right (mem_map_of_mem listed)
theorem count_archive (ok : collect env db callerID roles tenantID = .ok archive) {sub : SubscriptionRow}
    (listed : sub ∈ listByTenant db tenantID) (own : row.customerID = sub.customerID) :
    archive.statements.count row = ((statementsOf db sub.customerID).take (asked sub.customerID)).count row := by
  by_cases anonymous : sub.customerID = ""
  · rw [asked,if_pos anonymous,take_zero,count_nil,count_eq_zero,collect_ok ok]
    intro member
    obtain ⟨customerID,customer,member⟩ := mem_flatMap.mp member
    have same := listByCustomerID_customer member
    rw [← same,own] at customer
    exact (mem_customersOf listed).mp (mem_order.mp customer) anonymous
  · have page := archive_statements ok ((mem_customersOf listed).mpr anonymous)
    rw [listByCustomerID_export] at page
    rw [asked,if_neg anonymous,← page,count_filter (by simpa using own)]
private theorem count_take_eq_one {α : Type} [DecidableEq α] {l : List α} (distinct : l.Nodup) {a : α} (member : a ∈ l) (n : Nat) :
    (l.take n).count a = 1 ↔ a ∉ l.drop n := by
  have once : (l.take n).count a + (l.drop n).count a = 1 := by
    rw [← count_append,take_append_drop]
    exact count_eq_one_of_mem distinct member
  rw [← count_eq_zero]
  omega
theorem complete_collected (ok : collect env db callerID roles tenantID = .ok archive) :
    Complete db tenantID archive ↔ OnlyDeletedLeft db tenantID := by
  have once : ∀ sub ∈ listByTenant db tenantID, ∀ row ∈ statementsOf db sub.customerID,
      archive.statements.count row = 1 ↔ row ∉ (statementsOf db sub.customerID).drop (asked sub.customerID) := by
    intro sub listed row member
    rw [count_archive ok listed (mem_statementsOf.mp member).2]
    exact count_take_eq_one (nodup_statementsOf db _) member _
  constructor
  · intro complete sub listed row left alive
    have member := mem_of_mem_drop left
    exact (once sub listed row member).mp (complete sub listed row member alive) left
  · intro deleted sub listed row member alive
    exact (once sub listed row member).mpr (fun left => deleted sub listed row left alive)

/-- A successful export is complete exactly when all statements beyond a customer's first thousand, and those of
    subscriptions without a customer, are deleted. -/
theorem complete_iff {upload : Upload} {result : TenantExportResult}
    (exported : exportTenantData env db callerID roles tenantID = (some upload,.ok result)) :
    Complete db tenantID upload.archive ↔ OnlyDeletedLeft db tenantID := by
  obtain ⟨archive,collected,rfl⟩ := exportTenantData_upload (congrArg Prod.fst exported)
  exact complete_collected collected
end

private theorem fetchStatements_calm (customers : List String) :
    fetchStatements calm db customers = .ok (customers.flatMap (fun customerID => listByCustomerID db customerID exportQuery)) := by
  induction customers with
  | nil => rfl
  | cons customerID rest ih =>
    rw [fetchStatements,ih]
    rfl
theorem exported_calm (db : Database) : ∃ upload result, exportTenantData calm db "acme" ["merchant"] "acme" = (some upload,.ok result) := by
  have collected : ∃ archive, collect calm db "acme" ["merchant"] "acme" = .ok archive := by
    refine ⟨⟨listPlans .memory db,listByTenant db "acme",(customersOf (listByTenant db "acme")).flatMap
      (fun customerID => listByCustomerID db customerID exportQuery)⟩,?_⟩
    show (fetchStatements calm db (calm.order (customersOf (listByTenant db "acme"))) >>= _) = _
    rw [fetchStatements_calm]
    rfl
  obtain ⟨archive,collected⟩ := collected
  rw [exportTenantData,collected]
  exact ⟨_,_,rfl⟩
theorem complete_iff_single : ∃ upload result, exportTenantData calm single "acme" ["merchant"] "acme" = (some upload,.ok result) ∧
    Complete single "acme" upload.archive := by
  obtain ⟨upload,result,exported⟩ := exported_calm single
  refine ⟨upload,result,exported,(complete_iff exported).mpr ?_⟩
  intro sub listed row left
  obtain rfl : sub = subscriptionOf "sub-1" "acme" "ann" := mem_singleton.mp (mem_of_mem_filter listed)
  have none : (statementsOf single "ann").drop 1000 = [] := by decide +kernel
  exact absurd left (none ▸ not_mem_nil)

def crowded (ids : List String) (distinct : ids.Nodup) : Database where
  plans := single.plans
  subscriptions := single.subscriptions
  statements := ⟨ids.map (fun id => statementOf id "acme" "sub-1" "ann"),by
    rw [map_map]
    exact (map_id ids).symm ▸ distinct⟩
theorem statementsOf_crowded (ids : List String) (distinct : ids.Nodup) :
    statementsOf (crowded ids distinct) "ann" = ids.map (fun id => statementOf id "acme" "sub-1" "ann") := by
  refine filter_eq_self.mpr ?_
  intro row member
  obtain ⟨id,_,rfl⟩ := mem_map.mp member
  rfl
def manyIDs (count : Nat) : List String := (List.range count).map (fun n => String.ofList (List.replicate n 's'))
private theorem nodup_manyIDs (count : Nat) : (manyIDs count).Nodup := by
  refine nodup_range.map fun n m same => ?_
  have size := congrArg (fun id : String => id.toList.length) same
  simpa using size
/-- The last one of 1001 statements is not in the archive. -/
theorem statement_missed : ¬ ∀ (env : Surroundings) (db : Database) (callerID : String) (roles : List String) (tenantID : String)
    (upload : Upload) (result : TenantExportResult),
    exportTenantData env db callerID roles tenantID = (some upload,.ok result) → Complete db tenantID upload.archive := by
  intro complete
  obtain ⟨upload,result,exported⟩ := exported_calm (crowded (manyIDs 1001) (nodup_manyIDs 1001))
  obtain ⟨archive,collected,rfl⟩ := exportTenantData_upload (congrArg Prod.fst exported)
  have deleted := (complete_collected collected).mp (complete calm _ "acme" ["merchant"] "acme" _ result exported)
  have left : 0 < ((statementsOf (crowded (manyIDs 1001) (nodup_manyIDs 1001)) "ann").drop 1000).length := by
    rw [statementsOf_crowded,length_drop,length_map,manyIDs,length_map,length_range]
    decide
  obtain ⟨row,member⟩ := exists_mem_of_length_pos left
  have alive : row.deletedAt = none := by
    have all := mem_of_mem_drop member
    rw [statementsOf_crowded] at all
    obtain ⟨id,_,rfl⟩ := mem_map.mp all
    rfl
  exact deleted (subscriptionOf "sub-1" "acme" "ann") mem_cons_self row member alive

end Stellabill.ExportCompleteness
