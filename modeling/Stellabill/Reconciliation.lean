import Mathlib.Data.List.Induction
import Stellabill.Keyed
import Stellabill.Transitions

/-!
Reconciliation of the subscriptions of the backend with the snapshots of the contract. The
snapshots are entered in a map under the ID of their subscription, so that of several snapshots
with one ID the last in the list stands for all, whoever's it is.
-/
namespace Stellabill.Reconciliation
open Keyed Transitions List

/-- A map of balances, with its entries in the order in which a loop visits them. -/
abbrev Balances := Table (Prod.fst : String × Int → String)
/-- The zero `time.Time`. -/
def zeroTime : Time := -62135596800*1000000000
def day : Int := 24*3600*1000000000

structure Snapshot where
  subscriptionID : String := ""
  tenantID : String := ""
  status : String := ""
  amount : Int := 0
  currency : String := ""
  interval : String := ""
  balances : Balances := Table.empty
  exportedAt : Time := zeroTime
structure BackendSubscription where
  subscriptionID : String
  tenantID : String
  status : String
  amount : Int
  currency : String
  interval : String
  balances : Balances
  updatedAt : Time
structure FieldMismatch where
  field : String
  backendValue : String
  contractValue : String
  deriving DecidableEq
structure Report where
  subscriptionID : String
  tenantID : String
  matched : Bool
  mismatches : List FieldMismatch
  backend : BackendSubscription
  contract : Snapshot

section
/- `utc` renders a time in UTC. -/
variable (utc : Time → String)

/-- What `Compare` finds between a subscription and its snapshot. -/
def mismatches (backend : BackendSubscription) (contract : Snapshot) : List FieldMismatch :=
  (if contract.exportedAt < backend.updatedAt-day then [⟨"snapshot_stale",utc backend.updatedAt,utc contract.exportedAt⟩] else []) ++
  (if backend.status ≠ contract.status then [⟨"status",backend.status,contract.status⟩] else []) ++
  (if backend.amount ≠ contract.amount ∨ backend.currency ≠ contract.currency then
    [⟨"amount",toString backend.amount ++ " " ++ backend.currency,toString contract.amount ++ " " ++ contract.currency⟩] else []) ++
  (if backend.interval ≠ contract.interval then [⟨"interval",backend.interval,contract.interval⟩] else []) ++
  backend.balances.rows.filterMap (fun (k,v) =>
    match contract.balances.find k with
    | some (_,cv) => if v ≠ cv then some ⟨"balances." ++ k,toString v,toString cv⟩ else none
    | none => some ⟨"balances." ++ k,toString v,"missing"⟩) ++
  contract.balances.rows.filterMap (fun (k,cv) =>
    if (backend.balances.find k).isNone then some ⟨"balances." ++ k,"missing",toString cv⟩ else none)

def compare (backend : BackendSubscription) : Option Snapshot → Report
  | none =>
    { subscriptionID := backend.subscriptionID, tenantID := backend.tenantID, matched := false
      mismatches := [⟨"contract_snapshot","present","missing"⟩], backend, contract := {} }
  | some contract =>
    { subscriptionID := backend.subscriptionID, tenantID := backend.tenantID, matched := (mismatches utc backend contract).isEmpty
      mismatches := mismatches utc backend contract, backend, contract }

/-- The map of the snapshots: of all of them, or of those of one tenant. -/
def snapMap (scope : Option String) (snaps : List Snapshot) : Table Snapshot.subscriptionID :=
  snaps.foldl (fun map s => if scope.all (· = s.tenantID) then map.upsert s else map) Table.empty
def reports (scope : Option String) (snaps : List Snapshot) (backendSubs : List BackendSubscription) : List Report :=
  backendSubs.map fun b => compare utc b ((snapMap scope snaps).find b.subscriptionID)
end

variable {utc : Time → String} {scope : Option String} {snaps : List Snapshot} {id : String}

def Entered (scope : Option String) (id : String) (s : Snapshot) : Prop := scope.all (· = s.tenantID) ∧ s.subscriptionID = id
  deriving Decidable

theorem find_snapMap : (snapMap scope snaps).find id = (snaps.filter (Entered scope id)).getLast? := by
  induction snaps using reverseRecOn with
  | nil => rfl
  | append_singleton snaps s ih =>
    simp only [snapMap,foldl_append,foldl_cons,foldl_nil,filter_append] at ih ⊢
    by_cases kept : scope.all (· = s.tenantID)
    · rw [if_pos kept,Table.find_upsert,ih]
      by_cases same : id = s.subscriptionID
      · simp [Entered,kept,same]
      · simp [Entered,same,Ne.symm same]
    · rw [if_neg kept,ih]
      simp [Entered,kept]

/-! ### What is reported -/

def balance (balances : Balances) (k : String) : Option Int := (balances.find k).map Prod.snd
def shown : Option Int → String
  | some v => toString v
  | none => "missing"

private theorem mem_keys {balances : Balances} {k : String} : k ∈ balances.rows.map Prod.fst ↔ balance balances k ≠ none := by
  simp [balance,Table.find_none,Table.mem_def]
theorem balance_of_mem {balances : Balances} {k : String} {v : Int} (member : (k,v) ∈ balances.rows) : balances.find k = some (k,v) :=
  (Table.find_some balances).mpr ⟨member,rfl⟩
theorem filterMap_keys {rows : List (String × Int)} {f : String × Int → Option FieldMismatch} {p : String → Bool}
    {entry : String → FieldMismatch} (each : ∀ k v, (k,v) ∈ rows → f (k,v) = if p k then some (entry k) else none) :
    rows.filterMap f = ((rows.map Prod.fst).filter p).map entry := by
  rw [filter_map,map_map,← filterMap_eq_map,filterMap_filter]
  exact filterMap_congr fun row member => each row.1 row.2 member

/-- The comparison is exact: equal records match, and each difference has one entry. -/
theorem compare_exact (utc : Time → String) (backend : BackendSubscription) (contract : Snapshot) :
    ((compare utc backend (some contract)).matched ↔ backend.updatedAt-day ≤ contract.exportedAt ∧ backend.status = contract.status ∧
      backend.amount = contract.amount ∧ backend.currency = contract.currency ∧ backend.interval = contract.interval ∧
      balance backend.balances = balance contract.balances) ∧
    ∃ keys : List String, keys.Nodup ∧ (∀ k, k ∈ keys ↔ balance backend.balances k ≠ balance contract.balances k) ∧
      (compare utc backend (some contract)).mismatches =
        (if contract.exportedAt < backend.updatedAt-day then [⟨"snapshot_stale",utc backend.updatedAt,utc contract.exportedAt⟩] else []) ++
        (if backend.status ≠ contract.status then [⟨"status",backend.status,contract.status⟩] else []) ++
        (if backend.amount ≠ contract.amount ∨ backend.currency ≠ contract.currency then
          [⟨"amount",toString backend.amount ++ " " ++ backend.currency,toString contract.amount ++ " " ++ contract.currency⟩] else []) ++
        (if backend.interval ≠ contract.interval then [⟨"interval",backend.interval,contract.interval⟩] else []) ++
        keys.map fun k => ⟨"balances." ++ k,shown (balance backend.balances k),shown (balance contract.balances k)⟩ := by
  refine (and_iff_right_of_imp ?_).mpr ⟨(backend.balances.rows.map Prod.fst).filter
    (fun k => balance backend.balances k ≠ balance contract.balances k) ++
    (contract.balances.rows.map Prod.fst).filter (fun k => balance backend.balances k = none),?_,?_,?_⟩
  · rintro ⟨keys,_,differ,is⟩
    have same : keys = [] ↔ balance backend.balances = balance contract.balances := by
      simp [eq_nil_iff_forall_not_mem,differ,funext_iff]
    change (compare utc backend (some contract)).mismatches.isEmpty ↔ _
    simp [is,same,and_assoc]
  · refine nodup_append'.mpr ⟨backend.balances.unique.filter _,contract.balances.unique.filter _,fun k first second => ?_⟩
    simp only [mem_filter,mem_keys,decide_eq_true_eq] at first second
    exact first.1 second.2
  · intro k
    simp only [mem_append,mem_filter,mem_keys,decide_eq_true_eq]
    grind
  · rw [map_append,← append_assoc]
    refine congrArg₂ _ (congrArg _ (filterMap_keys fun k v member => ?_)) (filterMap_keys fun k cv member => ?_)
    · cases found : contract.balances.find k <;> simp [balance,found,balance_of_mem member,shown]
    · cases found : backend.balances.find k <;> simp [balance,found,balance_of_mem member,shown]

private theorem mismatches_found {backend : BackendSubscription} {contract : Snapshot} :
    ∀ m ∈ mismatches utc backend contract, m.field ≠ "contract_snapshot" := by
  have named : ∀ k, "balances." ++ k ≠ "contract_snapshot" := by
    intro k same
    have first := congrArg (fun field => field.toList.head?) same
    simp at first
  intro m member
  simp only [mismatches,mem_append,mem_filterMap] at member
  grind
/-- A report shows which snapshot it was made from. -/
theorem compare_inj {backend : BackendSubscription} {x y : Option Snapshot} (same : compare utc backend x = compare utc backend y) : x = y := by
  have missing : ∀ contract, compare utc backend none ≠ compare utc backend (some contract) := by
    intro contract same
    have only : [⟨"contract_snapshot","present","missing"⟩] = mismatches utc backend contract := congrArg Report.mismatches same
    exact mismatches_found _ (only ▸ mem_singleton_self _) rfl
  cases x with
  | none =>
    cases y with
    | none => rfl
    | some contract => exact absurd same (missing contract)
  | some contract =>
    cases y with
    | none => exact absurd same.symm (missing contract)
    | some contract' => exact congrArg some (congrArg Report.contract same)

/-- The reports are those of each subscription from the snapshots of its own tenant, in any order. -/
def Respected (utc : Time → String) (scope : Option String) (snaps : List Snapshot) (backendSubs : List BackendSubscription) : Prop :=
  reports utc scope snaps backendSubs =
    (backendSubs.map fun b => compare utc b ((snapMap scope (snaps.filter (·.tenantID = b.tenantID))).find b.subscriptionID)) ∧
  ∀ snaps', snaps'.Perm snaps → reports utc scope snaps' backendSubs = reports utc scope snaps backendSubs
/-- There is one snapshot at most for the subscription, and it is one of its tenant. -/
def Single (scope : Option String) (snaps : List Snapshot) (b : BackendSubscription) : Prop :=
  ∀ s ∈ snaps, Entered scope b.subscriptionID s → s.tenantID = b.tenantID ∧ ∀ s' ∈ snaps, Entered scope b.subscriptionID s' → s' = s

theorem mem_entered {s : Snapshot} : s ∈ snaps.filter (Entered scope id) ↔ s ∈ snaps ∧ Entered scope id s := by simp
theorem find_single {snaps' : List Snapshot} (same : ∀ s, Entered scope id s → (s ∈ snaps' ↔ s ∈ snaps))
    (single : ∀ s ∈ snaps, Entered scope id s → ∀ s' ∈ snaps, Entered scope id s' → s' = s) :
    (snapMap scope snaps').find id = (snapMap scope snaps).find id := by
  rw [find_snapMap,find_snapMap]
  cases found : (snaps.filter (Entered scope id)).getLast? with
  | none =>
    simp only [getLast?_eq_none_iff,filter_eq_nil_iff,decide_eq_true_eq] at found ⊢
    exact fun s member entered => found s ((same s entered).mp member) entered
  | some s =>
    obtain ⟨member,entered⟩ := mem_entered.mp (mem_of_getLast? found)
    have kept : s ∈ snaps'.filter (Entered scope id) := mem_entered.mpr ⟨(same s entered).mpr member,entered⟩
    obtain ⟨s',last⟩ := Option.isSome_iff_exists.mp (getLast?_isSome.mpr (ne_nil_of_mem kept))
    obtain ⟨member',entered'⟩ := mem_entered.mp (mem_of_getLast? last)
    rw [last,single s member entered s' ((same s' entered').mp member') entered']

/-- Reconciliation respects the tenants exactly where each subscription has at most one snapshot, of its own tenant. -/
theorem respected_iff (utc : Time → String) (scope : Option String) (snaps : List Snapshot) (backendSubs : List BackendSubscription) :
    Respected utc scope snaps backendSubs ↔ ∀ b ∈ backendSubs, Single scope snaps b := by
  simp only [Respected,reports,map_inj_left]
  constructor
  · rintro ⟨own,ordered⟩ b among
    have stands : ∀ s ∈ snaps, Entered scope b.subscriptionID s → (snapMap scope snaps).find b.subscriptionID = some s := by
      intro s member entered
      obtain ⟨front,back,rfl⟩ := append_of_mem member
      have moved : (front ++ (back ++ [s])).Perm (front ++ s :: back) := (perm_append_singleton s back).append_left front
      rw [← compare_inj (ordered _ moved b among),find_snapMap]
      simp [filter_append,entered]
    intro s member entered
    have its := stands s member entered
    refine ⟨?_,fun s' member' entered' => Option.some.inj ((stands s' member' entered').symm.trans its)⟩
    rw [compare_inj (own b among),find_snapMap] at its
    have listed := (mem_entered.mp (mem_of_getLast? its)).1
    simpa using (mem_filter.mp listed).2
  · intro single
    have unique : ∀ b ∈ backendSubs, ∀ s ∈ snaps, Entered scope b.subscriptionID s → ∀ s' ∈ snaps,
        Entered scope b.subscriptionID s' → s' = s := fun b among s member entered => (single b among s member entered).2
    refine ⟨fun b among => ?_,fun snaps' moved b among => ?_⟩
    · refine (congrArg (compare utc b) (find_single (fun s entered => ?_) (unique b among))).symm
      exact ⟨fun kept => (mem_filter.mp kept).1,fun member => mem_filter.mpr ⟨member,by simpa using (single b among s member entered).1⟩⟩
    · rw [find_single (fun s _ => moved.mem_iff) (unique b among)]

/-- The snapshot of another tenant with the ID stands for that of the tenant. -/
theorem snapshot_foreign : ¬ Respected toString none
    [{ subscriptionID := "sub-1", tenantID := "acme" },{ subscriptionID := "sub-1", tenantID := "globex" }]
    [⟨"sub-1","acme","",0,"","",Table.empty,0⟩] := by
  rintro ⟨own,_⟩
  have tenants := congrArg (List.map (fun report => report.contract.tenantID)) own
  exact absurd tenants (by decide)

end Stellabill.Reconciliation
