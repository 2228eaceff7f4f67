import Stellabill.Idempotency
import Stellabill.Joins

/-!
Which requests share an entry of the idempotency store. The address of an entry is the
tenant, the caller and the key joined with separators that may occur in the strings.
-/
namespace Stellabill.IdempotencyScopes
open ByteStrings Idempotency Joins

def Usable (key : String) : Prop := key ≠ "" ∧ ¬ key.utf8ByteSize > 255

/-- The address has no second way to be divided that leaves a usable key, and no identity is the word for a missing one. -/
def Unambiguous (r : Request) : Prop :=
  match r.tenantID, r.callerID with
  | some tenantID, some callerID =>
    tenantID ≠ "anonymous" ∧ callerID ≠ "anonymous" ∧
    (∀ a b, tenantID ≠ a ++ ":" ++ b) ∧ (∀ a b, callerID ≠ a ++ ":" ++ b) ∧
    (∀ a b, callerID = a ++ "/" ++ b → ¬ Usable (b ++ "/" ++ r.key)) ∧
    (∀ a b, r.key = a ++ "/" ++ b → ¬ Usable b) ∧
    ∀ a, tenantID = "anonymous/" ++ a → ¬ Usable (a ++ ":" ++ callerID ++ "/" ++ r.key)
  | none, none => ∀ a b c, r.key = a ++ ":" ++ b ++ "/" ++ c → ¬ Usable c
  | _, _ => False

/-- The requests agree in all that identifies them. -/
structure Same (q r : Request) : Prop where
  tenantID : q.tenantID = r.tenantID
  callerID : q.callerID = r.callerID
  key : q.key = r.key

variable {hash : Bytes → String} {r q : Request} {call : Call}

theorem begin_checking (uses : begin hash r = .checking call) : Usable r.key ∧ call.mapKey = mapKey r.scope r.key := by
  revert uses
  fun_cases begin hash r
  all_goals intro uses; cases uses
  next given short _ _ => exact ⟨⟨given,short⟩,rfl⟩
def posted (tenantID callerID : Option String) (key : String) : Request := ⟨"POST","/",key,tenantID,callerID,.ok []⟩

theorem posted_checking (hash : Bytes → String) {tenantID callerID : Option String} {key : String} (usable : Usable key) :
    ∃ call, begin hash (posted tenantID callerID key) = .checking call ∧
      call.mapKey = mapKey (posted tenantID callerID key).scope key := by
  simp only [begin,posted,usable.1,usable.2]
  exact ⟨_,by rfl,rfl⟩
private theorem scope_eq (given : ¬ (r.tenantID = none ∧ r.callerID = none)) :
    r.scope = r.tenantID.getD "anonymous" ++ ":" ++ r.callerID.getD "anonymous" := by
  unfold Request.scope
  cases tenant : r.tenantID <;> cases caller : r.callerID <;> simp_all [String.append_assoc]
theorem slash : "/" = String.singleton '/' := rfl
theorem colon : ":" = String.singleton ':' := rfl
theorem anonymous_iff {key tenantID callerID other : String} : tenantID ++ ":" ++ callerID ++ "/" ++ other = "anonymous" ++ "/" ++ key ↔
      ∃ u, tenantID = "anonymous/" ++ u ∧ key = u ++ ":" ++ callerID ++ "/" ++ other := by
  have split := join_eq_append (a := tenantID) (b := callerID ++ "/" ++ other) (d := key) colon
    (free_of_not_mem (a := "anonymous/") colon (by decide))
  rw [show "anonymous" ++ "/" = "anonymous/" from rfl]
  simpa only [String.append_assoc] using split
private theorem address_cases {tenantID callerID key t c k : String} (tenantFree : ∀ a b, tenantID ≠ a ++ ":" ++ b)
    (callerFree : ∀ a b, callerID ≠ a ++ ":" ++ b) (same : t ++ ":" ++ c ++ "/" ++ k = tenantID ++ ":" ++ callerID ++ "/" ++ key) :
    (t = tenantID ∧ c = callerID ∧ k = key) ∨ (∃ u, callerID = c ++ "/" ++ u ∧ k = u ++ "/" ++ key) ∨ ∃ u, key = u ++ "/" ++ k := by
  -- a second colon before the slash would be one of an identity
  have colons : ∀ rest, t ++ ":" ++ rest = tenantID ++ ":" ++ callerID → t = tenantID ∧ rest = callerID := by
    intro rest joined
    rcases (join_eq_iff colon).mp joined with equal | ⟨u,_,within⟩ | ⟨u,within,_⟩
    · exact equal
    · exact absurd within (callerFree u rest)
    · exact absurd within (tenantFree t u)
  rcases (join_eq_iff slash).mp same with ⟨joined,equal⟩ | ⟨u,_,within⟩ | ⟨u,joined,runs⟩
  · exact .inl ⟨(colons c joined).1,(colons c joined).2,equal⟩
  · exact .inr (.inr ⟨u,within⟩)
  · obtain ⟨_,within⟩ := colons (c ++ "/" ++ u) (by simpa only [String.append_assoc] using joined.symm)
    exact .inr (.inl ⟨u,within.symm,runs⟩)

private theorem same_of_unambiguous (unambiguous : Unambiguous r) (usable : Usable q.key)
    (shared : mapKey q.scope q.key = mapKey r.scope r.key) : Same q r := by
  unfold Unambiguous at unambiguous
  split at unambiguous
  · next tenantID callerID tenant caller =>
    obtain ⟨named,known,tenantFree,callerFree,callerSlash,keySlash,missing⟩ := unambiguous
    have scope : r.scope = tenantID ++ ":" ++ callerID := by simp [Request.scope,tenant,caller]
    rw [scope] at shared
    by_cases absent : q.tenantID = none ∧ q.callerID = none
    · rw [show q.scope = "anonymous" by simp [Request.scope,absent]] at shared
      obtain ⟨u,begins,rest⟩ := anonymous_iff.mp shared.symm
      exact absurd (rest ▸ usable) (missing u begins)
    · rw [scope_eq absent] at shared
      rcases address_cases tenantFree callerFree shared with ⟨rfl,rfl,equal⟩ | ⟨u,within,rest⟩ | ⟨u,within⟩
      · refine ⟨?_,?_,equal⟩
        · cases own : q.tenantID <;> simp_all
        · cases own : q.callerID <;> simp_all
      · exact absurd (rest ▸ usable) (callerSlash _ u within)
      · exact absurd usable (keySlash u _ within)
  · next tenant caller =>
    rw [mapKey,mapKey,show r.scope = "anonymous" by simp [Request.scope,tenant,caller]] at shared
    by_cases absent : q.tenantID = none ∧ q.callerID = none
    · rw [show q.scope = "anonymous" by simp [Request.scope,absent]] at shared
      exact ⟨by rw [absent.1,tenant],by rw [absent.2,caller],by simpa using shared⟩
    · rw [scope_eq absent] at shared
      obtain ⟨u,_,rest⟩ := anonymous_iff.mp shared
      exact absurd usable (unambiguous u _ _ rest)
  · exact unambiguous.elim

private theorem unambiguous_of_own (usable : Usable r.key)
    (own : ∀ tenantID callerID key, Usable key → mapKey (posted tenantID callerID key).scope key = mapKey r.scope r.key →
      tenantID = r.tenantID ∧ callerID = r.callerID) : Unambiguous r := by
  unfold Unambiguous
  simp only [mapKey,Request.scope,posted] at own
  cases tenant : r.tenantID with
  | none =>
    cases caller : r.callerID with
    | none =>
      simp only [tenant,caller] at own
      intro a b c divided good
      cases (own (some ("anonymous/" ++ a)) (some b) c good (anonymous_iff.mpr ⟨a,rfl,divided⟩)).1
    | some callerID =>
      simp only [tenant,caller] at own
      cases (own (some "anonymous") (some callerID) r.key usable (by simp [String.append_assoc])).1
  | some tenantID =>
    cases caller : r.callerID with
    | none =>
      simp only [tenant,caller] at own
      cases (own (some tenantID) (some "anonymous") r.key usable (by simp [String.append_assoc])).2
    | some callerID =>
      simp only [tenant,caller] at own
      refine ⟨?_,?_,?_,?_,?_,?_,?_⟩
      · rintro rfl
        cases (own none (some callerID) r.key usable (by simp [String.append_assoc])).1
      · rintro rfl
        cases (own (some tenantID) none r.key usable (by simp [String.append_assoc])).2
      · rintro a b rfl
        have same := (own (some a) (some (b ++ ":" ++ callerID)) r.key usable (by simp [String.append_assoc])).1
        exact ne_join colon (Option.some.inj same)
      · rintro a b rfl
        have same := (own (some (tenantID ++ ":" ++ a)) (some b) r.key usable (by simp [String.append_assoc])).1
        exact ne_join colon (Option.some.inj same).symm
      · rintro a b rfl good
        have same := (own (some tenantID) (some a) (b ++ "/" ++ r.key) good (by simp [String.append_assoc])).2
        exact ne_join slash (Option.some.inj same)
      · rintro a b divided good
        have same := (own (some tenantID) (some (callerID ++ "/" ++ a)) b good (by simp [divided,String.append_assoc])).2
        exact ne_join slash (Option.some.inj same).symm
      · rintro a rfl good
        cases (own none none _ good (anonymous_iff.mpr ⟨a,rfl,rfl⟩).symm).1

/-- The entry of a request is used by no other tenant, caller or key exactly where its address is unambiguous. -/
theorem entry_own_iff (uses : begin hash r = .checking call) :
    (∀ q other, begin hash q = .checking other → other.mapKey = call.mapKey → Same q r) ↔ Unambiguous r := by
  obtain ⟨usable,address⟩ := begin_checking uses
  constructor
  · intro own
    refine unambiguous_of_own usable ?_
    intro tenantID callerID key good shared
    obtain ⟨other,reaches,at_⟩ := posted_checking hash good
    have same := own _ other reaches (by rw [at_,shared,address])
    exact ⟨same.tenantID,same.callerID⟩
  · intro unambiguous q other reaches shared
    obtain ⟨good,at_⟩ := begin_checking reaches
    exact same_of_unambiguous unambiguous good (by rw [← at_,shared,address])
/-- The entry of a caller of a tenant, under a key without separators, is their own. -/
theorem entry_own_plain : begin (fun _ => "") (posted (some "acme") (some "ann") "k1") = .checking ⟨"acme:ann","k1","POST","/",""⟩ ∧
    ∀ q other, begin (fun _ => "") q = .checking other → other.mapKey = mapKey "acme:ann" "k1" →
      Same q (posted (some "acme") (some "ann") "k1") := by
  have reaches : begin (fun _ => "") (posted (some "acme") (some "ann") "k1") = .checking ⟨"acme:ann","k1","POST","/",""⟩ := rfl
  refine ⟨reaches,(entry_own_iff reaches).mpr ?_⟩
  refine ⟨by decide,by decide,free_of_not_mem colon (by decide),free_of_not_mem colon (by decide),?_,?_,?_⟩
  · exact fun a b divided => absurd divided (free_of_not_mem slash (by decide) a b)
  · exact fun a b divided => absurd divided (free_of_not_mem slash (by decide) a b)
  · intro a begins
    have long := congrArg String.length begins
    rw [String.length_append,show "acme".length = 4 by decide,show "anonymous/".length = 10 by decide] at long
    omega
/-- Caller `b:c` of tenant `a` and caller `c` of tenant `a:b` share their entries. -/
theorem entry_shared : (posted (some "a") (some "b:c") "k").tenantID ≠ (posted (some "a:b") (some "c") "k").tenantID ∧
    begin (fun _ => "") (posted (some "a") (some "b:c") "k") = .checking ⟨"a:b:c","k","POST","/",""⟩ ∧
    begin (fun _ => "") (posted (some "a:b") (some "c") "k") = .checking ⟨"a:b:c","k","POST","/",""⟩ := by
  refine ⟨by decide,rfl,rfl⟩

end Stellabill.IdempotencyScopes
