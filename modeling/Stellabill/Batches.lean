import Stellabill.Keyed

/-!
Queries with ORDER BY and LIMIT, and a table that is worked off in batches: each
batch is the answer of one query, and its rows are updated so that they no longer
meet the condition of the query.
-/
namespace Stellabill.Batches
open Keyed List
universe u v w

variable {Row : Type u} {Key : Type v} {Rank : Type w} {key : Row → Key} {t : Table key} {cond : Row → Bool}

/-- What SELECT ... WHERE `cond` ORDER BY `rank` LIMIT `limit` may return; rows of equal rank come in any order. -/
def Selects [LE Rank] (t : Table key) (cond : Row → Bool) (rank : Row → Rank) (limit : Nat) (picked : List Row) : Prop :=
  (picked.map key).Nodup ∧ (∀ r ∈ picked, r ∈ t.rows ∧ cond r = true) ∧ picked.Pairwise (fun r r' => rank r ≤ rank r') ∧
    picked.length = min limit (t.rows.countP cond) ∧
    ∀ r ∈ t.rows, cond r = true → r ∉ picked → ∀ r' ∈ picked, rank r' ≤ rank r

instance [DecidableEq Row] [DecidableEq Key] [LE Rank] [DecidableLE Rank] (t : Table key) (cond : Row → Bool) (rank : Row → Rank)
    (limit : Nat) (picked : List Row) : Decidable (Selects t cond rank limit picked) :=
  inferInstanceAs (Decidable (_ ∧ _))

section
variable [LE Rank] {rank : Row → Rank} {limit : Nat} {picked : List Row} {r : Row}

theorem selects_nonempty (selects : Selects t cond rank limit picked) (positive : 0 < limit) (member : r ∈ t) (meets : cond r = true) :
    ∃ r', r' ∈ picked := by
  have some_ : 0 < t.rows.countP cond := countP_pos_iff.mpr ⟨r,member,meets⟩
  have length := selects.2.2.2.1
  exact exists_mem_of_length_pos (by omega)
theorem mem_of_key_mem (selects : Selects t cond rank limit picked) (member : r ∈ t) (listed : key r ∈ picked.map key) : r ∈ picked := by
  obtain ⟨r',picked',same⟩ := mem_map.mp listed
  rw [← t.eq_of_key (selects.2.1 r' picked').1 member same]
  exact picked'
private theorem countP_map_lt {rows : List Row} {set : Row → Row} (member : r ∈ rows) (meets : cond r = true) (out : cond (set r) = false)
    (fewer : ∀ r' ∈ rows, cond (set r') = true → cond r' = true) : (rows.map set).countP cond < rows.countP cond := by
  obtain ⟨before,after,rfl⟩ := append_of_mem member
  have left : before.countP (cond ∘ set) ≤ before.countP cond :=
    countP_mono_left (fun r' listed => fewer r' (mem_append_left _ listed))
  have right : after.countP (cond ∘ set) ≤ after.countP cond :=
    countP_mono_left (fun r' listed => fewer r' (mem_append_right _ (mem_cons_of_mem _ listed)))
  simp only [countP_map,countP_append,countP_cons,Function.comp_apply,meets,out,if_true]
  simp only [Bool.false_eq_true,if_false]
  omega

variable [DecidableEq Key] {set : Row → Row} {keeps : ∀ r, key (set r) = key r}

def mark (t : Table key) (keys : List Key) (set : Row → Row) (keeps : ∀ r, key (set r) = key r) : Table key :=
  t.update (fun r => key r ∈ keys) set keeps
/-- Successive batches, each updated before the next is selected. -/
inductive Drains (cond : Row → Bool) (rank : Row → Rank) (limit : Nat) (set : Row → Row) (keeps : ∀ r, key (set r) = key r) :
    Table key → List (List Row) → Prop
  | nil {t : Table key} : Drains cond rank limit set keeps t []
  | cons {t : Table key} {picked : List Row} {rest : List (List Row)} (selects : Selects t cond rank limit picked)
    (later : Drains cond rank limit set keeps (mark t (picked.map key) set keeps) rest) :
    Drains cond rank limit set keeps t (picked :: rest)

omit [LE Rank] in
theorem mem_mark {keys : List Key} :
    r ∈ mark t keys set keeps ↔ ∃ r' ∈ t, r = if key r' ∈ keys then set r' else r' := by
  rw [mark,Table.mem_update]
  simp only [decide_eq_true_eq]
/-- A batch that is not empty leaves fewer rows that meet the condition. -/
theorem countP_mark_lt (selects : Selects t cond rank limit picked) (out : ∀ r, cond (set r) = false) (listed : r ∈ picked) :
    (mark t (picked.map key) set keeps).rows.countP cond < t.rows.countP cond := by
  obtain ⟨member,meets⟩ := selects.2.1 r listed
  refine countP_map_lt member meets ?_ ?_
  · simp [mem_map_of_mem listed,out]
  · intro r' _ still
    by_cases hit : key r' ∈ picked.map key
    · simp [hit,out] at still
    · simpa [hit] using still
/-- A row that meets the condition is in one of as many batches as there are such rows. -/
theorem Drains.picks {batches : List (List Row)} (drains : Drains cond rank limit set keeps t batches) (positive : 0 < limit)
    (out : ∀ r, cond (set r) = false) (member : r ∈ t) (meets : cond r = true) (enough : t.rows.countP cond ≤ batches.length) :
    ∃ picked ∈ batches, r ∈ picked := by
  induction drains with
  | nil =>
    have some_ := countP_pos_iff.mpr ⟨r,member,meets⟩
    simp only [length_nil] at enough
    omega
  | @cons t picked rest selects later ih =>
    by_cases listed : r ∈ picked
    · exact ⟨picked,by simp,listed⟩
    · obtain ⟨r',listed'⟩ := selects_nonempty selects positive member meets
      have fewer : (mark t (picked.map key) set keeps).rows.countP cond < t.rows.countP cond :=
        countP_mark_lt selects out listed'
      have miss : key r ∉ picked.map key := fun there => listed (mem_of_key_mem selects member there)
      rw [length_cons] at enough
      obtain ⟨batch,among,found⟩ := ih (mem_mark.mpr ⟨r,member,by simp [miss]⟩) (by omega)
      exact ⟨batch,mem_cons_of_mem _ among,found⟩
/-- Where the limit is zero or no row meets the condition, the batches are empty. -/
theorem drains_nothing (nothing : limit = 0 ∨ ∀ r ∈ t, cond r = false) (count : Nat) :
    Drains cond rank limit set keeps t (List.replicate count []) := by
  induction count generalizing t with
  | zero => exact .nil
  | succ count ih =>
    have zero : min limit (t.rows.countP cond) = 0 := by
      rcases nothing with zero | nothing
      · simp [zero]
      · have none_ : t.rows.countP cond = 0 := countP_eq_zero.mpr (fun r member => by simp [nothing r member])
        simp [none_]
    refine .cons (by simp [Selects,zero]) (ih (nothing.imp_right (fun none_ r member => ?_)))
    obtain ⟨r',member',same⟩ := mem_mark.mp member
    exact same ▸ none_ r' member'
end
end Stellabill.Batches
