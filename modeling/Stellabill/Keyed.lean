import Mathlib.Data.List.Nodup
import Mathlib.Data.List.Perm.Basic

/-!
Tables of rows with a primary key: a list of rows in which no two rows have the
same key. The uniqueness of the key is part of the type, so that a statement can
insert, update and delete rows but never build a table with a duplicate key.
-/
namespace Stellabill.Keyed
open List
universe u v

variable {Row : Type u} {Key : Type v} {key : Row → Key}

/-- Rows, no two of which have the same key. -/
structure Table (key : Row → Key) where
  rows : List Row
  unique : (rows.map key).Nodup

instance : Membership Row (Table key) := ⟨fun t r => r ∈ t.rows⟩

namespace Table

theorem mem_def (t : Table key) (r : Row) : r ∈ t ↔ r ∈ t.rows := Iff.rfl

variable {r : Row} {t : Table key} {set : Row → Row}

/-- A row is determined by its key. -/
theorem eq_of_key (t : Table key) {r' : Row} (member : r ∈ t) (member' : r' ∈ t) (same : key r = key r') : r = r' :=
  inj_on_of_nodup_map t.unique member member' same

def empty : Table key := ⟨[],by simp⟩
@[simp] theorem not_mem_empty (r : Row) : r ∉ (empty : Table key) := by simp [mem_def,empty]
theorem forall_mem_empty {P : Row → Prop} : ∀ r ∈ (empty : Table key), P r := fun r member => absurd member (not_mem_empty r)

section
variable [DecidableEq Key]

/-- The row with the key. -/
def find (t : Table key) (k : Key) : Option Row := t.rows.find? (fun r => key r = k)
/-- INSERT: fails if the key is taken. -/
def insert (t : Table key) (r : Row) : Option (Table key) :=
  if taken : key r ∈ t.rows.map key then none
  else some ⟨t.rows ++ [r],by
    rw [map_append,nodup_append]
    refine ⟨t.unique,by simp,?_⟩
    intro k present k' new same
    simp only [map_cons,map_nil,mem_singleton] at new
    exact taken (new ▸ same ▸ present)⟩

/-- INSERT ... ON CONFLICT: the row takes the place of the one with its key. -/
def upsert (t : Table key) (r : Row) : Table key :=
  ⟨t.rows.filter (fun r' => key r' ≠ key r) ++ [r],by
    rw [map_append,nodup_append]
    refine ⟨(filter_sublist.map key).nodup t.unique,by simp,?_⟩
    intro k present k' new same
    simp only [map_cons,map_nil,mem_singleton] at new
    obtain ⟨r',member,rfl⟩ := mem_map.mp present
    have other := (mem_filter.mp member).2
    simp [same,new] at other⟩

variable {t : Table key} {r r' : Row}

theorem mem_upsert : r' ∈ t.upsert r ↔ r' = r ∨ (r' ∈ t ∧ key r' ≠ key r) := by
  simp [mem_def,upsert,or_comm]
theorem forall_upsert {P : Row → Prop} (new : P r) (old : ∀ r' ∈ t, P r') : ∀ r' ∈ t.upsert r, P r' := by
  intro r' listed
  obtain rfl | ⟨member,_⟩ := mem_upsert.mp listed
  · exact new
  · exact old r' member
/-- A row of the table can be taken out of it. -/
theorem rows_perm (member : r ∈ t) : t.rows.Perm (r :: t.rows.filter (fun r' => key r' ≠ key r)) := by
  have nodup : t.rows.Nodup := t.unique.of_map key
  refine (perm_ext_iff_of_nodup nodup (nodup_cons.mpr ⟨by simp,nodup.filter _⟩)).mpr fun r' => ?_
  rw [mem_cons,mem_filter]
  constructor
  · intro present
    by_cases same : key r' = key r
    · exact .inl (t.eq_of_key present member same)
    · exact .inr ⟨present,by simpa using same⟩
  · rintro (rfl | ⟨present,_⟩)
    · exact member
    · exact present
theorem upsert_perm (t : Table key) (r : Row) : (t.upsert r).rows.Perm (r :: t.rows.filter (fun r' => key r' ≠ key r)) :=
  perm_append_singleton ..
/-- The sum of a number over the rows. -/
def sum (t : Table key) (f : Row → Nat) : Nat := t.rows.foldr (fun r total => f r+total) 0

theorem foldr_perm {rows rows' : List Row} (same : rows.Perm rows') (f : Row → Nat) :
    rows.foldr (fun r total => f r+total) 0 = rows'.foldr (fun r total => f r+total) 0 := by
  have commutes : LeftCommutative (fun (r : Row) (total : Nat) => f r+total) := ⟨fun r r' total => Nat.add_left_comm (f r) (f r') total⟩
  exact same.foldr_eq 0
/-- Replacing a row changes the sum by that row. -/
theorem sum_upsert (member : r ∈ t) (same : key r' = key r) (f : Row → Nat) : (t.upsert r').sum f+f r = t.sum f+f r' := by
  rw [sum,sum,foldr_perm (rows_perm member),foldr_perm (upsert_perm t r'),same,foldr_cons,foldr_cons]
  omega
theorem length_upsert (member : r ∈ t) (same : key r' = key r) : (t.upsert r').rows.length = t.rows.length := by
  rw [(rows_perm member).length_eq,(upsert_perm t r').length_eq,same,length_cons,length_cons]
theorem length_upsert_le (t : Table key) (r : Row) : (t.upsert r).rows.length ≤ t.rows.length+1 := by
  rw [upsert,length_append]
  exact Nat.succ_le_succ (length_filter_le ..)
theorem upsert_absent (absent : ∀ r' ∈ t, key r' ≠ key r) : (t.upsert r).rows = t.rows ++ [r] := by
  have all : t.rows.filter (fun r' => key r' ≠ key r) = t.rows := by
    apply filter_eq_self.mpr
    intro r' member
    simpa using absent r' member
  simp only [upsert,all]
theorem upsert_single (only : t.rows = [r]) (same : key r' = key r) : (t.upsert r').rows = [r'] := by
  simp [upsert,only,same]

variable {k : Key}

/-- A row is found exactly if it is there with the key. -/
theorem find_some (t : Table key) : t.find k = some r ↔ r ∈ t ∧ key r = k := by
  constructor
  · intro found
    refine ⟨mem_of_find?_eq_some found,?_⟩
    simpa using find?_some found
  · rintro ⟨member,rfl⟩
    cases found : t.find (key r) with
    | none =>
      have absent := find?_eq_none.mp found r member
      simp at absent
    | some r' =>
      have same : key r' = key r := by simpa using find?_some found
      rw [t.eq_of_key (mem_of_find?_eq_some found) member same]
theorem find_bind (t : Table key) {α : Type*} {f : Row → Option α} {a : α} (bound : (t.find k).bind f = some a) :
    ∃ r ∈ t, key r = k ∧ f r = some a := by
  obtain ⟨r,found,took⟩ := Option.bind_eq_some_iff.mp bound
  obtain ⟨member,its⟩ := t.find_some.mp found
  exact ⟨r,member,its,took⟩
theorem find_none (t : Table key) : t.find k = none ↔ ∀ r ∈ t, key r ≠ k := by
  simp [find,mem_def]
/-- The new row is found at its key, the others as before. -/
theorem find_upsert : (t.upsert r).find k = if k = key r then some r else t.find k := by
  apply Option.ext
  intro r'
  rw [find_some,mem_upsert]
  split
  · next same =>
    constructor
    · rintro ⟨rfl | ⟨_,different⟩,its⟩
      · rfl
      · exact absurd (its.trans same) different
    · intro is
      cases is
      exact ⟨.inl rfl,same.symm⟩
  · next different =>
    rw [find_some]
    constructor
    · rintro ⟨rfl | ⟨member,_⟩,its⟩
      · exact absurd its.symm different
      · exact ⟨member,its⟩
    · rintro ⟨member,its⟩
      exact ⟨.inr ⟨member,fun same => different (its.symm.trans same)⟩,its⟩
theorem insert_some {t' : Table key} (inserted : t.insert r = some t') :
    (∀ r' ∈ t, key r' ≠ key r) ∧ ∀ r', r' ∈ t' ↔ r' ∈ t ∨ r' = r := by
  unfold insert at inserted
  split at inserted <;> cases inserted
  next free =>
  refine ⟨fun r' member same => free (same ▸ mem_map_of_mem member),fun r' => ?_⟩
  simp [mem_def]
theorem exists_insert {t' : Table key} {P : Row → Prop} (inserted : t.insert r = some t') : (∃ r' ∈ t, P r') → ∃ r' ∈ t', P r' :=
  fun ⟨r',member,its⟩ => ⟨r',((insert_some inserted).2 r').mpr (.inl member),its⟩
theorem insert_of_find_none (free : t.find (key r) = none) : ∃ t', t.insert r = some t' ∧ t'.find (key r) = some r := by
  cases inserted : t.insert r with
  | none =>
    have taken : key r ∈ t.rows.map key := by
      by_contra missing
      simp [insert,missing] at inserted
    obtain ⟨r',member,same⟩ := mem_map.mp taken
    exact absurd same (t.find_none.mp free r' member)
  | some t' => exact ⟨t',rfl,t'.find_some.mpr ⟨((insert_some inserted).2 r).mpr (.inr rfl),rfl⟩⟩
end

section
variable (t : Table key) (cond : Row → Bool)
/-- UPDATE ... WHERE: the rows that meet `cond` are replaced, their keys kept. -/
def update (set : Row → Row) (keeps : ∀ r, key (set r) = key r) : Table key :=
  ⟨t.rows.map (fun r => if cond r then set r else r),by
    have same : (t.rows.map (fun r => if cond r then set r else r)).map key = t.rows.map key := by
      rw [map_map]
      apply map_congr_left
      intro r _
      by_cases hit : cond r <;> simp [hit,keeps]
    rw [same]
    exact t.unique⟩
/-- DELETE ... WHERE: the rows that meet `cond` are gone. -/
def delete : Table key :=
  ⟨t.rows.filter (fun r => !cond r),(filter_sublist.map key).nodup t.unique⟩

theorem mem_update (set : Row → Row) (keeps : ∀ r, key (set r) = key r) (r : Row) :
    r ∈ t.update cond set keeps ↔ ∃ r' ∈ t, r = if cond r' then set r' else r' := by
  constructor
  · intro member
    obtain ⟨r',present,rfl⟩ := mem_map.mp member
    exact ⟨r',present,rfl⟩
  · rintro ⟨r',present,rfl⟩
    exact mem_map.mpr ⟨r',present,rfl⟩
end

variable {cond : Row → Bool} {keeps : ∀ r, key (set r) = key r}

theorem update_single (only : t.rows = [r]) :
    (t.update cond set keeps).rows = [if cond r then set r else r] := by
  simp [update,only]
theorem mem_delete : r ∈ t.delete cond ↔ r ∈ t ∧ cond r = false := by
  simp [mem_def,delete]
theorem rows_delete [DecidableEq Key] (member : r ∈ t) : t.rows.Perm (r :: (t.delete fun r' => key r' = key r).rows) := by
  simpa [delete] using rows_perm member
theorem upsert_delete [DecidableEq Key] (t : Table key) (r : Row) : (t.upsert r).rows.Perm (r :: (t.delete fun r' => key r' = key r).rows) := by
  simpa [delete] using upsert_perm t r
theorem sum_delete [DecidableEq Key] (member : r ∈ t) (f : Row → Nat) : (t.delete (fun r' => key r' = key r)).sum f+f r = t.sum f := by
  rw [sum,sum,foldr_perm (rows_perm member),foldr_cons,delete]
  simp only [ne_eq,decide_not]
  omega
/-- An update by key replaces one row and leaves the others. -/
theorem mem_update_key [DecidableEq Key] {k : Key} {row : Row} (found : t.find k = some row) :
    r ∈ t.update (fun r => key r = k) set keeps ↔ r = set row ∨ (r ∈ t ∧ key r ≠ k) := by
  obtain ⟨member,its⟩ := t.find_some.mp found
  rw [mem_update]
  constructor
  · rintro ⟨r',present,rfl⟩
    by_cases same : key r' = k
    · rw [t.eq_of_key present member (same.trans its.symm)]
      exact .inl (by simp [its])
    · exact .inr (by simpa [same] using present)
  · rintro (rfl | ⟨present,other⟩)
    · exact ⟨row,member,by simp [its]⟩
    · exact ⟨r,present,by simp [other]⟩
theorem find_update [DecidableEq Key] {k : Key} :
    (t.update cond set keeps).find k = (t.find k).map (fun r => if cond r then set r else r) := by
  apply Option.ext
  intro r
  rw [find_some,mem_update,Option.map_eq_some_iff]
  constructor
  · rintro ⟨⟨r',member,rfl⟩,its⟩
    refine ⟨r',t.find_some.mpr ⟨member,?_⟩,rfl⟩
    rw [← its]
    split <;> simp [keeps]
  · rintro ⟨r',found,rfl⟩
    obtain ⟨member,its⟩ := t.find_some.mp found
    refine ⟨⟨r',member,rfl⟩,?_⟩
    rw [← its]
    split <;> simp [keeps]
theorem mem_update_of_miss (miss : ∀ r', key r' = key r → cond r' = false) : r ∈ t.update cond set keeps ↔ r ∈ t := by
  rw [mem_update]
  constructor
  · rintro ⟨r',member,rfl⟩
    have unhit : cond r' = false := miss r' (by split <;> simp [keeps])
    simpa [unhit] using member
  · intro member
    exact ⟨r,member,by simp [miss r rfl]⟩

end Table
end Stellabill.Keyed
