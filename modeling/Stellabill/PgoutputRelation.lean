import Stellabill.PgoutputSafety

/-!
Relation messages as PostgreSQL writes them. There the flags of a column stand before
its name, while `decodeRelation` looks for them after the type modifier.
-/
namespace Stellabill.PgoutputRelation
open ByteStrings Pgoutput PgoutputFraming PgoutputSafety List

structure PgColumn where
  key : Bool
  name : Bytes
  typeOID : UInt32
  typeModifier : Int
  named : Name name
  signed : -2147483648 ≤ typeModifier ∧ typeModifier < 2147483648

structure PgRelation where
  id : UInt32
  namespace_ : Bytes
  name : Bytes
  replicaIdentity : UInt8
  columns : List PgColumn
  schema : Name namespace_
  named : Name name
  few : columns.length < 256^2

/-- A number of 32 bits in two's complement. -/
def PgColumn.modifierWord (c : PgColumn) : Nat := (c.typeModifier%4294967296).toNat
def PgColumn.encode (c : PgColumn) : Bytes :=
  (if c.key then 1 else 0) :: (c.name ++ 0 :: (digits 4 c.typeOID.toNat ++ digits 4 c.modifierWord))
def PgRelation.encode (m : PgRelation) : Bytes :=
  relationHeader m.id.toNat m.namespace_ m.name m.replicaIdentity m.columns.length ++ m.columns.flatMap PgColumn.encode

def PgColumn.view (c : PgColumn) : Bytes × Nat × Bool := (c.name,c.typeOID.toNat,c.key)
def view (c : ColMeta) : Bytes × Nat × Bool := (c.name,c.typeOID,c.isKey)
/-- The decoder returns what the message says, and takes all of it. -/
def Agrees (m : PgRelation) : Prop :=
  ∃ rel, decodeRelation m.encode = .ok (rel,m.encode.length) ∧ rel.id = m.id.toNat ∧ rel.namespace_ = m.namespace_ ∧ rel.name = m.name ∧
    rel.columns.map view = m.columns.map PgColumn.view

/-- A column in which the shift is not seen: no flag and no name, type 0 and an even modifier. -/
structure Plain (c : PgColumn) : Prop where
  key : c.key = false
  name : c.name = []
  typeOID : c.typeOID = 0
  typeModifier : c.typeModifier%2 = 0

/-- The column that the decoder sees without a flag and a name: the NUL of the name is the first byte of the type. -/
def shifted (c : PgColumn) : Column :=
  ⟨[],c.typeOID.toNat/256,UInt8.ofNat c.typeOID.toNat :: digits 3 (c.modifierWord/256),UInt8.ofNat c.modifierWord⟩

section
variable {c : PgColumn}

theorem shifted_valid (c : PgColumn) : (shifted c).Valid := by
  refine ⟨by simp [shifted,Name],?_,by simp [shifted,length_digits]⟩
  have small := c.typeOID.toNat_lt
  show c.typeOID.toNat/256 < 256^4
  omega
theorem encode_shifted (key : c.key = false) (name : c.name = []) : c.encode = (shifted c).encode := by
  have small : c.typeOID.toNat/256 < 256^3 := by
    have bound := c.typeOID.toNat_lt
    omega
  have oid : digits 4 c.typeOID.toNat = digits 3 (c.typeOID.toNat/256) ++ [UInt8.ofNat c.typeOID.toNat] := rfl
  have modifier : digits 4 c.modifierWord = digits 3 (c.modifierWord/256) ++ [UInt8.ofNat c.modifierWord] := rfl
  have higher : digits 4 (c.typeOID.toNat/256) = 0 :: digits 3 (c.typeOID.toNat/256) := digits_succ small
  simp [PgColumn.encode,key,name,shifted,Column.encode,oid,modifier,higher]
private theorem even_iff (n : Nat) : (UInt8.ofNat n &&& 1 ≠ 0) ↔ n%2 = 1 := by
  rw [ne_eq,← UInt8.toNat_inj]
  simp
private theorem modifierWord_mod : (c.modifierWord%2 = 1) ↔ ¬ c.typeModifier%2 = 0 := by
  rw [PgColumn.modifierWord]
  omega
theorem view_shifted (key : c.key = false) (name : c.name = []) : view (shifted c).meta = c.view ↔ Plain c := by
  have flag : (decide (UInt8.ofNat c.modifierWord &&& 1 ≠ 0)) = false ↔ c.typeModifier%2 = 0 := by
    rw [decide_eq_false_iff_not,even_iff,modifierWord_mod,not_not]
  have oid : c.typeOID.toNat/256 = c.typeOID.toNat ↔ c.typeOID = 0 := by
    rw [← UInt32.toNat_inj]
    show _ ↔ c.typeOID.toNat = 0
    omega
  constructor
  · intro same
    simp only [view,shifted,Column.meta,PgColumn.view,Prod.mk.injEq,key] at same
    exact ⟨key,name,oid.mp same.2.1,flag.mp same.2.2⟩
  · intro plain
    simp only [view,shifted,Column.meta,PgColumn.view,Prod.mk.injEq,key]
    exact ⟨name.symm,oid.mpr plain.typeOID,flag.mpr plain.typeModifier⟩
theorem firstName_eq {rest : Bytes} (same : c.name = (c.encode ++ rest).takeWhile (fun byte => decide (byte ≠ 0))) :
    c.key = false ∧ c.name = [] := by
  cases flag : c.key with
  | false =>
    rw [same]
    simp [PgColumn.encode,flag]
  | true =>
    have longer : (c.encode ++ rest).takeWhile (fun byte => decide (byte ≠ 0)) = 1 :: c.name := by
      simp only [PgColumn.encode,flag,if_true,cons_append,append_assoc]
      rw [takeWhile_cons_of_pos (by decide),takeWhile_append_of_pos (fun byte member => decide_eq_true (c.named byte member))]
      simp
    rw [longer] at same
    have size := congrArg List.length same
    simp at size
end

/-! ### All columns -/

section
variable {data : Bytes} {pos : Nat} {cols out : List ColMeta} {columns : List PgColumn}

private theorem read_more {count last : Nat} (inside : pos ≤ data.length) (read : decodeColumns data count pos cols = .ok (out,last)) :
    ∃ more, out = cols ++ more ∧ ∀ c, more.head? = some c → c.name = (data.drop pos).takeWhile (fun byte => decide (byte ≠ 0)) := by
  have safe := decodeColumns_safe count cols inside
  rw [read] at safe
  exact safe.2.2
/-- Where the decoder returns the columns of the message, each of them is plain. -/
theorem plain_of_read {last : Nat} (stands : Stands data pos (columns.flatMap PgColumn.encode))
    (read : decodeColumns data columns.length pos cols = .ok (out,last)) (same : out.map view = cols.map view ++ columns.map PgColumn.view) :
    ∀ c ∈ columns, Plain c := by
  induction columns generalizing pos cols with
  | nil => exact fun c member => absurd member not_mem_nil
  | cons c columns ih =>
    have inside : pos ≤ data.length := by
      have size := stands.length
      omega
    rw [length_cons] at read
    obtain ⟨more,rfl,name⟩ := read_more inside read
    rw [map_append,append_cancel_left_eq] at same
    cases more with
    | nil => cases same
    | cons first more =>
      rw [map_cons,map_cons,List.cons.injEq] at same
      obtain ⟨here,later⟩ := same
      have named : c.name = first.name := (congrArg Prod.fst here).symm
      rw [name first rfl,stands.drop] at named
      obtain ⟨key,empty⟩ := firstName_eq named
      rw [flatMap_cons,encode_shifted key empty] at stands
      rw [decodeColumns_step (shifted_valid c) stands] at read
      have beyond : pos+(shifted c).encode.length ≤ data.length := by
        have size := stands.advance.length
        omega
      obtain ⟨rest,extended,_⟩ := read_more beyond read
      rw [append_assoc,singleton_append,append_cancel_left_eq,List.cons.injEq] at extended
      have plain : Plain c := (view_shifted key empty).mp (extended.1 ▸ here)
      refine forall_mem_cons.mpr ⟨plain,ih stands.advance read ?_⟩
      rw [← extended.1]
      simp [later]
theorem decodeColumns_plain (plain : ∀ c ∈ columns, Plain c) (stands : Stands data pos (columns.flatMap PgColumn.encode)) :
    decodeColumns data columns.length pos [] = .ok (columns.map (fun c => (shifted c).meta),pos+(columns.flatMap PgColumn.encode).length) := by
  have bytes : columns.flatMap PgColumn.encode = (columns.map shifted).flatMap Column.encode := by
    rw [flatMap_map]
    exact flatMap_congr fun c member => encode_shifted (plain c member).key (plain c member).name
  have valid : ∀ c ∈ columns.map shifted, c.Valid := by
    intro c member
    obtain ⟨c,_,rfl⟩ := mem_map.mp member
    exact shifted_valid c
  rw [bytes,← append_nil ((columns.map shifted).flatMap Column.encode)] at stands
  have read := @decodeColumns_encode _ _ _ [] _ valid stands
  rw [length_map] at read
  rw [read,bytes,map_map]
  rfl
end

/-- `decodeRelation` agrees with PostgreSQL exactly on messages whose columns are all plain, so on no table that has a
    named column. -/
theorem relation_agrees_iff (m : PgRelation) : Agrees m ↔ ∀ c ∈ m.columns, Plain c := by
  have start := stands_start m.encode
  have header := decodeRelation_header m.id.toNat_lt m.schema m.named m.few start
  have atColumns := start.advance
  rw [Nat.zero_add] at atColumns
  constructor
  · rintro ⟨rel,decoded,-,-,-,same⟩
    rw [header] at decoded
    cases read : decodeColumns m.encode m.columns.length
        (relationHeader m.id.toNat m.namespace_ m.name m.replicaIdentity m.columns.length).length [] with
    | error failure =>
      rw [read] at decoded
      cases decoded
    | ok out =>
      rw [read] at decoded
      obtain ⟨rfl,_⟩ := Prod.mk.inj (Except.ok.inj decoded)
      exact plain_of_read atColumns read same
  · intro plain
    refine ⟨⟨m.id.toNat,m.namespace_,m.name,m.columns.map (fun c => (shifted c).meta)⟩,?_,rfl,rfl,rfl,?_⟩
    · rw [header,decodeColumns_plain plain atColumns,← length_append]
      rfl
    · rw [map_map]
      exact map_congr_left fun c member => (view_shifted (plain c member).key (plain c member).name).mpr (plain c member)

/-- A table with the key column "id" of type 23: the decoder finds no column. -/
def plans : PgRelation where
  id := 16384
  namespace_ := text "public"
  name := text "plans"
  replicaIdentity := 0x64
  columns := [⟨true,text "id",23,-1,by decide +kernel,by decide⟩]
  schema := by decide +kernel
  named := by decide +kernel
  few := by decide +kernel
theorem columns_lost : ¬ ∀ m, Agrees m := by
  intro agrees
  obtain ⟨rel,decoded,-,-,-,same⟩ := agrees plans
  have lost : (decodeRelation plans.encode).map (fun read => read.1.columns) = .ok [] := by decide +kernel
  rw [decoded] at lost
  have none : rel.columns = [] := Except.ok.inj lost
  rw [none] at same
  cases same

end Stellabill.PgoutputRelation
