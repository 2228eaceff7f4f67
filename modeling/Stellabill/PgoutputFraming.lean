import Stellabill.Pgoutput

/-!
The layout of the messages that the decoder reads, and how the decoder gets from one
message to the next: it takes as many bytes as the message has, but for Origin and Type
messages, of which it takes one byte too many.
-/
namespace Stellabill.PgoutputFraming
open ByteStrings Pgoutput List

structure Column where
  name : Bytes
  typeOID : Nat
  modifier : Bytes
  flags : UInt8

inductive Field
  | null | unchanged | text (value : Bytes)

/-- What the old tuple of an update or a delete holds: the key or the whole row. -/
inductive OldKind
  | key | old

inductive WalMessage
  | begin (body : Bytes)
  | commit (flags : UInt8) (lsn : Nat) (body : Bytes)
  | origin (lsn name : Bytes)
  | type (oid namespace_ name : Bytes)
  | relation (id : Nat) (namespace_ name : Bytes) (replicaIdentity : UInt8) (columns : List Column)
  | insert (relID : Nat) (new : List Field)
  | update (relID : Nat) (old : Option (OldKind × List Field)) (new : List Field)
  | delete (relID : Nat) (kind : OldKind) (old : List Field)

def Column.encode (c : Column) : Bytes := c.name ++ 0 :: (digits 4 c.typeOID ++ (c.modifier ++ [c.flags]))
def Field.encode : Field → Bytes
  | .null => [0x6E]
  | .unchanged => [0x75]
  | .text value => 0x74 :: (digits 4 value.length ++ value)
def encodeTuple (fields : List Field) : Bytes := digits 2 fields.length ++ fields.flatMap Field.encode
def OldKind.marker : OldKind → UInt8
  | .key => 0x4B
  | .old => 0x4F
def encodeOld : Option (OldKind × List Field) → Bytes
  | none => []
  | some (kind,fields) => kind.marker :: encodeTuple fields
def WalMessage.encode : WalMessage → Bytes
  | .begin body => 0x42 :: body
  | .commit flags lsn body => 0x43 :: flags :: (digits 8 lsn ++ body)
  | .origin lsn name => 0x4F :: (lsn ++ (name ++ [0]))
  | .type oid namespace_ name => 0x59 :: (oid ++ (namespace_ ++ 0 :: (name ++ [0])))
  | .relation id namespace_ name replicaIdentity columns =>
    0x52 :: (digits 4 id ++ (namespace_ ++ 0 :: (name ++ 0 :: replicaIdentity :: (digits 2 columns.length ++ columns.flatMap Column.encode))))
  | .insert relID new => 0x49 :: (digits 4 relID ++ 0x4E :: encodeTuple new)
  | .update relID old new => 0x55 :: (digits 4 relID ++ (encodeOld old ++ 0x4E :: encodeTuple new))
  | .delete relID kind old => 0x44 :: (digits 4 relID ++ encodeOld (some (kind,old)))
open WalMessage (encode)

/-- A name, which ends at its NUL. -/
def Name (name : Bytes) : Prop := ∀ byte ∈ name, byte ≠ 0
  deriving Decidable
structure Column.Valid (c : Column) : Prop where
  name : Name c.name
  typeOID : c.typeOID < 256^4
  modifier : c.modifier.length = 4
def Field.Valid : Field → Prop
  | .text value => value.length < 256^4
  | .null | .unchanged => True
structure TupleOf (rel : RelMeta) (fields : List Field) : Prop where
  count : fields.length = rel.columns.length
  fits : fields.length < 256^2
  values : ∀ field ∈ fields, field.Valid
/-- The message has the layout, and a change is one of a relation that is known. -/
def WellFormed (relations : Relations) : WalMessage → Prop
  | .begin body => body.length = 20
  | .commit _ lsn body => lsn < 256^8 ∧ body.length = 16
  | .origin lsn name => lsn.length = 8 ∧ Name name
  | .type oid namespace_ name => oid.length = 4 ∧ Name namespace_ ∧ Name name
  | .relation id namespace_ name _ columns =>
    id < 256^4 ∧ Name namespace_ ∧ Name name ∧ columns.length < 256^2 ∧ ∀ c ∈ columns, c.Valid
  | .insert relID new => relID < 256^4 ∧ ∃ rel, relations relID = some rel ∧ TupleOf rel new
  | .update relID old new =>
    relID < 256^4 ∧ ∃ rel, relations relID = some rel ∧ TupleOf rel new ∧ ∀ kind fields, old = some (kind,fields) → TupleOf rel fields
  | .delete relID _ old => relID < 256^4 ∧ ∃ rel, relations relID = some rel ∧ TupleOf rel old

def Column.meta (c : Column) : ColMeta := ⟨c.name,c.typeOID,c.flags &&& 1 ≠ 0,c.flags &&& 2 ≠ 0⟩
def Field.value : Field → Option Bytes
  | .text value => some value
  | .null | .unchanged => none
def rowOf (columns : List ColMeta) (fields : List Field) : Row :=
  (zipWith (fun (col : ColMeta) field => (col.name,Field.value field)) columns fields).reverse

section
variable {data rest name : Bytes} {pos : Nat}

theorem ok_bind {α β : Type} (value : α) (f : α → Result β) : ((.ok value : Result α) >>= f) = f value := rfl

theorem nulFrom_name (named : Name name) (stands : Stands data pos (name ++ 0 :: rest)) : nulFrom data pos = pos+name.length := by
  have whole : (name ++ 0 :: rest).takeWhile (fun byte => decide (byte ≠ 0)) = name := by
    rw [takeWhile_append_of_pos (fun byte member => decide_eq_true (named byte member))]
    simp
  rw [nulFrom,stands.drop,whole]

variable {count id : Nat} {cols : List ColMeta} {columns : List Column} {fields : List Field} {namespace_ : Bytes} {replicaIdentity : UInt8}
  {old : Option (OldKind × List Field)}

theorem decodeColumns_step {c : Column} (valid : c.Valid) (stands : Stands data pos (c.encode ++ rest)) :
    decodeColumns data (count+1) pos cols = decodeColumns data count (pos+c.encode.length) (cols ++ [c.meta]) := by
  obtain ⟨named,oid,modifier⟩ := valid
  simp only [Column.encode,append_assoc,cons_append,nil_append] at stands
  have afterName := stands.advance.next
  obtain ⟨readOID,afterOID⟩ := afterName.number
  have afterModifier := afterOID.advance
  rw [modifier] at afterModifier
  have fits := afterModifier.next.length
  rw [decodeColumns,if_neg (by omega)]
  simp only [nulFrom_name named stands]
  rw [if_neg (by omega),stands.slice,ok_bind,if_neg (by omega),readOID,ok_bind,if_neg (by omega),afterModifier.index,bigEndian_digits oid]
  have size : pos+c.encode.length = pos+c.name.length+1+4+4+1 := by
    simp [Column.encode,length_digits,modifier]
    omega
  rw [size]
  rfl
theorem decodeColumns_encode (valid : ∀ c ∈ columns, c.Valid) (stands : Stands data pos (columns.flatMap Column.encode ++ rest)) :
    decodeColumns data columns.length pos cols = .ok (cols ++ columns.map Column.meta,pos+(columns.flatMap Column.encode).length) := by
  induction columns generalizing pos cols with
  | nil => simp [decodeColumns,pure,Except.pure]
  | cons c columns ih =>
    rw [flatMap_cons,append_assoc] at stands
    rw [length_cons,decodeColumns_step (valid c mem_cons_self) stands,
      ih (fun c later => valid c (mem_cons_of_mem _ later)) stands.advance]
    simp [Nat.add_assoc]
theorem decodeValues_encode {columns : List ColMeta} (count : fields.length = columns.length) (valid : ∀ field ∈ fields, field.Valid)
    {i : Nat} {row : Row} (stands : Stands data pos (fields.flatMap Field.encode ++ rest)) :
    decodeValues data fields.length columns i pos row = .ok (rowOf columns fields ++ row,pos+(fields.flatMap Field.encode).length) := by
  induction fields generalizing columns i pos row with
  | nil => simp [decodeValues,rowOf,pure,Except.pure]
  | cons field fields ih =>
    cases columns with
    | nil => cases count
    | cons col columns =>
      have here := valid field mem_cons_self
      have fewer : fields.length = columns.length := Nat.succ.inj count
      have others : ∀ field ∈ fields, field.Valid := fun field later => valid field (mem_cons_of_mem _ later)
      have row_cons : ∀ row : Row, rowOf (col :: columns) (field :: fields) ++ row = rowOf columns fields ++ (col.name,field.value) :: row := by
        simp [rowOf]
      rw [length_cons,decodeValues,row_cons]
      cases field with
      | null | unchanged =>
        simp only [flatMap_cons,Field.encode,cons_append,nil_append] at stands
        have size := stands.length
        rw [length_cons] at size
        rw [if_neg (by omega),stands.index,ok_bind,ih fewer others stands.next]
        simp [Field.encode,Field.value]
        omega
      | text value =>
        simp only [flatMap_cons,Field.encode,cons_append,append_assoc] at stands
        obtain ⟨readLength,afterLength⟩ := stands.next.number
        have done := afterLength.advance
        have size := done.length
        have long : bigEndian (digits 4 value.length) = value.length := bigEndian_digits here
        rw [if_neg (by omega),stands.index,ok_bind,if_neg (by decide),if_pos rfl]
        simp only [readLength,ok_bind,long]
        rw [if_neg (by omega),if_neg (by omega),afterLength.slice,ok_bind,ih fewer others done]
        simp [Field.encode,Field.value,length_digits]
        omega

variable {rel : RelMeta} {relations : Relations} {relID : Nat} {new : List Field}

theorem decodeTuple_encode (tuple : TupleOf rel fields) :
    decodeTuple (encodeTuple fields ++ rest) rel.columns = .ok (rowOf rel.columns fields,(encodeTuple fields).length) := by
  have start := stands_start (encodeTuple fields ++ rest)
  rw [encodeTuple,append_assoc] at start
  obtain ⟨readCount,afterCount⟩ := start.number
  have size := afterCount.length
  have long : bigEndian (digits 2 fields.length) = fields.length := bigEndian_digits tuple.fits
  rw [decodeTuple,encodeTuple,append_assoc,if_neg (by omega)]
  simp only [readCount,ok_bind,long]
  rw [decodeValues_encode tuple.count tuple.values afterCount]
  simp [length_digits]

/-! ### The functions for each kind -/

def relationHeader (id : Nat) (namespace_ name : Bytes) (replicaIdentity : UInt8) (count : Nat) : Bytes :=
  0x52 :: (digits 4 id ++ (namespace_ ++ 0 :: (name ++ 0 :: replicaIdentity :: digits 2 count)))
theorem decodeRelation_header {name body : Bytes} (fits : id < 256^4) (schema : Name namespace_) (named : Name name) (few : count < 256^2)
    (stands : Stands data 0 (relationHeader id namespace_ name replicaIdentity count ++ body)) :
    decodeRelation data = (decodeColumns data count (relationHeader id namespace_ name replicaIdentity count).length []).map
      (fun read => (⟨id,namespace_,name,read.1⟩,read.2)) := by
  simp only [relationHeader,cons_append,append_assoc] at stands
  obtain ⟨readID,atSchema⟩ := stands.next.number
  have atName := atSchema.advance.next
  have atIdentity := atName.advance.next
  obtain ⟨readCount,atColumns⟩ := atIdentity.next.number
  have size := atColumns.length
  rw [decodeRelation,if_neg (by omega),readID]
  simp only [ok_bind,nulFrom_name schema atSchema]
  rw [if_neg (by omega),atSchema.slice]
  simp only [ok_bind,nulFrom_name named atName]
  rw [if_neg (by omega),atName.slice,ok_bind,if_neg (by omega),if_neg (by omega),readCount]
  simp only [ok_bind,bigEndian_digits few,bigEndian_digits fits]
  have start : 1+4+namespace_.length+1+name.length+1+1+2 = (relationHeader id namespace_ name replicaIdentity count).length := by
    simp [relationHeader,length_digits]
    omega
  rw [start]
  cases decodeColumns data count (relationHeader id namespace_ name replicaIdentity count).length [] <;> rfl
theorem decodeRelation_encode {name : Bytes} (fits : id < 256^4) (schema : Name namespace_) (named : Name name)
    (few : columns.length < 256^2) (valid : ∀ c ∈ columns, c.Valid) :
    decodeRelation ((WalMessage.relation id namespace_ name replicaIdentity columns).encode ++ rest) =
      .ok (⟨id,namespace_,name,columns.map Column.meta⟩,(WalMessage.relation id namespace_ name replicaIdentity columns).encode.length) := by
  have split : (WalMessage.relation id namespace_ name replicaIdentity columns).encode =
      relationHeader id namespace_ name replicaIdentity columns.length ++ columns.flatMap Column.encode := by
    simp [encode,relationHeader]
  rw [split,append_assoc]
  have start := stands_start (relationHeader id namespace_ name replicaIdentity columns.length ++ (columns.flatMap Column.encode ++ rest))
  have atColumns := start.advance
  rw [Nat.zero_add] at atColumns
  rw [decodeRelation_header fits schema named few start,decodeColumns_encode valid atColumns]
  simp [Except.map]

theorem lookupRelation_known (known : relations relID = some rel) :
    lookupRelation relations relID = .ok rel := by rw [lookupRelation,known]
theorem decodeInsert_encode (fits : relID < 256^4) (known : relations relID = some rel) (tuple : TupleOf rel new)
    (start : Stands data 0 ((WalMessage.insert relID new).encode ++ rest)) : decodeInsert relations data =
      .ok (⟨rel.namespace_,rel.name,.insert,none,some (rowOf rel.columns new),0⟩,(WalMessage.insert relID new).encode.length) := by
  simp only [encode,cons_append,append_assoc] at start
  obtain ⟨readID,atMarker⟩ := start.next.number
  have atTuple := atMarker.next
  have size := atTuple.length
  rw [decodeInsert,if_neg (by omega),readID]
  simp only [ok_bind,atMarker.index]
  rw [bigEndian_digits fits,lookupRelation_known known,ok_bind,atTuple.slice_end,ok_bind,decodeTuple_encode tuple]
  simp [encode,length_digits,ok_bind,pure,Except.pure]
  omega
/-- The old tuple of an update or a delete is read, or there is none and the new tuple follows. -/
theorem decodeOld_encode (tuple : ∀ kind fields, old = some (kind,fields) → TupleOf rel fields)
    (stands : Stands data pos (encodeOld old ++ rest)) (new : old = none → ∃ more, rest = 0x4E :: more) :
    decodeOld data rel.columns pos = .ok (old.map (fun (_,fields) => rowOf rel.columns fields),pos+(encodeOld old).length) := by
  have size := stands.length
  cases old with
  | none =>
    obtain ⟨more,rfl⟩ := new rfl
    rw [encodeOld,nil_append] at stands size
    rw [length_cons] at size
    rw [decodeOld,if_pos (by omega),stands.index]
    rfl
  | some entry =>
    obtain ⟨kind,fields⟩ := entry
    rw [encodeOld,cons_append] at stands size
    rw [length_cons] at size
    have marked : kind.marker = 0x4B ∨ kind.marker = 0x4F := by cases kind <;> simp [OldKind.marker]
    rw [decodeOld,if_pos (by omega),stands.index,ok_bind,if_pos marked,stands.next.slice_end,ok_bind,
      decodeTuple_encode (tuple kind fields rfl)]
    simp [encodeOld,ok_bind,pure,Except.pure]
    omega
private theorem decodeNew_encode (tuple : TupleOf rel new) (stands : Stands data pos (0x4E :: (encodeTuple new ++ rest))) :
    decodeNew data rel.columns pos = .ok (some (rowOf rel.columns new),pos+(1+(encodeTuple new).length)) := by
  have size := stands.length
  rw [length_cons] at size
  rw [decodeNew,if_pos (by omega),stands.index,ok_bind,stands.next.slice_end,ok_bind,decodeTuple_encode tuple]
  rfl
theorem decodeUpdate_encode (fits : relID < 256^4) (known : relations relID = some rel) (tuple : TupleOf rel new)
    (oldTuple : ∀ kind fields, old = some (kind,fields) → TupleOf rel fields)
    (start : Stands data 0 ((WalMessage.update relID old new).encode ++ rest)) : decodeUpdate relations data =
      .ok (⟨rel.namespace_,rel.name,.update,old.map (fun (_,fields) => rowOf rel.columns fields),some (rowOf rel.columns new),0⟩,
        (WalMessage.update relID old new).encode.length) := by
  simp only [encode,cons_append,append_assoc] at start
  obtain ⟨readID,atOld⟩ := start.next.number
  have atNew := atOld.advance
  have size := atNew.length
  rw [length_cons] at size
  rw [decodeUpdate,if_neg (by omega),readID,ok_bind,bigEndian_digits fits,lookupRelation_known known,ok_bind,
    decodeOld_encode oldTuple atOld (fun _ => ⟨_,rfl⟩)]
  simp only [decodeNew_encode tuple atNew,ok_bind]
  simp [encode,length_digits,pure,Except.pure]
  omega
theorem decodeDelete_encode {kind : OldKind} {old : List Field} (fits : relID < 256^4) (known : relations relID = some rel)
    (tuple : TupleOf rel old) (start : Stands data 0 ((WalMessage.delete relID kind old).encode ++ rest)) : decodeDelete relations data =
      .ok (⟨rel.namespace_,rel.name,.delete,some (rowOf rel.columns old),none,0⟩,(WalMessage.delete relID kind old).encode.length) := by
  simp only [encode,cons_append,append_assoc] at start
  obtain ⟨readID,atOld⟩ := start.next.number
  have size := atOld.advance.length
  have same : ∀ kind' fields, some (kind,old) = some (kind',fields) → TupleOf rel fields := by
    rintro kind' fields ⟨⟩
    exact tuple
  have long : 1 ≤ (encodeOld (some (kind,old))).length := by simp [encodeOld]
  rw [decodeDelete,if_neg (by omega),readID,ok_bind,bigEndian_digits fits,lookupRelation_known known,ok_bind,
    decodeOld_encode same atOld (by simp),ok_bind]
  simp [encode,length_digits,pure,Except.pure]
  omega
end

def width : Message → Option Nat
  | .skipped width | .commit _ width | .relation _ width | .change _ width => some width
  | .cut | .failed _ => none
def changesOf : Message → List Change
  | .change change _ => [change]
  | .cut | .skipped _ | .commit .. | .relation .. | .failed _ => []
def lsnOf : Message → Nat
  | .commit lsn _ => lsn
  | .cut | .skipped _ | .relation .. | .change .. | .failed _ => 0
def announced (relations : Relations) : Message → Relations
  | .relation rel _ => Function.update relations rel.id (some rel)
  | .cut | .skipped _ | .commit .. | .change .. | .failed _ => relations

def after (relations : Relations) : WalMessage → Relations
  | .relation id namespace_ name _ columns => Function.update relations id (some ⟨id,namespace_,name,columns.map Column.meta⟩)
  | _ => relations
/-- The messages of which one byte too many is taken. -/
def Overrun : WalMessage → Prop
  | .origin .. | .type .. => True
  | .begin _ | .commit .. | .relation .. | .insert .. | .update .. | .delete .. => False
instance (m : WalMessage) : Decidable (Overrun m) := by
  unfold Overrun
  split <;> infer_instance

section
variable {relations : Relations} {m : WalMessage} {baseLSN : Nat}

theorem encode_cons (m : WalMessage) : ∃ kind body, m.encode = kind :: body := by
  cases m <;> exact ⟨_,_,rfl⟩
theorem decodeMessage_encode (wellFormed : WellFormed relations m) :
    ∃ out, (∀ rest, decodeMessage relations (m.encode ++ rest) = out) ∧
      width out = some (m.encode.length+if Overrun m then 1 else 0) ∧ announced relations out = after relations m := by
  cases m with
  | begin body =>
    refine ⟨.skipped 21,?_,?_,rfl⟩
    · have size : body.length = 20 := wellFormed
      simp [decodeMessage,encode,size]
    · have size : body.length = 20 := wellFormed
      simp [width,encode,size,Overrun]
  | commit flags lsn body =>
    obtain ⟨fits,size⟩ := wellFormed
    refine ⟨.commit lsn 26,?_,?_,rfl⟩
    · intro rest
      have start := stands_start ((WalMessage.commit flags lsn body).encode ++ rest)
      simp only [encode,cons_append,append_assoc] at start
      obtain ⟨readLSN,atBody⟩ := start.next.next.number
      have whole := atBody.advance.length
      simp only [decodeMessage,encode,cons_append,append_assoc,head?_cons]
      rw [if_neg (by omega),readLSN]
      simp only [bigEndian_digits fits]
    · simp [width,encode,length_digits,size,Overrun]
  | origin lsn name =>
    obtain ⟨size,named⟩ := wellFormed
    refine ⟨.skipped ((WalMessage.origin lsn name).encode.length+1),?_,?_,rfl⟩
    · intro rest
      have start := stands_start ((WalMessage.origin lsn name).encode ++ rest)
      simp only [encode,cons_append,append_assoc,nil_append] at start
      have atName := start.next.advance
      rw [size] at atName
      have ends := nulFrom_name named atName
      simp only [decodeMessage,encode,cons_append,append_assoc,nil_append,head?_cons]
      rw [ends]
      simp [size]
      omega
    · simp [width,Overrun]
  | type oid namespace_ name =>
    obtain ⟨size,schema,named⟩ := wellFormed
    refine ⟨.skipped ((WalMessage.type oid namespace_ name).encode.length+1),?_,?_,rfl⟩
    · intro rest
      have start := stands_start ((WalMessage.type oid namespace_ name).encode ++ rest)
      simp only [encode,cons_append,append_assoc,nil_append] at start
      have atSchema := start.next.advance
      rw [size] at atSchema
      have atName := atSchema.advance.next
      have whole := atName.advance.next.length
      simp only [decodeMessage,encode,cons_append,append_assoc,nil_append,head?_cons]
      have longer : 5 < (0x59 :: (oid ++ (namespace_ ++ 0 :: (name ++ 0 :: rest)))).length := by omega
      rw [if_pos longer,nulFrom_name schema atSchema,if_pos (by omega),nulFrom_name named atName]
      simp [size]
      omega
    · simp [width,Overrun]
  | relation id namespace_ name replicaIdentity columns =>
    obtain ⟨fits,schema,named,few,valid⟩ := wellFormed
    exact ⟨_,fun rest => congrArg (Message.ofResult _ _) (decodeRelation_encode fits schema named few valid),
      by simp [Message.ofResult,width,Overrun],rfl⟩
  | insert relID new =>
    obtain ⟨fits,rel,known,tuple⟩ := wellFormed
    exact ⟨_,fun rest => congrArg (Message.ofResult _ _) (decodeInsert_encode fits known tuple (stands_start _)),
      by simp [Message.ofResult,width,Overrun],rfl⟩
  | update relID old new =>
    obtain ⟨fits,rel,known,tuple,oldTuple⟩ := wellFormed
    exact ⟨_,fun rest => congrArg (Message.ofResult _ _) (decodeUpdate_encode fits known tuple oldTuple (stands_start _)),
      by simp [Message.ofResult,width,Overrun],rfl⟩
  | delete relID kind old =>
    obtain ⟨fits,rel,known,tuple⟩ := wellFormed
    exact ⟨_,fun rest => congrArg (Message.ofResult _ _) (decodeDelete_encode fits known tuple (stands_start _)),
      by simp [Message.ofResult,width,Overrun],rfl⟩

variable {fuel : Nat} {out : Message} {taken : Nat} {remaining : Bytes}

theorem decodeLoop_turn {changes : List Change} {maxLSN : Nat} (more : remaining ≠ []) (message : decodeMessage relations remaining = out)
    (takes : width out = some taken) : decodeLoop baseLSN (fuel+1) relations remaining changes maxLSN =
      decodeLoop baseLSN fuel (announced relations out) (remaining.drop taken) (changes ++ changesOf out) (max maxLSN (lsnOf out)) := by
  rw [decodeLoop,if_neg more,message]
  cases out with
  | cut | failed _ => simp [width] at takes
  | skipped _ | commit _ _ | relation _ _ | change _ _ =>
    obtain rfl : _ = taken := Option.some.inj takes
    simp [announced,changesOf,lsnOf]
theorem decodeLoop_end (changes : List Change) (maxLSN : Nat) :
    decodeLoop baseLSN fuel relations [] changes maxLSN = (relations,.ok (changes,if maxLSN = 0 then baseLSN else maxLSN)) := by
  cases fuel with
  | zero => rfl
  | succ fuel => rw [decodeLoop,if_pos rfl]
private theorem decodeWAL_encode (baseLSN : Nat) (message : ∀ rest, decodeMessage relations (m.encode ++ rest) = out)
    (takes : width out = some (m.encode.length+if Overrun m then 1 else 0)) :
    ∃ lsn, decodeWAL relations m.encode baseLSN = (announced relations out,.ok (changesOf out,lsn)) := by
  obtain ⟨kind,body,bytes⟩ := encode_cons m
  have more : m.encode ≠ [] := by simp [bytes]
  have fuel : m.encode.length = body.length+1 := by simp [bytes]
  have alone := message []
  rw [append_nil] at alone
  rw [decodeWAL,fuel,decodeLoop_turn more alone takes,drop_eq_nil_of_le (by omega),decodeLoop_end]
  exact ⟨_,rfl⟩

/-! ### Lists of messages -/

/-- Every message has the layout, where the relations are those known when it is its turn. -/
def WellFormedAll : Relations → List WalMessage → Prop
  | _, [] => True
  | relations, m :: messages => WellFormed relations m ∧ WellFormedAll (after relations m) messages
/-- The bytes that the turns of the loop of `decodeWAL` take, one after the other. -/
def widths : Nat → Relations → Bytes → List Nat
  | 0, _, _ => []
  | fuel+1, relations, remaining =>
    if remaining = [] then []
    else match width (decodeMessage relations remaining) with
      | none => []
      | some taken => taken :: widths fuel (announced relations (decodeMessage relations remaining)) (remaining.drop taken)
/-- One call of `decodeWAL` for each message, each with the relations that the last one left. -/
def decodeEach (baseLSN : Nat) : Relations → List Bytes → Relations × Result (List Change)
  | relations, [] => (relations,.ok [])
  | relations, data :: rest =>
    match decodeWAL relations data baseLSN with
    | (relations,.error failure) => (relations,.error failure)
    | (relations,.ok (changes,_)) => (decodeEach baseLSN relations rest).map id (·.map (changes ++ ·))
/-- The concatenation is decoded as its messages are one after the other, turn by turn. -/
structure Framed (relations : Relations) (baseLSN : Nat) (messages : List WalMessage) : Prop where
  decoded : (decodeWAL relations (messages.flatMap encode) baseLSN).map id (·.map Prod.fst) =
    decodeEach baseLSN relations (messages.map encode)
  taken : widths (messages.flatMap encode).length relations (messages.flatMap encode) =
    messages.map (·.encode.length)

theorem widths_turn (more : remaining ≠ []) (message : decodeMessage relations remaining = out) (takes : width out = some taken) :
    widths (fuel+1) relations remaining = taken :: widths fuel (announced relations out) (remaining.drop taken) := by
  rw [widths,if_neg more,message,takes]
private theorem widths_end (fuel : Nat) : widths fuel relations [] = [] := by
  cases fuel with
  | zero => rfl
  | succ fuel => rw [widths,if_pos rfl]

variable {messages : List WalMessage}

private theorem decodeLoop_messages (baseLSN : Nat) (wellFormed : WellFormedAll relations messages) (exact : ∀ m ∈ messages, ¬ Overrun m)
    (enough : (messages.flatMap encode).length ≤ fuel) :
    ∃ known found, decodeEach baseLSN relations (messages.map encode) = (known,.ok found) ∧ (∀ changes maxLSN, ∃ lsn,
        decodeLoop baseLSN fuel relations (messages.flatMap encode) changes maxLSN = (known,.ok (changes ++ found,lsn))) ∧
      widths fuel relations (messages.flatMap encode) = messages.map (·.encode.length) := by
  induction messages generalizing relations fuel with
  | nil =>
    refine ⟨relations,[],rfl,fun changes maxLSN => ?_,widths_end fuel⟩
    rw [flatMap_nil,decodeLoop_end,append_nil]
    exact ⟨_,rfl⟩
  | cons m messages ih =>
    obtain ⟨first,others⟩ := wellFormed
    obtain ⟨out,message,takes,known⟩ := decodeMessage_encode first
    have whole := takes
    rw [if_neg (exact m mem_cons_self)] at whole
    obtain ⟨kind,body,bytes⟩ := encode_cons m
    have more : m.encode ++ messages.flatMap encode ≠ [] := by simp [bytes]
    rw [flatMap_cons,length_append,bytes,length_cons] at enough
    obtain ⟨fuel,rfl⟩ : ∃ left, fuel = left+1 := ⟨fuel-1,by omega⟩
    rw [← known] at others
    have left : (messages.flatMap encode).length ≤ fuel := by omega
    obtain ⟨final,found,each,loop,lengths⟩ := ih others (fun m member => exact m (mem_cons_of_mem _ member)) left
    obtain ⟨_,alone⟩ := decodeWAL_encode baseLSN message takes
    refine ⟨final,changesOf out ++ found,?_,fun changes maxLSN => ?_,?_⟩
    · rw [map_cons,decodeEach,alone]
      simp only [each]
      rfl
    · obtain ⟨lsn,rest⟩ := loop (changes ++ changesOf out) (max maxLSN (lsnOf out))
      refine ⟨lsn,?_⟩
      rw [flatMap_cons,decodeLoop_turn more (message _) whole,Nat.add_zero,drop_left,rest,append_assoc]
    · rw [flatMap_cons,widths_turn more (message _) whole,Nat.add_zero,drop_left,lengths,map_cons]
private theorem exact_of_widths (wellFormed : WellFormedAll relations messages) (enough : (messages.flatMap encode).length ≤ fuel)
    (taken : widths fuel relations (messages.flatMap encode) = messages.map (·.encode.length)) :
    ∀ m ∈ messages, ¬ Overrun m := by
  induction messages generalizing relations fuel with
  | nil => exact fun m member => absurd member not_mem_nil
  | cons m messages ih =>
    obtain ⟨first,others⟩ := wellFormed
    obtain ⟨out,message,takes,known⟩ := decodeMessage_encode first
    obtain ⟨kind,body,bytes⟩ := encode_cons m
    have more : m.encode ++ messages.flatMap encode ≠ [] := by simp [bytes]
    rw [flatMap_cons,length_append,bytes,length_cons] at enough
    obtain ⟨fuel,rfl⟩ : ∃ left, fuel = left+1 := ⟨fuel-1,by omega⟩
    rw [flatMap_cons,widths_turn more (message _) takes,map_cons,List.cons.injEq] at taken
    obtain ⟨width,rest⟩ := taken
    have whole : ¬ Overrun m := by
      intro overrun
      rw [if_pos overrun] at width
      omega
    rw [width,drop_left] at rest
    rw [← known] at others
    intro m' member
    obtain rfl | member := mem_cons.mp member
    · exact whole
    · exact ih others (by omega) rest m' member

/-- The decoder keeps to the messages exactly when there is no Origin and no Type message. -/
theorem framed_iff (relations : Relations) (baseLSN : Nat) (messages : List WalMessage) (wellFormed : WellFormedAll relations messages) :
    Framed relations baseLSN messages ↔ ∀ m ∈ messages, ¬ Overrun m := by
  constructor
  · intro framed
    exact exact_of_widths wellFormed (Nat.le_refl _) framed.taken
  · intro exact
    obtain ⟨known,found,each,loop,lengths⟩ := decodeLoop_messages baseLSN wellFormed exact (Nat.le_refl _)
    obtain ⟨lsn,whole⟩ := loop [] 0
    refine ⟨?_,lengths⟩
    rw [each,decodeWAL,whole]
    rfl

end

def plans : WalMessage := .relation 1 [0x70] [0x71] 0x64 [⟨[0x69],23,[0,0,0,0],1⟩]
def planAdded : WalMessage := .insert 1 [.text [0x37]]
theorem plans_wellFormed (relations : Relations) : WellFormed relations plans := by
  refine ⟨by decide +kernel,by decide,by decide,by decide +kernel,fun c member => ?_⟩
  obtain rfl := mem_singleton.mp member
  exact ⟨by decide,by decide +kernel,by decide⟩
theorem planAdded_wellFormed (relations : Relations) : WellFormed (after relations plans) planAdded := by
  refine ⟨by decide +kernel,⟨1,[0x70],[0x71],[⟨[0x69],23,true,false⟩]⟩,by rfl,⟨rfl,by decide +kernel,fun field member => ?_⟩⟩
  obtain rfl := mem_singleton.mp member
  show 1 < 256^4
  decide +kernel
theorem framed_iff_plan : Framed (fun _ => none) 0 [plans,planAdded] :=
  (framed_iff (fun _ => none) 0 [plans,planAdded] ⟨plans_wellFormed _,planAdded_wellFormed _,trivial⟩).mpr (by decide)

/-- A row is added after an Origin message, whose last byte is the type byte of the insertion for the decoder. -/
def origin : WalMessage := .origin [0,0,0,0,0,0,0,0] [0x6F]
theorem insert_lost : ¬ ∀ (relations : Relations) (baseLSN : Nat) (messages : List WalMessage),
    WellFormedAll relations messages → Framed relations baseLSN messages := by
  intro framed
  have alike := (framed (fun _ => none) 0 [plans,origin,planAdded]
    ⟨plans_wellFormed _,⟨by decide,by decide⟩,planAdded_wellFormed _,trivial⟩).decoded
  have lost : (decodeWAL (fun _ => none) ([plans,origin,planAdded].flatMap encode) 0).2.map Prod.fst = .ok [] := by
    decide +kernel
  have found : (decodeEach 0 (fun _ => none) ([plans,origin,planAdded].map encode)).2 =
      .ok [⟨[0x70],[0x71],.insert,none,some [([0x69],some [0x37])],0⟩] := by
    decide +kernel
  have changes := congrArg Prod.snd alike
  rw [found] at changes
  exact absurd (lost.symm.trans changes) (by simp)

end Stellabill.PgoutputFraming
