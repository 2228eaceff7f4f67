import Mathlib.Logic.Function.Basic
import Stellabill.ByteStrings

/-!
The decoder of PostgreSQL's logical replication stream: the tables announced by
Relation messages, and the row changes that refer to them. Every index and slice is checked.
-/
namespace Stellabill.Pgoutput
open ByteStrings

structure ColMeta where
  name : Bytes
  typeOID : Nat
  isKey : Bool
  isNotNull : Bool
  deriving DecidableEq, Repr

structure RelMeta where
  id : Nat
  namespace_ : Bytes
  name : Bytes
  columns : List ColMeta
  deriving DecidableEq, Repr

abbrev Relations := Nat → Option RelMeta

inductive Op
  | insert | update | delete
  deriving DecidableEq, Repr

/-- The columns with their values, the last one first; a column that is listed twice has the value listed first. -/
abbrev Row := List (Bytes × Option Bytes)

structure Change where
  schema : Bytes
  table : Bytes
  op : Op
  before : Option Row
  after : Option Row
  lsn : Nat
  deriving DecidableEq, Repr

def fail {α : Type} (message : String) : Result α := .error (.error message)

def nulFrom (data : Bytes) (pos : Nat) : Nat := pos+((data.drop pos).takeWhile (· ≠ 0)).length

/-- The loop of `decodeRelation` over the columns, which ends early where the message does. -/
def decodeColumns (data : Bytes) : Nat → Nat → List ColMeta → Result (List ColMeta × Nat)
  | 0, pos, cols => return (cols,pos)
  | count+1, pos, cols => do
    if pos ≥ data.length then return (cols,pos)
    let nameEnd := nulFrom data pos
    if nameEnd ≥ data.length then return (cols,nameEnd)
    let name ← slice data pos nameEnd
    let pos := nameEnd+1
    if pos+8 > data.length then return (cols,pos)
    let typeOID := bigEndian (← slice data pos (pos+4))
    let pos := pos+8
    if pos ≥ data.length then return (cols,pos)
    let flags ← index data pos
    decodeColumns data count (pos+1) (cols ++ [⟨name,typeOID,flags &&& 1 ≠ 0,flags &&& 2 ≠ 0⟩])
def decodeRelation (data : Bytes) : Result (RelMeta × Nat) := do
  if data.length < 10 then fail ("cdc: relation too short: " ++ toString data.length ++ " bytes")
  let relID := bigEndian (← slice data 1 5)
  let nsEnd := nulFrom data 5
  if nsEnd ≥ data.length then fail "cdc: unterminated namespace in relation"
  let namespace_ ← slice data 5 nsEnd
  let nameEnd := nulFrom data (nsEnd+1)
  if nameEnd ≥ data.length then fail "cdc: unterminated name in relation"
  let name ← slice data (nsEnd+1) nameEnd
  let pos := nameEnd+1
  if pos ≥ data.length then fail "cdc: missing replica identity in relation"
  let pos := pos+1
  if pos+2 > data.length then fail "cdc: missing column count in relation"
  let colCount := bigEndian (← slice data pos (pos+2))
  let (columns,pos) ← decodeColumns data colCount (pos+2) []
  return (⟨relID,namespace_,name,columns⟩,pos)

/-- The loop of `decodeTuple`: the columns of the message and of the relation that are left. -/
def decodeValues (data : Bytes) : Nat → List ColMeta → Nat → Nat → Row → Result (Row × Nat)
  | 0, _, _, pos, row => return (row,pos)
  | _+1, [], _, pos, row => return (row,pos)
  | count+1, col :: columns, i, pos, row => do
    if pos ≥ data.length then return (row,pos)
    let marker ← index data pos
    if marker = 0x6E ∨ marker = 0x75 then
      decodeValues data count columns (i+1) (pos+1) ((col.name,none) :: row)
    else if marker = 0x74 then
      let pos := pos+1
      if pos+4 > data.length then return (row,pos)
      let valLen := bigEndian (← slice data pos (pos+4))
      let pos := pos+4
      if pos+valLen > data.length then return (row,pos)
      let value ← slice data pos (pos+valLen)
      decodeValues data count columns (i+1) (pos+valLen) ((col.name,some value) :: row)
    else
      fail ("cdc: unexpected tuple marker " ++ String.singleton (Char.ofNat marker.toNat) ++ " at column " ++ toString i)
def decodeTuple (data : Bytes) (columns : List ColMeta) : Result (Row × Nat) := do
  if data.length < 2 then fail ("cdc: tuple too short: " ++ toString data.length ++ " bytes")
  let colCount := bigEndian (← slice data 0 2)
  decodeValues data colCount columns 0 2 []

section
variable (relations : Relations)
def lookupRelation (relID : Nat) : Result RelMeta :=
  match relations relID with
  | some rel => .ok rel
  | none => fail ("cdc: unknown relation ID " ++ toString relID)
def decodeInsert (data : Bytes) : Result (Change × Nat) := do
  if data.length < 6 then fail ("cdc: insert too short: " ++ toString data.length ++ " bytes")
  let relID := bigEndian (← slice data 1 5)
  let marker ← index data 5
  if marker ≠ 0x4E then
    fail ("cdc: expected new tuple marker in insert, got " ++ String.singleton (Char.ofNat marker.toNat))
  let rel ← lookupRelation relations relID
  let (after,n) ← decodeTuple (← slice data 6 data.length) rel.columns
  return (⟨rel.namespace_,rel.name,.insert,none,some after,0⟩,6+n)
/-- The old row or key of an update or a delete, and the position after it. -/
def decodeOld (data : Bytes) (columns : List ColMeta) (pos : Nat) : Result (Option Row × Nat) := do
  if pos < data.length then
    let marker ← index data pos
    if marker = 0x4B ∨ marker = 0x4F then
      let (before,n) ← decodeTuple (← slice data (pos+1) data.length) columns
      return (some before,pos+(1+n))
    else return (none,pos)
  else return (none,pos)
def decodeNew (data : Bytes) (columns : List ColMeta) (pos : Nat) : Result (Option Row × Nat) := do
  if pos < data.length then
    if (← index data pos) = 0x4E then
      let (after,n) ← decodeTuple (← slice data (pos+1) data.length) columns
      return (some after,pos+(1+n))
    else return (none,pos)
  else return (none,pos)
def decodeUpdate (data : Bytes) : Result (Change × Nat) := do
  if data.length < 6 then fail ("cdc: update too short: " ++ toString data.length ++ " bytes")
  let rel ← lookupRelation relations (bigEndian (← slice data 1 5))
  let (before,pos) ← decodeOld data rel.columns 5
  let (after,pos) ← decodeNew data rel.columns pos
  return (⟨rel.namespace_,rel.name,.update,before,after,0⟩,pos)
def decodeDelete (data : Bytes) : Result (Change × Nat) := do
  if data.length < 6 then fail ("cdc: delete too short: " ++ toString data.length ++ " bytes")
  let rel ← lookupRelation relations (bigEndian (← slice data 1 5))
  let (before,pos) ← decodeOld data rel.columns 5
  return (⟨rel.namespace_,rel.name,.delete,before,none,0⟩,pos)

/-! ### The stream -/

/-- What one message does: it ends the batch early, is skipped, announces a relation, is a change, or fails. The number
    is that of its bytes. -/
inductive Message
  | cut
  | skipped (width : Nat)
  | commit (lsn width : Nat)
  | relation (rel : RelMeta) (width : Nat)
  | change (change : Change) (width : Nat)
  | failed (failure : Failure)
  deriving DecidableEq

/-- The error of a message is told with its kind. -/
def Message.ofResult {α : Type} (kind : String) (ok : α × Nat → Message) : Result (α × Nat) → Message
  | .ok decoded => ok decoded
  | .error .panic => .failed .panic
  | .error (.error message) => .failed (.error ("cdc: " ++ kind ++ " decode error: " ++ message))
def decodeMessage (remaining : Bytes) : Message :=
  match remaining.head? with
  | none => .cut
  | some 0x42 => if remaining.length < 21 then .cut else .skipped 21
  | some 0x43 =>
    if remaining.length < 26 then .cut
    else match slice remaining 2 10 with
      | .ok lsn => .commit (bigEndian lsn) 26
      | .error failure => .failed failure
  | some 0x52 => .ofResult "relation" (fun (rel,n) => .relation rel n) (decodeRelation remaining)
  | some 0x49 => .ofResult "insert" (fun (change,n) => .change change n) (decodeInsert relations remaining)
  | some 0x55 => .ofResult "update" (fun (change,n) => .change change n) (decodeUpdate relations remaining)
  | some 0x44 => .ofResult "delete" (fun (change,n) => .change change n) (decodeDelete relations remaining)
  -- An Origin message is one byte shorter than what is skipped, and so is a Type message.
  | some 0x4F => .skipped (1+(nulFrom remaining 9+1))
  | some 0x59 =>
    let pos := if 5 < remaining.length then nulFrom remaining 5+1 else 5
    let pos := if pos < remaining.length then nulFrom remaining pos+1 else pos
    .skipped (1+pos)
  | some _ => .skipped remaining.length
end
/-- The loop of `decodeWAL`. Every turn takes a byte, so that the length of the data is enough fuel. -/
def decodeLoop (baseLSN : Nat) : Nat → Relations → Bytes → List Change → Nat → Relations × Result (List Change × Nat)
  | 0, relations, _, changes, maxLSN => (relations,.ok (changes,if maxLSN = 0 then baseLSN else maxLSN))
  | fuel+1, relations, remaining, changes, maxLSN =>
    if remaining = [] then (relations,.ok (changes,if maxLSN = 0 then baseLSN else maxLSN))
    else match decodeMessage relations remaining with
      | .cut => (relations,.ok (changes,maxLSN))
      | .skipped width => decodeLoop baseLSN fuel relations (remaining.drop width) changes maxLSN
      | .commit lsn width => decodeLoop baseLSN fuel relations (remaining.drop width) changes (max maxLSN lsn)
      | .relation rel width =>
        decodeLoop baseLSN fuel (Function.update relations rel.id (some rel)) (remaining.drop width) changes maxLSN
      | .change change width => decodeLoop baseLSN fuel relations (remaining.drop width) (changes ++ [change]) maxLSN
      | .failed failure => (relations,.error failure)
/-- `decodeWAL`: the relations it leaves, and the changes with the LSN of the batch. -/
def decodeWAL (relations : Relations) (walData : Bytes) (baseLSN : Nat) : Relations × Result (List Change × Nat) :=
  decodeLoop baseLSN walData.length relations walData [] 0
def decode (relations : Relations) (data : Bytes) : Relations × Result (List Change × Nat) :=
  if data.length < 25 then (relations,fail ("cdc: CopyData too short: " ++ toString data.length ++ " bytes"))
  else if data.head? ≠ some 0x77 then decodeWAL relations data 0
  else match slice data 1 9 with
    | .ok lsn => decodeWAL relations (data.drop 25) (bigEndian lsn)
    | .error failure => (relations,.error failure)

end Stellabill.Pgoutput
