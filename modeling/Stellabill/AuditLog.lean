import Mathlib.Data.List.TakeWhile
import Stellabill.JsonText
import Stellabill.Transitions

/-!
The audit log: one line of JSON for each event, with the hash of the line before and a hash of its
own. The hash is computed from the event in memory and checked on the event that is read back from
its line.
-/
namespace Stellabill.AuditLog
open ByteStrings JsonText Transitions List

/-- An event in memory. The time and the metadata are what `encoding/json` writes for them, or the error of writing them. -/
structure AuditEvent where
  timestamp : Except String Bytes
  requestID : Bytes
  actor : Bytes
  action : Bytes
  resource : Bytes
  outcome : Bytes
  metadata : Except String Members
  prevHash : Bytes
  hash : Bytes

/-- From outside: SHA-256, and the literals of numbers and times that are read and written again. -/
structure Library where
  sha256 : Bytes → Bytes
  float : Bytes → Option Bytes
  readTime : Bytes → Option Bytes
  writesNumbers : WritesNumbers float
  writesTimes : ∀ literal written, readTime literal = some written → ∀ byte ∈ written, PlainByte byte

inductive Field
  | timestamp | requestID | actor | action | resource | outcome | metadata | prevHash | hash
  deriving DecidableEq
def Field.name : Field → Bytes
  | .timestamp => text "timestamp"
  | .requestID => text "request_id"
  | .actor => text "actor"
  | .action => text "action"
  | .resource => text "resource"
  | .outcome => text "outcome"
  | .metadata => text "metadata"
  | .prevHash => text "prev_hash"
  | .hash => text "hash"

def stringMember (field : Field) (value : Bytes) : Bytes × Doc := (field.name,.str (quote value))
/-- `omitempty`. -/
def optionalMember (field : Field) (value : Bytes) : Members := if value = [] then [] else [stringMember field value]
def metadataMember (metadata : Members) : Members := if metadata.isEmpty then [] else [(Field.metadata.name,.obj metadata)]
def AuditEvent.members (e : AuditEvent) (timestamp : Bytes) (metadata : Members) : Members :=
  [(Field.timestamp.name,.str timestamp),stringMember .requestID e.requestID,stringMember .actor e.actor,stringMember .action e.action,
    stringMember .resource e.resource,stringMember .outcome e.outcome] ++
  (metadataMember metadata ++ (optionalMember .prevHash e.prevHash ++ optionalMember .hash e.hash))
def AuditEvent.document (e : AuditEvent) : Except String Doc :=
  match e.timestamp,e.metadata with
  | .ok timestamp,.ok metadata => .ok (.obj (e.members timestamp metadata))
  | .error message,_ => .error message
  | .ok _,.error message => .error message
def AuditEvent.marshal (e : AuditEvent) : Except String Bytes := e.document.map render

def fields : List Field := [.timestamp,.requestID,.actor,.action,.resource,.outcome,.metadata,.prevHash,.hash]
/-- The field of a name, in capitals or not. -/
def fieldOf (name : Bytes) : Option Field := fields.find? (fun field => foldName name = foldName field.name)
def setString (old : Bytes) : Doc → Option Bytes
  | .null => some old
  | .str literal => some (unquote literal)
  | _ => none
section
variable (lib : Library)
def setTime (old : Except String Bytes) : Doc → Option (Except String Bytes)
  | .null => some old
  | .str literal => (lib.readTime literal).map .ok
  | _ => none
def setMetadata (old : Except String Members) : Doc → Option (Except String Members)
  | .null => some (.ok [])
  | .obj members => (rereadMembers lib.float members (old.toOption.getD [])).map .ok
  | _ => none
def setField (e : AuditEvent) (doc : Doc) : Field → Option AuditEvent
  | .timestamp => (setTime lib e.timestamp doc).map fun timestamp => { e with timestamp }
  | .requestID => (setString e.requestID doc).map fun requestID => { e with requestID }
  | .actor => (setString e.actor doc).map fun actor => { e with actor }
  | .action => (setString e.action doc).map fun action => { e with action }
  | .resource => (setString e.resource doc).map fun resource => { e with resource }
  | .outcome => (setString e.outcome doc).map fun outcome => { e with outcome }
  | .metadata => (setMetadata lib e.metadata doc).map fun metadata => { e with metadata }
  | .prevHash => (setString e.prevHash doc).map fun prevHash => { e with prevHash }
  | .hash => (setString e.hash doc).map fun hash => { e with hash }
def setMember (e : AuditEvent) (member : Bytes × Doc) : Option AuditEvent :=
  match fieldOf (unquote member.1) with
  | none => some e
  | some field => setField lib e member.2 field
def setMembers (lib : Library) : AuditEvent → Members → Option AuditEvent
  | e, [] => some e
  | e, member :: rest => (setMember lib e member).bind fun e => setMembers lib e rest

def zeroEvent : AuditEvent := ⟨.ok (text "0001-01-01T00:00:00Z"),[],[],[],[],[],.ok [],[],[]⟩
def maxDepth : Nat := 10000
/-- `json.Unmarshal` into a new event. -/
def decode (line : Bytes) : Option AuditEvent :=
  match parse maxDepth line with
  | some .null => some zeroEvent
  | some (.obj members) => setMembers lib zeroEvent members
  | _ => none

/-- The bytes that the hash is taken of; none if the event cannot be written. -/
def AuditEvent.hashed (e : AuditEvent) : Bytes := (AuditEvent.marshal { e with hash := [] }).toOption.getD []
def computeHash (e : AuditEvent) : Bytes := hexEncode (lib.sha256 e.hashed)

def beginLine (byte : UInt8) : List Bytes → List Bytes
  | [] => [[byte]]
  | line :: rest => (byte :: line) :: rest
/-- The lines, as `bufio.ScanLines` finds them. -/
def linesOf : Bytes → List Bytes
  | [] => []
  | byte :: rest => if byte = 0x0A then [] :: linesOf rest else beginLine byte (linesOf rest)
def dropCR (line : Bytes) : Bytes := if line.getLast? = some 0x0D then line.dropLast else line
def fits (line : Bytes) : Bool := line.length < 65536
/-- The lines up to the first that does not fit. -/
def scanLines (data : Bytes) : List Bytes := ((linesOf data).takeWhile fits).map dropCR
def tooLong (data : Bytes) : Bool := (linesOf data).any (fun line => !fits line)

inductive Refusal
  | missing
  | invalidJSON (lineNum : Nat)
  | brokenChain (lineNum : Nat) (expected got : Bytes)
  | hashMismatch (lineNum : Nat) (expected got : Bytes)
  | tokenTooLong
  deriving DecidableEq

def verifyLines (lib : Library) : Nat → Bytes → List Bytes → Except Refusal Unit
  | _, _, [] => .ok ()
  | lineNum, expectedPrev, line :: rest =>
    if line = [] then verifyLines lib (lineNum+1) expectedPrev rest
    else match decode lib line with
      | none => .error (.invalidJSON lineNum)
      | some e =>
        if e.prevHash ≠ expectedPrev then .error (.brokenChain lineNum expectedPrev e.prevHash)
        else if computeHash lib e ≠ e.hash then .error (.hashMismatch lineNum e.hash (computeHash lib e))
        else verifyLines lib (lineNum+1) e.hash rest
def verify (file : Option Bytes) : Except Refusal Unit :=
  match file with
  | none => .error .missing
  | some data =>
    match verifyLines lib 1 [] (scanLines data) with
    | .error refusal => .error refusal
    | .ok _ => if tooLong data then .error .tokenTooLong else .ok ()

structure FileSink where
  lastHash : Bytes
  init : Bool
  deriving DecidableEq

def newFileSink : FileSink := ⟨[],false⟩
def loadLastHash (file : Option Bytes) (sink : FileSink) : Option FileSink :=
  match file with
  | none => some { sink with init := true }
  | some data =>
    if tooLong data then none
    else match ((scanLines data).filter (· ≠ [])).getLast? with
      | none => some { sink with init := true }
      | some line => (decode lib line).map fun lastEvent => ⟨lastEvent.hash,true⟩
end

structure State where
  file : Option Bytes
  sink : FileSink

/-- How the calls to the file system go: the file is not read, or not opened, or only so many bytes are written. -/
structure Disk where
  unreadable : Bool
  unopened : Bool
  kept : Option Nat
def sound : Disk := ⟨false,false,none⟩

section
variable (lib : Library)

def State.loaded (s : State) (disk : Disk) : Option FileSink :=
  if s.sink.init then some s.sink
  else if disk.unreadable then none
  else loadLastHash lib s.file s.sink
def sealed (lastHash : Bytes) (e : AuditEvent) : AuditEvent :=
  let e := { e with prevHash := lastHash }
  { e with hash := computeHash lib e }
/-- `WriteEvent`: whether it succeeds, and the state after it. -/
def writeEvent (s : State) (e : AuditEvent) (disk : Disk) : Bool × State :=
  match s.loaded lib disk with
  | none => (false,s)
  | some sink =>
    if disk.unopened then (false,{ s with sink })
    else match (sealed lib sink.lastHash e).marshal with
      | .error _ => (false,⟨some (s.file.getD []),sink⟩)
      | .ok encoded =>
        match disk.kept with
        | some n => (false,⟨some (s.file.getD [] ++ (encoded ++ [0x0A]).take n),sink⟩)
        | none => (true,⟨some (s.file.getD [] ++ (encoded ++ [0x0A])),{ sink with lastHash := (sealed lib sink.lastHash e).hash }⟩)

inductive Action
  | write (e : AuditEvent) (disk : Disk)
  | restart

def start : State := ⟨none,newFileSink⟩
def step (s : State) : Action → Option State
  | .write e disk => some (writeEvent lib s e disk).2
  | .restart => some { s with sink := newFileSink }
end

/-! ### An event is read back -/

section
variable {lib : Library} {e : AuditEvent} {timestamp line : Bytes} {metadata : Members}

private theorem name_literal (field : Field) : IsLiteral field.name := by
  refine (scans_plain ?_).isLiteral
  cases field <;> decide +kernel
theorem fieldOf_name (field : Field) : fieldOf (unquote field.name) = some field := by cases field <;> decide +kernel

private theorem cleanMembers_append {first second : Members} (clean : CleanMembers first) (clean' : CleanMembers second) :
    CleanMembers (first ++ second) := by
  induction first with
  | nil => exact clean'
  | cons member rest ih =>
    exact ⟨clean.1,clean.2.1,ih clean.2.2⟩

variable {rest : Members} {value : Bytes}

theorem cleanMembers_cons {field : Field} {doc : Doc} (clean : doc.Clean) (later : CleanMembers rest) :
    CleanMembers ((field.name,doc) :: rest) :=
  ⟨name_literal field,clean,later⟩
theorem cleanMembers_nil : CleanMembers [] := by
  trivial
theorem clean_quote (value : Bytes) : (Doc.str (quote value)).Clean :=
  isLiteral_quote value
private theorem clean_optional (field : Field) (value : Bytes) : CleanMembers (optionalMember field value) := by
  unfold optionalMember
  split
  · exact cleanMembers_nil
  · exact cleanMembers_cons (clean_quote value) cleanMembers_nil
theorem clean_members (time : IsLiteral timestamp) (clean : CleanMembers metadata) : (Doc.obj (e.members timestamp metadata)).Clean := by
  refine cleanMembers_append ?_ (cleanMembers_append ?_ (cleanMembers_append (clean_optional _ _) (clean_optional _ _)))
  · refine cleanMembers_cons (by rwa [Doc.Clean]) ?_
    exact cleanMembers_cons (clean_quote _) (cleanMembers_cons (clean_quote _) (cleanMembers_cons (clean_quote _)
      (cleanMembers_cons (clean_quote _) (cleanMembers_cons (clean_quote _) cleanMembers_nil))))
  · unfold metadataMember
    split
    · exact cleanMembers_nil
    · exact cleanMembers_cons (by rwa [Doc.Clean]) cleanMembers_nil

/-- What is written for the event is what is written for it when it has been read back. -/
structure Canonical (lib : Library) (e : AuditEvent) : Prop where
  timestamp : ∃ literal, e.timestamp = .ok literal ∧ lib.readTime literal = some literal
  requestID : validString e.requestID = true
  actor : validString e.actor = true
  action : validString e.action = true
  resource : validString e.resource = true
  outcome : validString e.outcome = true
  metadata : ∃ members, e.metadata = .ok members ∧ (Doc.obj members).Canonical lib.float ∧ (Doc.obj members).depth < maxDepth

theorem setMember_name (field : Field) (doc : Doc) : setMember lib e (field.name,doc) = setField lib e doc field := by
  rw [setMember,fieldOf_name]
theorem setString_quote (old : Bytes) (valid : validString value = true) : setString old (.str (quote value)) = some value := by
  rw [setString,unquote_quote valid]
theorem setMembers_prevHash (unset : e.prevHash = []) (valid : validString value = true) :
    setMembers lib e (optionalMember .prevHash value ++ rest) = setMembers lib { e with prevHash := value } rest := by
  unfold optionalMember
  split
  · next empty => rw [nil_append,empty,← unset]
  · rw [singleton_append,setMembers,stringMember,setMember_name,setField,setString_quote _ valid]
    rfl
theorem setMembers_hash (unset : e.hash = []) (valid : validString value = true) :
    setMembers lib e (optionalMember .hash value ++ rest) = setMembers lib { e with hash := value } rest := by
  unfold optionalMember
  split
  · next empty => rw [nil_append,empty,← unset]
  · rw [singleton_append,setMembers,stringMember,setMember_name,setField,setString_quote _ valid]
    rfl
private theorem setMembers_metadata (unset : e.metadata = .ok []) (canonical : (Doc.obj metadata).Canonical lib.float) :
    setMembers lib e (metadataMember metadata ++ rest) = setMembers lib { e with metadata := .ok metadata } rest := by
  unfold metadataMember
  split
  · next empty => rw [nil_append,isEmpty_iff.mp empty,← unset]
  · rw [singleton_append,setMembers,setMember_name,setField,setMetadata,unset]
    have read := rereadMembers_canonical metadata [] canonical.2 canonical.1
    simp [Except.toOption,read]

theorem depthMembers_append (first second : Members) : depthMembers (first ++ second) = max (depthMembers first) (depthMembers second) := by
  induction first with
  | nil => simp [depthMembers]
  | cons member rest ih => rw [cons_append,depthMembers,depthMembers,ih,Nat.max_assoc]
private theorem depth_optional (field : Field) : depthMembers (optionalMember field value) = 0 := by
  unfold optionalMember
  split <;> simp [stringMember,depthMembers,Doc.depth]
theorem depth_members (shallow : (Doc.obj metadata).depth < maxDepth) : (Doc.obj (e.members timestamp metadata)).depth ≤ maxDepth := by
  have inner : depthMembers (metadataMember metadata) ≤ (Doc.obj metadata).depth := by
    unfold metadataMember
    split <;> simp [depthMembers]
  rw [Doc.depth,AuditEvent.members,depthMembers_append,depthMembers_append,depthMembers_append,depth_optional,depth_optional]
  simp only [stringMember,depthMembers,Doc.depth,Nat.max_self,Nat.max_zero,Nat.zero_max]
  omega

theorem decode_marshal (canonical : Canonical lib e) (validPrev : validString e.prevHash = true) (valid : validString e.hash = true) :
    ∃ line, e.marshal = .ok line ∧ decode lib line = some e ∧ Printable line := by
  obtain ⟨literal,time,readTime⟩ := canonical.timestamp
  obtain ⟨metadata,written,canonicalMetadata,shallow⟩ := canonical.metadata
  have clean : (Doc.obj (e.members literal metadata)).Clean := by
    refine clean_members (scans_plain (lib.writesTimes _ _ readTime)).isLiteral ?_
    have clean := canonical_clean lib.writesNumbers canonicalMetadata
    rwa [Doc.Clean] at clean
  refine ⟨render (.obj (e.members literal metadata)),by rw [AuditEvent.marshal,AuditEvent.document,time,written]; rfl,?_,
    render_printable _ clean⟩
  rw [decode,parse_render clean (depth_members shallow)]
  simp only [AuditEvent.members,cons_append,nil_append,setMembers,stringMember,setMember_name,setField,setTime,readTime,
    setString_quote _ canonical.requestID,setString_quote _ canonical.actor,setString_quote _ canonical.action,
    setString_quote _ canonical.resource,setString_quote _ canonical.outcome,Option.map_some,Option.bind_some]
  rw [setMembers_metadata rfl canonicalMetadata,setMembers_prevHash rfl validPrev,← append_nil (optionalMember .hash e.hash),
    setMembers_hash rfl valid,setMembers,← time,← written]
end

section
variable {line rest : Bytes}

theorem linesOf_line (whole : 0x0A ∉ line) : linesOf (line ++ 0x0A :: rest) = line :: linesOf rest := by
  induction line with
  | nil => simp [linesOf]
  | cons byte line ih =>
    have other : byte ≠ 0x0A := fun same => whole (same ▸ mem_cons_self)
    rw [cons_append,linesOf,if_neg other,ih (fun listed => whole (mem_cons_of_mem _ listed)),beginLine]
theorem dropCR_printable (printable : Printable line) : dropCR line = line := by
  unfold dropCR
  split
  · next last => exact absurd (printable _ (mem_of_getLast? last)) (by decide)
  · rfl
end

section
variable {lib : Library} {e : AuditEvent} {line prev : Bytes} {entries : List (AuditEvent × Bytes)}

/-- A line of the file that is read as the event. -/
structure Entry (lib : Library) (e : AuditEvent) (line : Bytes) : Prop where
  read : decode lib line = some e
  printable : Printable line
  short : fits line = true

/-- Events with their lines, each with the hash of the one before. -/
def Log (lib : Library) : Bytes → List (AuditEvent × Bytes) → Prop
  | _, [] => True
  | prev, (e,line) :: rest => Entry lib e line ∧ e.prevHash = prev ∧ computeHash lib e = e.hash ∧ Log lib e.hash rest
def lastHash : Bytes → List (AuditEvent × Bytes) → Bytes
  | prev, [] => prev
  | _, (e,_) :: rest => lastHash e.hash rest
def contents (entries : List (AuditEvent × Bytes)) : Bytes := entries.flatMap (fun entry => entry.2 ++ [0x0A])

theorem lastHash_append : lastHash prev (entries ++ [(e,line)]) = e.hash := by
  induction entries generalizing prev with
  | nil => rfl
  | cons entry rest ih => exact ih
theorem contents_append : contents (entries ++ [(e,line)]) = contents entries ++ (line ++ [0x0A]) := by
  simp [contents]
theorem Log.append (log : Log lib prev entries) (entry : Entry lib e line) (linked : e.prevHash = lastHash prev entries)
    (hashed : computeHash lib e = e.hash) : Log lib prev (entries ++ [(e,line)]) := by
  induction entries generalizing prev with
  | nil => exact ⟨entry,linked,hashed,trivial⟩
  | cons first rest ih =>
    obtain ⟨known,before,hash,later⟩ := log
    exact ⟨known,before,hash,ih later linked⟩
theorem Log.entry (log : Log lib prev entries) : ∀ entry ∈ entries, Entry lib entry.1 entry.2 := by
  induction entries generalizing prev with
  | nil => rintro _ ⟨⟩
  | cons first rest ih => exact forall_mem_cons.mpr ⟨log.1,ih log.2.2.2⟩
theorem Log.valid (log : Log lib prev entries) (valid : validString prev = true) : validString (lastHash prev entries) = true := by
  induction entries generalizing prev with
  | nil => exact valid
  | cons first rest ih =>
    refine ih log.2.2.2 ?_
    rw [← log.2.2.1]
    exact hexEncode_valid _

theorem Entry.present (entry : Entry lib e line) : line ≠ [] := by
  rintro rfl
  cases entry.read
theorem linesOf_contents (known : ∀ entry ∈ entries, Entry lib entry.1 entry.2) : linesOf (contents entries) = entries.map Prod.snd := by
  induction entries with
  | nil => rfl
  | cons entry rest ih =>
    obtain ⟨first,later⟩ := forall_mem_cons.mp known
    have whole : 0x0A ∉ entry.2 := fun listed => absurd (first.printable _ listed) (by decide)
    rw [contents,flatMap_cons,append_assoc,singleton_append,linesOf_line whole,← contents,ih later]
    rfl
theorem scanLines_contents (known : ∀ entry ∈ entries, Entry lib entry.1 entry.2) :
    scanLines (contents entries) = entries.map Prod.snd ∧ tooLong (contents entries) = false := by
  have each : ∀ line ∈ entries.map Prod.snd, fits line = true ∧ dropCR line = line := by
    intro line listed
    obtain ⟨entry,present,rfl⟩ := mem_map.mp listed
    exact ⟨(known entry present).short,dropCR_printable (known entry present).printable⟩
  rw [scanLines,tooLong,linesOf_contents known]
  constructor
  · rw [takeWhile_eq_self_iff.mpr (fun line listed => (each line listed).1)]
    exact (map_congr_left fun line listed => (each line listed).2).trans (map_id _)
  · refine any_eq_false.mpr fun line listed => ?_
    simp [(each line listed).1]
theorem verifyLines_log (log : Log lib prev entries) (lineNum : Nat) : verifyLines lib lineNum prev (entries.map Prod.snd) = .ok () := by
  induction entries generalizing prev lineNum with
  | nil => rfl
  | cons entry rest ih =>
    obtain ⟨known,linked,hashed,later⟩ := log
    rw [map_cons,verifyLines,if_neg known.present,known.read]
    simp [linked,hashed,ih later]
theorem verify_log (log : Log lib [] entries) : verify lib (some (contents entries)) = .ok () := by
  obtain ⟨lines,short⟩ := scanLines_contents log.entry
  rw [verify,lines,verifyLines_log log,short]
  rfl

/-! ### Every run -/

/-- The file is a log whose last hash the sink knows, once it has looked. -/
structure Kept (lib : Library) (s : State) (entries : List (AuditEvent × Bytes)) : Prop where
  log : Log lib [] entries
  file : (s.file = none ∧ entries = []) ∨ s.file = some (contents entries)
  sink : s.sink.lastHash = if s.sink.init then lastHash [] entries else []

variable {s t : State} {disk : Disk} {sink : FileSink}

section
variable (kept : Kept lib s entries)
include kept
theorem Kept.file_getD : s.file.getD [] = contents entries := by
  obtain ⟨absent,rfl⟩ | present := kept.file
  · rw [absent]
    rfl
  · rw [present]
    rfl
theorem Kept.loadLastHash (unset : s.sink.init = false) : loadLastHash lib s.file s.sink = some ⟨lastHash [] entries,true⟩ := by
  have empty := kept.sink
  rw [unset] at empty
  obtain ⟨absent,rfl⟩ | present := kept.file
  · rw [absent,AuditLog.loadLastHash,empty]
    rfl
  · obtain ⟨lines,short⟩ := scanLines_contents kept.log.entry
    have whole : (entries.map Prod.snd).filter (· ≠ []) = entries.map Prod.snd := by
      refine filter_eq_self.mpr fun line listed => ?_
      obtain ⟨entry,known,rfl⟩ := mem_map.mp listed
      simpa using (kept.log.entry entry known).present
    rw [present,AuditLog.loadLastHash,short,lines,whole]
    obtain rfl | ⟨front,⟨e,line⟩,rfl⟩ := eq_nil_or_concat entries
    · rw [empty]
      rfl
    · have read := (kept.log.entry (e,line) (by simp)).read
      simp [read,lastHash_append]
theorem Kept.loaded (found : s.loaded lib disk = some sink) : sink = ⟨lastHash [] entries,true⟩ := by
  unfold State.loaded at found
  split at found
  · next set =>
    have hash := kept.sink
    cases found
    cases sink : s.sink
    simp_all
  · next unset =>
    split at found
    · cases found
    · rw [kept.loadLastHash (by simpa using unset)] at found
      exact (Option.some.inj found).symm
theorem Kept.loaded_sound : s.loaded lib sound = some ⟨lastHash [] entries,true⟩ := by
  cases found : s.loaded lib sound with
  | some sink => rw [kept.loaded found]
  | none =>
    unfold State.loaded at found
    split at found
    · cases found
    · next unset =>
      rw [kept.loadLastHash (by simpa using unset)] at found
      cases found
end

private theorem entry_sealed {hash encoded : Bytes} (canonical : Canonical lib e) (valid : validString hash = true)
    (written : (sealed lib hash e).marshal = .ok encoded) (short : fits encoded = true) : Entry lib (sealed lib hash e) encoded := by
  have canonical : Canonical lib (sealed lib hash e) :=
    ⟨canonical.timestamp,canonical.requestID,canonical.actor,canonical.action,canonical.resource,canonical.outcome,canonical.metadata⟩
  obtain ⟨line,same,read,printable⟩ := decode_marshal canonical valid (hexEncode_valid _)
  obtain rfl : line = encoded := Except.ok.inj (same.symm.trans written)
  exact ⟨read,printable,short⟩
private theorem computeHash_sealed (hash : Bytes) : computeHash lib (sealed lib hash e) = (sealed lib hash e).hash := rfl

/-- What can be written is canonical and fits a line, and a write takes effect as a whole or not at all. -/
def Careful (lib : Library) (s : State) : Action → Prop
  | .restart => True
  | .write e disk =>
    (∀ sink encoded, s.loaded lib disk = some sink → (sealed lib sink.lastHash e).marshal = .ok encoded → Canonical lib e ∧ fits encoded = true) ∧
      (disk.kept = none ∨ disk.kept = some 0)

theorem kept_write (kept : Kept lib s entries) (careful : Careful lib s (.write e disk)) :
    ∃ entries, Kept lib (writeEvent lib s e disk).2 entries := by
  unfold writeEvent
  cases found : s.loaded lib disk with
  | none => exact ⟨entries,kept⟩
  | some sink =>
    obtain rfl := kept.loaded found
    have opened : Kept lib ⟨some (s.file.getD []),⟨lastHash [] entries,true⟩⟩ entries := ⟨kept.log,.inr (by rw [kept.file_getD]),rfl⟩
    by_cases unopened : disk.unopened = true
    · simp only [unopened,↓reduceIte]
      exact ⟨entries,kept.log,kept.file,rfl⟩
    · simp only [unopened,Bool.false_eq_true,↓reduceIte]
      cases written : (sealed lib (lastHash [] entries) e).marshal with
      | error message => exact ⟨entries,opened⟩
      | ok encoded =>
        obtain none | nothing := careful.2
        · obtain ⟨canonical,short⟩ := careful.1 _ encoded found written
          have entry := entry_sealed canonical (kept.log.valid rfl) written short
          simp only [none]
          refine ⟨entries ++ [(sealed lib (lastHash [] entries) e,encoded)],kept.log.append entry rfl (computeHash_sealed _),.inr ?_,?_⟩
          · rw [kept.file_getD,contents_append]
          · rw [if_pos rfl,lastHash_append]
        · simp only [nothing,take_zero,append_nil]
          exact ⟨entries,opened⟩
private theorem kept_run (run : Reach (step lib) (Careful lib) start s) : ∃ entries, Kept lib s entries := by
  refine run.invariant (I := fun s => ∃ entries, Kept lib s entries) ⟨[],trivial,.inl ⟨rfl,rfl⟩,rfl⟩ ?_
  intro s a t ⟨entries,kept⟩ careful stepped
  cases a with
  | write e disk =>
    cases stepped
    exact kept_write kept careful
  | restart =>
    cases stepped
    exact ⟨entries,kept.log,kept.file,rfl⟩
theorem Kept.verify (kept : Kept lib s entries) (exists_ : s.file ≠ none) : verify lib s.file = .ok () := by
  obtain ⟨absent,_⟩ | present := kept.file
  · exact absurd absent exists_
  · rw [present,verify_log kept.log]
theorem Kept.writes (kept : Kept lib s entries) (canonical : Canonical lib e) :
    (writeEvent lib s e sound).1 = true ∧ (writeEvent lib s e sound).2.file ≠ none := by
  have canonical : Canonical lib (sealed lib (lastHash [] entries) e) :=
    ⟨canonical.timestamp,canonical.requestID,canonical.actor,canonical.action,canonical.resource,canonical.outcome,canonical.metadata⟩
  obtain ⟨line,written,_⟩ := decode_marshal canonical (kept.log.valid rfl) (hexEncode_valid _)
  rw [writeEvent,kept.loaded_sound]
  simp [sound,written]
end

/-- In a careful run the log is accepted, and every event that can be written can be added to it. -/
theorem log_accepted {lib : Library} {s : State} (run : Reach (step lib) (Careful lib) start s) :
    (s.file ≠ none → verify lib s.file = .ok ()) ∧ ∀ e, Canonical lib e → Careful lib s (.write e sound) →
        (writeEvent lib s e sound).1 = true ∧ verify lib (writeEvent lib s e sound).2.file = .ok () := by
  obtain ⟨entries,kept⟩ := kept_run run
  refine ⟨kept.verify,fun e canonical careful => ?_⟩
  obtain ⟨later,kept'⟩ := kept_write kept careful
  obtain ⟨succeeds,created⟩ := kept.writes canonical
  exact ⟨succeeds,kept'.verify created⟩

def plainLibrary : Library where
  sha256 := id
  float literal := if validNumber literal = true ∧ ∀ byte ∈ literal, numberByte byte = true then some literal else none
  readTime literal := if ∀ byte ∈ literal, PlainByte byte then some literal else none
  writesNumbers literal written found := by
    dsimp only at found
    split at found
    · next number => exact Option.some.inj found ▸ number
    · cases found
  writesTimes literal written found := by
    split at found
    · next plain => exact Option.some.inj found ▸ plain
    · cases found

def login : AuditEvent :=
  ⟨.ok (text "2026-01-05T08:00:00Z"),text "req-1",text "ann",text "admin.login",text "/admin",text "success",.ok [(text "ip",.str (text "::1"))],[],[]⟩

private theorem canonical_login : Canonical plainLibrary login := by
  refine ⟨⟨_,rfl,by decide +kernel⟩,by decide +kernel,by decide +kernel,by decide +kernel,by decide +kernel,by decide +kernel,_,rfl,?_,?_⟩
  · have name : requote (text "ip") = text "ip" := by decide +kernel
    have address : requote (text "::1") = text "::1" := by decide +kernel
    simp [Doc.Canonical,CanonicalMembers,Sorted,name,address]
  · simp [Doc.depth,depthMembers,maxDepth]
private theorem careful_login {s : State} (short : (s.loaded plainLibrary sound).all (fun sink =>
    (sealed plainLibrary sink.lastHash login).marshal.toOption.all fits) = true) : Careful plainLibrary s (.write login sound) := by
  refine ⟨fun sink encoded found written => ⟨canonical_login,?_⟩,.inl rfl⟩
  rw [found,Option.all_some,written] at short
  exact short
/-- An event, a restart, and another event. -/
theorem log_accepted_login : ∃ s, Reach (step plainLibrary) (Careful plainLibrary) start s ∧ (s.file.getD []).count 0x0A = 2 ∧
    verify plainLibrary s.file = .ok () := by
  have first : Reach (step plainLibrary) (Careful plainLibrary) start _ := Reach.start.next (careful_login (by decide +kernel)) rfl
  have again : Careful plainLibrary (writeEvent plainLibrary start login sound).2 .restart := trivial
  have run := (first.next again rfl).next (careful_login (by decide +kernel)) rfl
  exact ⟨_,run,by decide +kernel,(log_accepted run).1 (by decide +kernel)⟩

/-- A write is cut short after one byte: the log is refused, and after a restart nothing can be added. -/
theorem cut_short_refused : ∃ s, Reach (step plainLibrary) Any start s ∧ s.file = some [0x7B] ∧
    verify plainLibrary s.file = .error (.invalidJSON 1) ∧ ∀ e disk, (writeEvent plainLibrary s e disk).1 = false := by
  obtain ⟨s,ran,file,unset⟩ := run_seen (step plainLibrary) start [.write login ⟨false,false,some 1⟩,.restart]
    (fun s => s.file = some [0x7B] ∧ s.sink = newFileSink) (by decide +kernel)
  refine ⟨s,run_any ran,file,by rw [file]; rfl,fun e disk => ?_⟩
  have nothing : s.loaded plainLibrary disk = none := by
    rw [State.loaded,unset,file]
    cases disk.unreadable <;> rfl
  rw [writeEvent,nothing]

end Stellabill.AuditLog
