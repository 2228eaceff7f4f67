import Stellabill.ByteStrings

/-!
JSON texts byte by byte, as `encoding/json` writes and reads them. Reading a document into a
value of no particular type and writing that value again changes the literals: strings are
quoted anew, numbers go through a `float64`, and the members of an object are put in order.
-/
namespace Stellabill.JsonText
open ByteStrings List
open Option (bind_some map_eq_some_iff)

/-- A JSON value; its literals are kept as they are written. -/
inductive Doc
  | null
  | bool (b : Bool)
  | num (literal : Bytes)
  | str (literal : Bytes)
  | arr (items : List Doc)
  | obj (members : List (Bytes × Doc))

abbrev Members := List (Bytes × Doc)

/-- How an ASCII character is written in a string; those of HTML are escaped. -/
def escapeByte (byte : UInt8) : Bytes :=
  if byte = 0x22 ∨ byte = 0x5C then [0x5C,byte]
  else if byte = 0x08 then [0x5C,0x62]
  else if byte = 0x0C then [0x5C,0x66]
  else if byte = 0x0A then [0x5C,0x6E]
  else if byte = 0x0D then [0x5C,0x72]
  else if byte = 0x09 then [0x5C,0x74]
  else if byte < 0x20 ∨ byte = 0x3C ∨ byte = 0x3E ∨ byte = 0x26 then [0x5C,0x75,0x30,0x30,hexChar (byte/16),hexChar (byte%16)]
  else [byte]
/-- The number of bytes of the first character, or of a byte that begins none. -/
def chunkWidth (data : Bytes) : Nat := (runeWidth data).getD 1
/-- How a character is written; a byte that is none as U+FFFD, and the two line separators escaped. -/
def quoteChunk : Bytes → Bytes
  | [byte] => if byte < 0x80 then escapeByte byte else [0x5C,0x75,0x66,0x66,0x66,0x64]
  | rune =>
    if rune = [0xE2,0x80,0xA8] then [0x5C,0x75,0x32,0x30,0x32,0x38]
    else if rune = [0xE2,0x80,0xA9] then [0x5C,0x75,0x32,0x30,0x32,0x39]
    else rune
def quoteLoop : Nat → Bytes → Bytes
  | 0, _ => []
  | fuel+1, data => if data = [] then [] else quoteChunk (data.take (chunkWidth data)) ++ quoteLoop fuel (data.drop (chunkWidth data))
/-- A string as a literal, without the quotation marks. -/
def quote (data : Bytes) : Bytes := quoteLoop data.length data

def simpleEscape (byte : UInt8) : Bool := byte ∈ [0x22,0x5C,0x2F,0x62,0x66,0x6E,0x72,0x74]
def fourHex : Bytes → Bool
  | a :: b :: c :: d :: _ => (hexDigit a).isSome && (hexDigit b).isSome && (hexDigit c).isSome && (hexDigit d).isSome
  | _ => false
/-- The literal up to the closing quotation mark, and what follows it; `escaped` after a backslash. -/
def scanFrom : Bool → Bytes → Option (Bytes × Bytes)
  | _, [] => none
  | true, byte :: rest =>
    if simpleEscape byte ∨ (byte = 0x75 ∧ fourHex rest) then (scanFrom false rest).map (fun scanned => (byte :: scanned.1,scanned.2)) else none
  | false, byte :: rest =>
    if byte = 0x22 then some ([],rest)
    else if byte = 0x5C then (scanFrom true rest).map (fun scanned => (byte :: scanned.1,scanned.2))
    else if byte < 0x20 then none
    else (scanFrom false rest).map (fun scanned => (byte :: scanned.1,scanned.2))
/-- Reads the literal of a string to its closing mark. -/
def scanString (data : Bytes) : Option (Bytes × Bytes) := scanFrom false data

def hex4 (a b c d : UInt8) : Option Nat := do
  some (((((← hexDigit a).toNat*16+(← hexDigit b).toNat)*16)+(← hexDigit c).toNat)*16+(← hexDigit d).toNat)
/-- A code point in UTF-8. -/
def encodeRune (n : Nat) : Bytes :=
  if n < 0x80 then [UInt8.ofNat n]
  else if n < 0x800 then [UInt8.ofNat (0xC0+n/64),UInt8.ofNat (0x80+n%64)]
  else if n < 0x10000 then [UInt8.ofNat (0xE0+n/4096),UInt8.ofNat (0x80+n/64%64),UInt8.ofNat (0x80+n%64)]
  else [UInt8.ofNat (0xF0+n/262144),UInt8.ofNat (0x80+n/4096%64),UInt8.ofNat (0x80+n/64%64),UInt8.ofNat (0x80+n%64)]
def replacement : Bytes := [0xEF,0xBF,0xBD]
/-- A code unit, with the second half of a surrogate pair if there is one. -/
def decodeUnit (n : Nat) (rest : Bytes) : Bytes × Bytes :=
  if 0xD800 ≤ n ∧ n < 0xE000 then
    match rest with
    | 0x5C :: 0x75 :: a :: b :: c :: d :: after =>
      match hex4 a b c d with
      | some m =>
        if n < 0xDC00 ∧ 0xDC00 ≤ m ∧ m < 0xE000 then (encodeRune (0x10000+(n-0xD800)*1024+(m-0xDC00)),after) else (replacement,rest)
      | none => (replacement,rest)
    | _ => (replacement,rest)
  else (encodeRune n,rest)
def unescape (byte : UInt8) : UInt8 :=
  if byte = 0x62 then 0x08
  else if byte = 0x66 then 0x0C
  else if byte = 0x6E then 0x0A
  else if byte = 0x72 then 0x0D
  else if byte = 0x74 then 0x09
  else byte
def readEscape (data : Bytes) : Bytes × Bytes :=
  match data with
  | [] => ([],[])
  | byte :: rest =>
    if byte = 0x75 then
      match rest with
      | a :: b :: c :: d :: rest => ((hex4 a b c d).map (fun n => decodeUnit n rest)).getD ([],rest)
      | _ => ([],rest)
    else ([unescape byte],rest)
/-- The next character of a literal, decoded, and what follows it. -/
def readChunk (data : Bytes) : Bytes × Bytes :=
  if data.head? = some 0x5C then readEscape data.tail
  else match runeWidth data with
    | none => (replacement,data.tail)
    | some width => (data.take width,data.drop width)
def unquoteLoop : Nat → Bytes → Bytes
  | 0, _ => []
  | fuel+1, data => if data = [] then [] else (readChunk data).1 ++ unquoteLoop fuel (readChunk data).2
/-- The string that a literal stands for. -/
def unquote (literal : Bytes) : Bytes := unquoteLoop literal.length literal
/-- A literal is read and written again. -/
def requote (literal : Bytes) : Bytes := quote (unquote literal)

example : unquote (text "a\\u00e9\\ud83d\\ude00\\n\\ud800x") = text "aé😀\n" ++ replacement ++ text "x" ∧
    quote (text "<a>\"é " ++ [0xFF]) = text "\\u003ca\\u003e\\\"é\\u2028\\ufffd" := by decide +kernel

/-- The quotation mark after the literal is the first that is found. -/
def IsLiteral (literal : Bytes) : Prop := ∀ rest, scanString (literal ++ 0x22 :: rest) = some (literal,rest)

section
variable {data rune piece literal tail : Bytes} {byte : UInt8} {fuel : Nat}

/-- A byte that stands for itself in a literal. -/
def PlainByte (byte : UInt8) : Prop := 0x20 ≤ byte ∧ byte ≠ 0x22 ∧ byte ≠ 0x5C
  deriving Decidable

/-- The piece is read whole, whatever follows. -/
def Scans (piece : Bytes) : Prop := ∀ tail, scanString (piece ++ tail) = (scanString tail).map (fun scanned => (piece ++ scanned.1,scanned.2))

theorem Scans.append {other : Bytes} (first : Scans piece) (second : Scans other) : Scans (piece ++ other) := by
  intro tail
  rw [append_assoc,first,second,Option.map_map]
  congr 1
  funext scanned
  simp
theorem scans_nil : Scans [] := fun tail => by simp
private theorem scanString_plain (plain : PlainByte byte) (rest : Bytes) :
    scanString (byte :: rest) = (scanString rest).map (fun scanned => (byte :: scanned.1,scanned.2)) := by
  obtain ⟨printable,mark,backslash⟩ := plain
  rw [scanString,scanFrom,if_neg mark,if_neg backslash,if_neg (UInt8.not_lt.mpr printable),scanString]
theorem scanString_escape {escape : UInt8} {rest : Bytes} (legal : simpleEscape escape = true ∨ (escape = 0x75 ∧ fourHex rest = true)) :
    scanString (0x5C :: escape :: rest) = (scanString rest).map (fun scanned => (0x5C :: escape :: scanned.1,scanned.2)) := by
  rw [scanString,scanFrom,scanFrom,if_pos legal,Option.map_map]
  rfl
theorem scans_plain (plain : ∀ byte ∈ piece, PlainByte byte) : Scans piece := by
  induction piece with
  | nil => exact scans_nil
  | cons byte rest ih =>
    intro tail
    rw [cons_append,scanString_plain (plain byte mem_cons_self),ih (fun b listed => plain b (mem_cons_of_mem _ listed)),
      Option.map_map]
    rfl
theorem Scans.isLiteral (scans : Scans literal) : IsLiteral literal := by
  intro rest
  rw [scans]
  simp [scanString,scanFrom]

private theorem scans_simple (simple : simpleEscape byte = true) : Scans [0x5C,byte] := fun _ => scanString_escape (.inl simple)
theorem scans_unit {a b c d : UInt8} (hex : fourHex [a,b,c,d] = true) (plain : [a,b,c,d].all (fun byte => PlainByte byte) = true) :
    Scans [0x5C,0x75,a,b,c,d] := by
  intro tail
  have after := scans_plain (fun byte listed => of_decide_eq_true (all_eq_true.mp plain byte listed)) tail
  simp only [cons_append,nil_append] at after ⊢
  rw [scanString_escape (.inr ⟨rfl,by exact hex⟩),after,Option.map_map]
  rfl

theorem unit_ascii : ∀ n < 128, fourHex [0x30,0x30,hexChar (UInt8.ofNat n/16),hexChar (UInt8.ofNat n%16)] = true ∧
    [0x30,0x30,hexChar (UInt8.ofNat n/16),hexChar (UInt8.ofNat n%16)].all (fun byte => PlainByte byte) = true ∧
    hex4 0x30 0x30 (hexChar (UInt8.ofNat n/16)) (hexChar (UInt8.ofNat n%16)) = some n := by decide +kernel
private theorem scans_escapeByte (ascii : byte < 0x80) : Scans (escapeByte byte) := by
  unfold escapeByte
  have digits := unit_ascii byte.toNat ascii
  rw [UInt8.ofNat_toNat] at digits
  repeat' split
  · exact scans_simple (by rcases ‹_ ∨ _› with rfl | rfl <;> rfl)
  all_goals try exact scans_simple rfl
  · exact scans_unit digits.1 digits.2.1
  · exact scans_plain fun b listed => by simp_all [PlainByte]
theorem plain_high (high : 0x80 ≤ byte) : PlainByte byte := by
  refine ⟨UInt8.le_trans (by decide) high,?_,?_⟩ <;> rintro rfl <;> exact absurd high (by decide)
private theorem scans_quoteChunk (present : data ≠ []) : Scans (quoteChunk (data.take (chunkWidth data))) := by
  unfold chunkWidth
  cases found : runeWidth data with
  | none =>
    obtain ⟨byte,rest,rfl⟩ := exists_cons_of_ne_nil present
    rw [Option.getD_none,take_succ_cons,take_zero,quoteChunk]
    split
    · exact scans_escapeByte ‹_›
    · exact scans_unit (by decide) (by decide)
  | some width =>
    rw [Option.getD_some]
    obtain ⟨_,short,_,⟨rfl,ascii⟩ | ⟨long,high⟩⟩ := runeWidth_take found
    · obtain ⟨byte,rest,rfl⟩ := exists_cons_of_ne_nil present
      have ascii : byte < 0x80 := ascii byte (by simp)
      simpa [quoteChunk,ascii] using scans_escapeByte ascii
    · have size := length_take_of_le short
      unfold quoteChunk
      split
      · simp_all
      · split
        · exact scans_unit (by decide) (by decide)
        · split
          · exact scans_unit (by decide) (by decide)
          · exact scans_plain fun b listed => plain_high (high b listed)
private theorem scans_quoteLoop (fuel : Nat) (data : Bytes) : Scans (quoteLoop fuel data) := by
  induction fuel generalizing data with
  | zero => exact scans_nil
  | succ fuel ih =>
    rw [quoteLoop]
    split
    · exact scans_nil
    · exact (scans_quoteChunk ‹_›).append (ih _)
/-- What `quote` writes is a literal. -/
theorem isLiteral_quote (data : Bytes) : IsLiteral (quote data) := (scans_quoteLoop _ _).isLiteral

private theorem readEscape_ascii (n : Nat) (ascii : n < 128) (tail : Bytes) :
    readEscape ([0x75,0x30,0x30,hexChar (UInt8.ofNat n/16),hexChar (UInt8.ofNat n%16)] ++ tail) = ([UInt8.ofNat n],tail) := by
  have digits := (unit_ascii n ascii).2.2
  have single : ¬ (0xD800 ≤ n ∧ n < 0xE000) := by omega
  simp [readEscape,digits,decodeUnit,single,encodeRune,ascii]
private theorem readChunk_escapeByte (ascii : byte < 0x80) (tail : Bytes) : readChunk (escapeByte byte ++ tail) = ([byte],tail) := by
  have unit := readEscape_ascii byte.toNat ascii tail
  rw [UInt8.ofNat_toNat] at unit
  unfold escapeByte
  repeat' split
  · rcases ‹_ ∨ _› with rfl | rfl <;> rfl
  all_goals try (subst byte; rfl)
  · exact unit
  · next special _ _ _ _ _ _ =>
    have backslash : byte ≠ 0x5C := fun same => special (.inr same)
    simp [readChunk,backslash,runeWidth,ascii]
theorem readChunk_quoteChunk (whole : IsRune rune) (tail : Bytes) : readChunk (quoteChunk rune ++ tail) = (rune,tail) := by
  obtain ⟨_,_,_,⟨single,ascii⟩ | ⟨long,high⟩⟩ := runeWidth_take whole
  · obtain ⟨byte,rfl⟩ := length_eq_one_iff.mp single
    have ascii : byte < 0x80 := ascii byte (by simp)
    simpa [quoteChunk,ascii] using readChunk_escapeByte ascii tail
  · unfold quoteChunk
    split
    · simp at long
    · split
      · next same => subst same; rfl
      · split
        · next same => subst same; rfl
        · obtain ⟨byte,rest,rfl⟩ := exists_cons_of_ne_nil (ne_nil_of_length_pos whole.positive)
          have backslash : byte ≠ 0x5C := (plain_high (high byte (by simp))).2.2
          have width := whole.append tail
          simp only [readChunk,width]
          simp [backslash]

theorem quoteChunk_ne_nil (whole : IsRune rune) : quoteChunk rune ≠ [] := by
  intro empty
  have read := readChunk_quoteChunk whole []
  rw [empty] at read
  obtain rfl : replacement = rune := congrArg Prod.fst read
  exact absurd empty (by decide)
theorem length_le_flatten {pieces : List Bytes} (present : ∀ piece ∈ pieces, piece ≠ []) : pieces.length ≤ pieces.flatten.length := by
  induction pieces with
  | nil => simp
  | cons piece rest ih =>
    obtain ⟨first,later⟩ := forall_mem_cons.mp present
    have positive := length_pos_iff.mpr first
    have more := ih later
    rw [flatten_cons,length_append,length_cons]
    omega

variable {runes : List Bytes}

private theorem quoteLoop_runes (whole : ∀ rune ∈ runes, IsRune rune) (enough : runes.length ≤ fuel) :
    quoteLoop fuel runes.flatten = (runes.map quoteChunk).flatten := by
  induction runes generalizing fuel with
  | nil => cases fuel <;> simp [quoteLoop]
  | cons rune rest ih =>
    obtain ⟨first,later⟩ := forall_mem_cons.mp whole
    match fuel,enough with
    | fuel+1,enough =>
      have present : rune ++ rest.flatten ≠ [] := append_ne_nil_of_left_ne_nil (ne_nil_of_length_pos first.positive) _
      rw [flatten_cons,quoteLoop,if_neg present,chunkWidth,first.append,Option.getD_some,take_left,drop_left,
        ih later (by simpa using enough)]
      rfl
private theorem unquoteLoop_runes (whole : ∀ rune ∈ runes, IsRune rune) (enough : runes.length ≤ fuel) :
    unquoteLoop fuel (runes.map quoteChunk).flatten = runes.flatten := by
  induction runes generalizing fuel with
  | nil => cases fuel <;> simp [unquoteLoop]
  | cons rune rest ih =>
    obtain ⟨first,later⟩ := forall_mem_cons.mp whole
    match fuel,enough with
    | fuel+1,enough =>
      have read := readChunk_quoteChunk first (rest.map quoteChunk).flatten
      have present : quoteChunk rune ++ (rest.map quoteChunk).flatten ≠ [] := append_ne_nil_of_left_ne_nil (quoteChunk_ne_nil first) _
      rw [map_cons,flatten_cons,unquoteLoop,if_neg present,read,ih later (by simpa using enough)]
      rfl
/-- A valid string is read back from its literal. -/
theorem unquote_quote (valid : validString data = true) : unquote (quote data) = data := by
  obtain ⟨runes,rfl,whole⟩ := runes_of_valid valid
  have quoted : quote runes.flatten = (runes.map quoteChunk).flatten :=
    quoteLoop_runes whole (length_le_flatten fun rune listed => ne_nil_of_length_pos (whole rune listed).positive)
  rw [quoted]
  refine unquoteLoop_runes whole ?_
  rw [← length_map (f := quoteChunk)]
  refine length_le_flatten fun piece listed => ?_
  obtain ⟨rune,present,rfl⟩ := mem_map.mp listed
  exact quoteChunk_ne_nil (whole rune present)
end

/-! ### Documents -/

def nullText : Bytes := [0x6E,0x75,0x6C,0x6C]
def trueText : Bytes := [0x74,0x72,0x75,0x65]
def falseText : Bytes := [0x66,0x61,0x6C,0x73,0x65]

mutual
def render : Doc → Bytes
  | .null => nullText
  | .bool b => if b then trueText else falseText
  | .num literal => literal
  | .str literal => 0x22 :: literal ++ [0x22]
  | .arr [] => [0x5B,0x5D]
  | .arr (item :: items) => 0x5B :: render item ++ renderItems items ++ [0x5D]
  | .obj [] => [0x7B,0x7D]
  | .obj ((name,doc) :: members) => 0x7B :: 0x22 :: name ++ 0x22 :: 0x3A :: render doc ++ renderMembers members ++ [0x7D]
def renderItems : List Doc → Bytes
  | [] => []
  | item :: items => 0x2C :: render item ++ renderItems items
def renderMembers : List (Bytes × Doc) → Bytes
  | [] => []
  | (name,doc) :: members => 0x2C :: 0x22 :: name ++ 0x22 :: 0x3A :: render doc ++ renderMembers members
end

def isSpace (byte : UInt8) : Bool := byte = 0x20 ∨ byte = 0x09 ∨ byte = 0x0A ∨ byte = 0x0D
section
variable (data : Bytes)
/-- The text without the white space it begins with. -/
def skip : Bytes := data.dropWhile isSpace
def isDigit (byte : UInt8) : Bool := 0x30 ≤ byte ∧ byte ≤ 0x39
def numberByte (byte : UInt8) : Bool := isDigit byte || byte ∈ [0x2B,0x2D,0x2E,0x45,0x65]
def validExponent : Bool :=
  match data with
  | [] => true
  | byte :: rest =>
    let digits := if rest.head? = some 0x2B ∨ rest.head? = some 0x2D then rest.tail else rest
    (byte = 0x45 ∨ byte = 0x65) && digits ≠ [] && digits.all isDigit
def validFraction : Bool :=
  if data.head? = some 0x2E then (data.tail.takeWhile isDigit) ≠ [] && validExponent (data.tail.dropWhile isDigit) else validExponent data
/-- The text is a number of the JSON grammar. -/
def validNumber : Bool :=
  let digits := if data.head? = some 0x2D then data.tail else data
  match digits with
  | [] => false
  | byte :: rest => if byte = 0x30 then validFraction rest else isDigit byte && validFraction (rest.dropWhile isDigit)

/-- A word, a string or a number, and what follows it. -/
def scalar : Option (Doc × Bytes) :=
  if nullText.isPrefixOf data then some (.null,data.drop 4)
  else if trueText.isPrefixOf data then some (.bool true,data.drop 4)
  else if falseText.isPrefixOf data then some (.bool false,data.drop 5)
  else if data.head? = some 0x22 then (scanString data.tail).map (fun scanned => (.str scanned.1,scanned.2))
  else if validNumber (data.takeWhile numberByte) then some (.num (data.takeWhile numberByte),data.dropWhile numberByte)
  else none
/-- The name of a member and its colon. -/
def memberName : Option (Bytes × Bytes) :=
  if (skip data).head? = some 0x22 then
    (scanString (skip data).tail).bind fun name => if (skip name.2).head? = some 0x3A then some (name.1,(skip name.2).tail) else none
  else none
end

mutual
/-- A value at the beginning of the text, with so many levels of nesting left. -/
def value : Nat → Nat → Bytes → Option (Doc × Bytes)
  | 0, _, _ => none
  | fuel+1, depth, data =>
    if (skip data).head? = some 0x5B then
      if depth = 0 then none
      else if (skip (skip data).tail).head? = some 0x5D then some (.arr [],(skip (skip data).tail).tail)
      else (value fuel (depth-1) (skip data).tail).bind fun item =>
        (itemsTail fuel (depth-1) item.2).map fun items => (.arr (item.1 :: items.1),items.2)
    else if (skip data).head? = some 0x7B then
      if depth = 0 then none
      else if (skip (skip data).tail).head? = some 0x7D then some (.obj [],(skip (skip data).tail).tail)
      else (memberName (skip data).tail).bind fun name => (value fuel (depth-1) name.2).bind fun doc =>
        (membersTail fuel (depth-1) doc.2).map fun members => (.obj ((name.1,doc.1) :: members.1),members.2)
    else scalar (skip data)
def itemsTail : Nat → Nat → Bytes → Option (List Doc × Bytes)
  | 0, _, _ => none
  | fuel+1, depth, data =>
    if (skip data).head? = some 0x5D then some ([],(skip data).tail)
    else if (skip data).head? = some 0x2C then
      (value fuel depth (skip data).tail).bind fun item => (itemsTail fuel depth item.2).map fun items => (item.1 :: items.1,items.2)
    else none
def membersTail : Nat → Nat → Bytes → Option (Members × Bytes)
  | 0, _, _ => none
  | fuel+1, depth, data =>
    if (skip data).head? = some 0x7D then some ([],(skip data).tail)
    else if (skip data).head? = some 0x2C then
      (memberName (skip data).tail).bind fun name => (value fuel depth name.2).bind fun doc =>
        (membersTail fuel depth doc.2).map fun members => ((name.1,doc.1) :: members.1,members.2)
    else none
end

/-- The value of a whole text. -/
def parse (depth : Nat) (data : Bytes) : Option Doc :=
  (value data.length depth data).bind fun doc => if skip doc.2 = [] then some doc.1 else none

/-- A literal that is read as one number. -/
def IsNumber (literal : Bytes) : Prop := validNumber literal = true ∧ ∀ byte ∈ literal, numberByte byte = true

mutual
def Doc.Clean : Doc → Prop
  | .null | .bool _ => True
  | .num literal => IsNumber literal
  | .str literal => IsLiteral literal
  | .arr items => CleanItems items
  | .obj members => CleanMembers members
def CleanItems : List Doc → Prop
  | [] => True
  | item :: items => item.Clean ∧ CleanItems items
def CleanMembers : List (Bytes × Doc) → Prop
  | [] => True
  | (name,doc) :: members => IsLiteral name ∧ doc.Clean ∧ CleanMembers members
end

mutual
def Doc.depth : Doc → Nat
  | .null | .bool _ | .num _ | .str _ => 0
  | .arr items => depthItems items+1
  | .obj members => depthMembers members+1
def depthItems : List Doc → Nat
  | [] => 0
  | item :: items => max item.depth (depthItems items)
def depthMembers : List (Bytes × Doc) → Nat
  | [] => 0
  | (_,doc) :: members => max doc.depth (depthMembers members)
end

/-- What follows does not go on with a number. -/
def Stops (rest : Bytes) : Prop := ∀ byte ∈ rest.head?, numberByte byte = false

section
variable {rest literal name : Bytes} {byte : UInt8}

theorem skip_cons (visible : isSpace byte = false) (rest : Bytes) : skip (byte :: rest) = byte :: rest := by
  simp [skip,visible]
theorem memberName_render (isLiteral : IsLiteral name) (rest : Bytes) : memberName (0x22 :: name ++ 0x22 :: 0x3A :: rest) = some (name,rest) := by
  rw [cons_append,memberName,skip_cons (by decide),head?_cons,if_pos rfl,tail_cons,isLiteral,bind_some,
    skip_cons (by decide),head?_cons,if_pos rfl,tail_cons]
theorem scalar_string (isLiteral : IsLiteral literal) (rest : Bytes) : scalar (0x22 :: literal ++ 0x22 :: rest) = some (.str literal,rest) := by
  simp [scalar,nullText,trueText,falseText,isLiteral rest]
private theorem takeWhile_number (number : ∀ byte ∈ literal, numberByte byte = true) (stops : Stops rest) :
    (literal ++ rest).takeWhile numberByte = literal ∧ (literal ++ rest).dropWhile numberByte = rest := by
  rw [takeWhile_append_of_pos number,dropWhile_append_of_pos number]
  cases rest with
  | nil => simp
  | cons byte rest => simp [stops byte rfl]
theorem scalar_number (number : IsNumber literal) (stops : Stops rest) : scalar (literal ++ rest) = some (.num literal,rest) := by
  obtain ⟨valid,bytes⟩ := number
  obtain ⟨taken,left⟩ := takeWhile_number bytes stops
  cases literal with
  | nil => cases valid
  | cons byte later =>
    have first := bytes byte mem_cons_self
    have other : byte ≠ 0x6E ∧ byte ≠ 0x74 ∧ byte ≠ 0x66 ∧ byte ≠ 0x22 := by
      refine ⟨?_,?_,?_,?_⟩ <;> rintro rfl <;> exact absurd first (by decide)
    unfold scalar
    rw [taken,left]
    simp [nullText,trueText,falseText,valid,other.1.symm,other.2.1.symm,other.2.2.1.symm,other.2.2.2]
theorem stops_cons (other : numberByte byte = false) : Stops (byte :: rest) := by
  rintro _ ⟨⟩
  exact other
theorem stops_items (items : List Doc) : Stops (renderItems items ++ 0x5D :: rest) := by
  cases items with
  | nil | cons => exact stops_cons (by decide)
theorem stops_members (members : Members) : Stops (renderMembers members ++ 0x7D :: rest) := by
  cases members with
  | nil | cons => exact stops_cons (by decide)
end

theorem render_head {doc : Doc} (clean : doc.Clean) : ∃ byte rest, render doc = byte :: rest ∧ isSpace byte = false ∧ byte ≠ 0x5D := by
  cases doc with
  | null => exact ⟨_,_,rfl,by decide,by decide⟩
  | bool b => cases b <;> exact ⟨_,_,rfl,by decide,by decide⟩
  | num literal =>
    obtain ⟨valid,bytes⟩ := clean
    cases literal with
    | nil => cases valid
    | cons byte rest =>
      have number := bytes byte mem_cons_self
      refine ⟨byte,rest,by rw [render],?_,?_⟩
      · cases space : isSpace byte with
        | false => rfl
        | true =>
          simp only [isSpace,decide_eq_true_eq] at space
          obtain rfl | rfl | rfl | rfl := space <;> exact absurd number (by decide)
      · rintro rfl
        exact absurd number (by decide)
  | str literal => exact ⟨_,_,by rw [render,cons_append],by decide,by decide⟩
  | arr items =>
    cases items with
    | nil => exact ⟨0x5B,[0x5D],by rw [render],by decide,by decide⟩
    | cons item items => exact ⟨0x5B,render item ++ renderItems items ++ [0x5D],by rfl,by decide,by decide⟩
  | obj members =>
    rcases members with _ | ⟨⟨name,doc⟩,members⟩
    · exact ⟨0x7B,[0x7D],by rw [render],by decide,by decide⟩
    · exact ⟨0x7B,0x22 :: name ++ 0x22 :: 0x3A :: render doc ++ renderMembers members ++ [0x7D],by rfl,by decide,by decide⟩

theorem skip_render {doc : Doc} (clean : doc.Clean) (rest : Bytes) :
    skip (render doc ++ rest) = render doc ++ rest ∧ (render doc ++ rest).head? ≠ some 0x5D := by
  obtain ⟨byte,text,same,visible,bracket⟩ := render_head clean
  rw [same]
  exact ⟨skip_cons visible _,by simpa using bracket⟩

section
variable {fuel depth : Nat} {rest : Bytes} {doc item : Doc} {text after name : Bytes} {items : List Doc} {members : Members}

theorem value_scalar {byte : UInt8} (read : scalar (byte :: text) = some (doc,rest)) (visible : isSpace byte = false)
    (bracket : byte ≠ 0x5B) (brace : byte ≠ 0x7B) : value (fuel+1) depth (byte :: text) = some (doc,rest) := by
  rw [value,skip_cons visible]
  simp [bracket,brace,read]
theorem value_number {literal : Bytes} (number : IsNumber literal) (stops : Stops rest) :
    value (fuel+1) depth (literal ++ rest) = some (.num literal,rest) := by
  have read := scalar_number number stops
  obtain ⟨byte,text,same,visible,_⟩ := @render_head (.num literal) (by rwa [Doc.Clean])
  subst same
  have first := number.2 byte mem_cons_self
  refine value_scalar read visible ?_ ?_ <;> rintro rfl <;> exact absurd first (by decide)
theorem value_items (begins : skip text = text ∧ text.head? ≠ some 0x5D) (first : value fuel depth text = some (item,after))
    (later : itemsTail fuel depth after = some (items,rest)) :
    value (fuel+1) (depth+1) (0x5B :: text) = some (.arr (item :: items),rest) := by
  rw [value,skip_cons (by decide),head?_cons,tail_cons,begins.1,if_neg begins.2,Nat.add_sub_cancel,first,bind_some,later]
  rfl
theorem value_members (isLiteral : IsLiteral name) (first : value fuel depth text = some (doc,after))
    (later : membersTail fuel depth after = some (members,rest)) :
    value (fuel+1) (depth+1) (0x7B :: 0x22 :: name ++ 0x22 :: 0x3A :: text) = some (.obj ((name,doc) :: members),rest) := by
  have read := memberName_render isLiteral text
  rw [cons_append] at read ⊢
  rw [value,skip_cons (by decide),head?_cons,if_neg (Nat.succ_ne_zero _),tail_cons,cons_append,
    skip_cons (by decide),Nat.add_sub_cancel,read,bind_some,first,bind_some,later]
  rfl
theorem itemsTail_cons (first : value fuel depth text = some (item,after)) (later : itemsTail fuel depth after = some (items,rest)) :
    itemsTail (fuel+1) depth (0x2C :: text) = some (item :: items,rest) := by
  rw [itemsTail,skip_cons (by decide),head?_cons,tail_cons,first,bind_some,later]
  rfl
theorem membersTail_cons (isLiteral : IsLiteral name) (first : value fuel depth text = some (doc,after))
    (later : membersTail fuel depth after = some (members,rest)) :
    membersTail (fuel+1) depth (0x2C :: 0x22 :: name ++ 0x22 :: 0x3A :: text) = some ((name,doc) :: members,rest) := by
  have read := memberName_render isLiteral text
  rw [cons_append,membersTail,skip_cons (by decide),head?_cons,tail_cons,read,bind_some,first,bind_some,later]
  rfl
end

mutual
/-- A clean document is read back, whatever follows it. -/
theorem value_render : ∀ (doc : Doc) {fuel depth : Nat} {rest : Bytes}, doc.Clean → doc.depth ≤ depth → (render doc).length ≤ fuel →
    Stops rest → value fuel depth (render doc ++ rest) = some (doc,rest)
  | doc, 0, _, _, clean, _, enough, _ => by
    obtain ⟨byte,rest,same,_⟩ := render_head clean
    simp [same] at enough
  | .null, fuel+1, depth, rest, _, _, _, _ => value_scalar rfl (by decide) (by decide) (by decide)
  | .bool b, fuel+1, depth, rest, _, _, _, _ => by
    cases b <;> exact value_scalar rfl (by decide) (by decide) (by decide)
  | .num literal, fuel+1, depth, rest, clean, _, _, stops => value_number clean stops
  | .str literal, fuel+1, depth, rest, clean, _, _, _ => by
    have read := scalar_string clean rest
    rw [render,append_assoc,singleton_append]
    exact value_scalar read (by decide) (by decide) (by decide)
  | .arr items, fuel+1, 0, rest, clean, shallow, _, _ => by simp [Doc.depth] at shallow
  | .arr [], fuel+1, depth+1, rest, _, _, _, _ => by
    simp [render,value,skip,isSpace]
  | .arr (item :: items), fuel+1, depth+1, rest, clean, shallow, enough, _ => by
    rw [Doc.depth,depthItems] at shallow
    simp only [render,length_cons,length_append,length_nil,cons_append] at enough
    rw [render,append_assoc,append_assoc,cons_append,singleton_append]
    exact value_items (skip_render clean.1 _) (value_render item clean.1 (by omega) (by omega) (stops_items items))
      (itemsTail_render items clean.2 (by omega) (by omega))
  | .obj members, fuel+1, 0, rest, clean, shallow, _, _ => by simp [Doc.depth] at shallow
  | .obj [], fuel+1, depth+1, rest, _, _, _, _ => by
    simp [render,value,skip,isSpace]
  | .obj ((name,doc) :: members), fuel+1, depth+1, rest, clean, shallow, enough, _ => by
    rw [Doc.depth,depthMembers] at shallow
    simp only [render,length_cons,length_append,length_nil,cons_append] at enough
    have read : value (fuel+1) (depth+1) (0x7B :: 0x22 :: name ++ 0x22 :: 0x3A :: (render doc ++ (renderMembers members ++ 0x7D :: rest))) =
        some (.obj ((name,doc) :: members),rest) := value_members clean.1 (value_render doc clean.2.1 (by omega) (by omega) (stops_members members))
      (membersTail_render members clean.2.2 (by omega) (by omega))
    simpa [render] using read
theorem itemsTail_render : ∀ (items : List Doc) {fuel depth : Nat} {rest : Bytes}, CleanItems items → depthItems items ≤ depth →
    (renderItems items).length < fuel → itemsTail fuel depth (renderItems items ++ 0x5D :: rest) = some (items,rest)
  | _, 0, _, _, _, _, enough => by cases enough
  | [], fuel+1, depth, rest, _, _, _ => by simp [renderItems,itemsTail,skip,isSpace]
  | item :: items, fuel+1, depth, rest, clean, shallow, enough => by
    rw [depthItems] at shallow
    simp only [renderItems,length_cons,length_append,cons_append] at enough
    rw [renderItems,append_assoc,cons_append]
    exact itemsTail_cons (value_render item clean.1 (by omega) (by omega) (stops_items items))
      (itemsTail_render items clean.2 (by omega) (by omega))
theorem membersTail_render : ∀ (members : Members) {fuel depth : Nat} {rest : Bytes}, CleanMembers members → depthMembers members ≤ depth →
    (renderMembers members).length < fuel → membersTail fuel depth (renderMembers members ++ 0x7D :: rest) = some (members,rest)
  | _, 0, _, _, _, _, enough => by cases enough
  | [], fuel+1, depth, rest, _, _, _ => by simp [renderMembers,membersTail,skip,isSpace]
  | (name,doc) :: members, fuel+1, depth, rest, clean, shallow, enough => by
    rw [depthMembers] at shallow
    simp only [renderMembers,length_cons,length_append,cons_append] at enough
    have read : membersTail (fuel+1) depth (0x2C :: 0x22 :: name ++ 0x22 :: 0x3A :: (render doc ++ (renderMembers members ++ 0x7D :: rest))) =
        some ((name,doc) :: members,rest) := membersTail_cons clean.1 (value_render doc clean.2.1 (by omega) (by omega) (stops_members members))
      (membersTail_render members clean.2.2 (by omega) (by omega))
    simpa [renderMembers] using read
end

/-- A clean document that is not too deep is parsed to itself. -/
theorem parse_render {doc : Doc} {depth : Nat} (clean : doc.Clean) (shallow : doc.depth ≤ depth) : parse depth (render doc) = some doc := by
  have read : value (render doc).length depth (render doc ++ []) = some (doc,[]) :=
    value_render doc clean shallow (Nat.le_refl _) nofun
  rw [append_nil] at read
  rw [parse,read]
  rfl
theorem render_injective {first second : Doc} (clean : first.Clean) (clean' : second.Clean) (same : render first = render second) :
    first = second := by
  have read := parse_render clean (Nat.le_max_left first.depth second.depth)
  have read' := parse_render clean' (Nat.le_max_right first.depth second.depth)
  rw [same,read'] at read
  exact (Option.some.inj read).symm

/-! ### No control characters -/

private theorem scanFrom_printable : ∀ {escaped : Bool} {data literal rest : Bytes}, scanFrom escaped data = some (literal,rest) →
    ∀ byte ∈ literal, 0x20 ≤ byte
  | _, [], _, _, scanned => by cases scanned
  | true, byte :: data, _, _, scanned => by
    rw [scanFrom] at scanned
    split at scanned
    · next legal =>
      obtain ⟨⟨later,_⟩,found,same⟩ := map_eq_some_iff.mp scanned
      cases same
      refine forall_mem_cons.mpr ⟨?_,scanFrom_printable found⟩
      obtain simple | ⟨rfl,_⟩ := legal
      · simp only [simpleEscape,decide_eq_true_eq,mem_cons,not_mem_nil,or_false] at simple
        obtain rfl | rfl | rfl | rfl | rfl | rfl | rfl | rfl := simple <;> decide
      · decide
    · cases scanned
  | false, byte :: data, _, _, scanned => by
    rw [scanFrom] at scanned
    split at scanned
    · cases scanned
      simp
    · split at scanned
      · next backslash =>
        obtain ⟨⟨later,_⟩,found,same⟩ := map_eq_some_iff.mp scanned
        cases same
        exact forall_mem_cons.mpr ⟨by rw [backslash]; decide,scanFrom_printable found⟩
      · split at scanned
        · cases scanned
        · next printable =>
          obtain ⟨⟨later,_⟩,found,same⟩ := map_eq_some_iff.mp scanned
          cases same
          exact forall_mem_cons.mpr ⟨UInt8.not_lt.mp printable,scanFrom_printable found⟩
def Printable (data : Bytes) : Prop := ∀ byte ∈ data, 0x20 ≤ byte
  deriving Decidable

theorem IsLiteral.printable {literal : Bytes} (isLiteral : IsLiteral literal) : Printable literal := scanFrom_printable (isLiteral [])
theorem IsNumber.printable {literal : Bytes} (number : IsNumber literal) : Printable literal := by
  intro byte listed
  have part := number.2 byte listed
  simp only [numberByte,isDigit,Bool.or_eq_true,decide_eq_true_eq,mem_cons,not_mem_nil,or_false] at part
  obtain digit | rfl | rfl | rfl | rfl | rfl := part
  · exact UInt8.le_trans (by decide) digit.1
  all_goals decide

section
variable {byte : UInt8} {data other : Bytes}

theorem Printable.cons (first : 0x20 ≤ byte) (rest : Printable data) : Printable (byte :: data) := forall_mem_cons.mpr ⟨first,rest⟩
theorem Printable.append (first : Printable data) (second : Printable other) : Printable (data ++ other) := forall_mem_append.mpr ⟨first,second⟩
theorem printable_nil : Printable [] := by rintro _ ⟨⟩
end

mutual
/-- A clean document is written without control characters. -/
theorem render_printable : ∀ (doc : Doc), doc.Clean → Printable (render doc)
  | .null, _ => by decide
  | .bool b, _ => by cases b <;> decide
  | .num literal, clean => IsNumber.printable clean
  | .str literal, clean => (Printable.cons (by decide) (IsLiteral.printable clean)).append (by decide)
  | .arr [], _ => by decide
  | .arr (item :: items), clean =>
    ((Printable.cons (by decide) (render_printable item clean.1)).append (renderItems_printable items clean.2)).append (by decide)
  | .obj [], _ => by decide
  | .obj ((name,doc) :: members), clean => by
    refine (Printable.append (Printable.append ?_ ?_) (renderMembers_printable members clean.2.2)).append (by decide)
    · exact .cons (by decide) (.cons (by decide) clean.1.printable)
    · exact .cons (by decide) (.cons (by decide) (render_printable doc clean.2.1))
theorem renderItems_printable : ∀ (items : List Doc), CleanItems items → Printable (renderItems items)
  | [], _ => printable_nil
  | item :: items, clean =>
    (Printable.cons (by decide) (render_printable item clean.1)).append (renderItems_printable items clean.2)
theorem renderMembers_printable : ∀ (members : Members), CleanMembers members → Printable (renderMembers members)
  | [], _ => printable_nil
  | (name,doc) :: members, clean => by
    refine Printable.append (Printable.append ?_ ?_) (renderMembers_printable members clean.2.2)
    · exact .cons (by decide) (.cons (by decide) clean.1.printable)
    · exact .cons (by decide) (.cons (by decide) (render_printable doc clean.2.1))
end

/-- A member is stored in a map, which is written in the order of the names. -/
def insertMember (name : Bytes) (doc : Doc) : Members → Members
  | [] => [(name,doc)]
  | (other,kept) :: rest =>
    if unquote name = unquote other then (name,doc) :: rest
    else if unquote name < unquote other then (name,doc) :: (other,kept) :: rest
    else (other,kept) :: insertMember name doc rest

mutual
/-- The document is read and written again; `float` does it for a number. -/
def reread (float : Bytes → Option Bytes) : Doc → Option Doc
  | .null => some .null
  | .bool b => some (.bool b)
  | .num literal => (float literal).map .num
  | .str literal => some (.str (requote literal))
  | .arr items => (rereadItems float items).map .arr
  | .obj members => (rereadMembers float members []).map .obj
def rereadItems (float : Bytes → Option Bytes) : List Doc → Option (List Doc)
  | [] => some []
  | item :: items => (reread float item).bind fun item => (rereadItems float items).map fun items => item :: items
/-- The members are stored one after the other in a map that has some already. -/
def rereadMembers (float : Bytes → Option Bytes) : List (Bytes × Doc) → Members → Option Members
  | [], kept => some kept
  | (name,doc) :: members, kept => (reread float doc).bind fun doc => rereadMembers float members (insertMember (requote name) doc kept)
end

/-- The members are in the order of their names. -/
def Sorted (members : Members) : Prop := members.Pairwise (fun first second => unquote first.1 < unquote second.1)

mutual
/-- The document is as `encoding/json` writes what it has read. -/
def Doc.Canonical (float : Bytes → Option Bytes) : Doc → Prop
  | .null | .bool _ => True
  | .num literal => float literal = some literal
  | .str literal => requote literal = literal
  | .arr items => CanonicalItems float items
  | .obj members => Sorted members ∧ CanonicalMembers float members
def CanonicalItems (float : Bytes → Option Bytes) : List Doc → Prop
  | [] => True
  | item :: items => item.Canonical float ∧ CanonicalItems float items
def CanonicalMembers (float : Bytes → Option Bytes) : List (Bytes × Doc) → Prop
  | [] => True
  | (name,doc) :: members => requote name = name ∧ doc.Canonical float ∧ CanonicalMembers float members
end

section
variable {float : Bytes → Option Bytes} {name : Bytes} {doc : Doc} {kept : Members}

theorem insertMember_last (after : ∀ member ∈ kept, unquote member.1 < unquote name) : insertMember name doc kept = kept ++ [(name,doc)] := by
  induction kept with
  | nil => rfl
  | cons member rest ih =>
    obtain ⟨first,later⟩ := List.forall_mem_cons.mp after
    have other : unquote name ≠ unquote member.1 := fun same => List.lt_irrefl _ (same ▸ first)
    rw [insertMember,if_neg other,if_neg (List.lt_asymm first),ih later]
    rfl
theorem sorted_last {members : Members} (sorted : Sorted (kept ++ (name,doc) :: members)) : ∀ member ∈ kept, unquote member.1 < unquote name :=
  fun member listed => (pairwise_append.mp sorted).2.2 member listed (name,doc) mem_cons_self

mutual
/-- A canonical document is written as it was read. -/
theorem reread_canonical : ∀ (doc : Doc), doc.Canonical float → reread float doc = some doc
  | .null, _ | .bool _, _ => by rw [reread]
  | .num literal, canonical => by
    rw [reread,canonical]
    rfl
  | .str literal, canonical => by
    rw [reread,canonical]
  | .arr items, canonical => by
    rw [reread,rereadItems_canonical items canonical]
    rfl
  | .obj members, canonical => by
    rw [reread,rereadMembers_canonical members [] canonical.2 canonical.1]
    rfl
theorem rereadItems_canonical : ∀ (items : List Doc), CanonicalItems float items → rereadItems float items = some items
  | [], _ => by rw [rereadItems]
  | item :: items, canonical => by
    rw [rereadItems,reread_canonical item canonical.1,bind_some,rereadItems_canonical items canonical.2]
    rfl
theorem rereadMembers_canonical : ∀ (members kept : Members), CanonicalMembers float members → Sorted (kept ++ members) →
    rereadMembers float members kept = some (kept ++ members)
  | [], kept, _, _ => by rw [rereadMembers,append_nil]
  | (name,doc) :: members, kept, canonical, sorted => by
    rw [rereadMembers,reread_canonical doc canonical.2.1,bind_some,canonical.1,insertMember_last (sorted_last sorted),
      rereadMembers_canonical members (kept ++ [(name,doc)]) canonical.2.2 (by simpa using sorted)]
    simp
end

/-- What `float` writes is a number. -/
def WritesNumbers (float : Bytes → Option Bytes) : Prop := ∀ literal written, float literal = some written → IsNumber written

theorem cleanMembers_insert (isLiteral : IsLiteral name) (clean : doc.Clean) (others : CleanMembers kept) :
    CleanMembers (insertMember name doc kept) := by
  induction kept with
  | nil =>
    exact ⟨isLiteral,clean,others⟩
  | cons member rest ih =>
    rw [insertMember]
    split
    · exact ⟨isLiteral,clean,others.2.2⟩
    · split
      · exact ⟨isLiteral,clean,others⟩
      · exact ⟨others.1,others.2.1,ih others.2.2⟩

mutual
/-- What is written again is clean. -/
theorem reread_clean (writes : WritesNumbers float) : ∀ (doc : Doc) {again : Doc}, reread float doc = some again → again.Clean
  | .null, _, read | .bool _, _, read => by
    cases read
    trivial
  | .num literal, _, read => by
    obtain ⟨written,found,rfl⟩ := map_eq_some_iff.mp read
    exact writes literal written found
  | .str literal, _, read => by
    cases read
    exact isLiteral_quote _
  | .arr items, _, read => by
    obtain ⟨again,found,rfl⟩ := map_eq_some_iff.mp read
    exact rereadItems_clean writes items found
  | .obj members, _, read => by
    obtain ⟨again,found,rfl⟩ := map_eq_some_iff.mp read
    exact rereadMembers_clean writes members [] trivial found
theorem rereadItems_clean (writes : WritesNumbers float) : ∀ (items : List Doc) {again : List Doc}, rereadItems float items = some again →
    CleanItems again
  | [], _, read => by
    cases read
    trivial
  | item :: items, _, read => by
    obtain ⟨first,found,read⟩ := Option.bind_eq_some_iff.mp read
    obtain ⟨later,found',rfl⟩ := map_eq_some_iff.mp read
    exact ⟨reread_clean writes item found,rereadItems_clean writes items found'⟩
theorem rereadMembers_clean (writes : WritesNumbers float) : ∀ (members kept : Members) {again : Members}, CleanMembers kept →
    rereadMembers float members kept = some again → CleanMembers again
  | [], kept, _, clean, read => by
    cases read
    exact clean
  | (name,doc) :: members, kept, _, clean, read => by
    obtain ⟨first,found,read⟩ := Option.bind_eq_some_iff.mp read
    exact rereadMembers_clean writes members _ (cleanMembers_insert (isLiteral_quote _) (reread_clean writes doc found) clean) read
end

theorem canonical_clean (writes : WritesNumbers float) (canonical : doc.Canonical float) : doc.Clean :=
  reread_clean writes doc (reread_canonical doc canonical)
end

/-- `foldName`: the name in capitals; U+017F and U+212A are an S and a K. -/
def foldName : Bytes → Bytes
  | [] => []
  | 0xC5 :: 0xBF :: rest => 0x53 :: foldName rest
  | 0xE2 :: 0x84 :: 0xAA :: rest => 0x4B :: foldName rest
  | byte :: rest => (if 0x61 ≤ byte ∧ byte ≤ 0x7A then byte-0x20 else byte) :: foldName rest

end Stellabill.JsonText
