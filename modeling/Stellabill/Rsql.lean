import Stellabill.ByteStrings
import Stellabill.Parsing

/-!
The parser of RSQL filters: conditions on allowed fields, joined by `;` and, with less
binding, by `,`, with parentheses. The parser does not look at what is left of the filter.
-/
namespace Stellabill.Rsql
open ByteStrings Parsing

structure FieldRule where
  indexed : Bool
  column : Bytes
  deriving DecidableEq, Repr

structure ParseOptions where
  allowUnindexed : Bool
  allowedFields : Option (Bytes → Option FieldRule)

def defaultAllowedFields : List (Bytes × FieldRule) :=
  [(text "amount",⟨true,text "total_amount"⟩),
   (text "customer_id",⟨true,text "customer_id"⟩),
   (text "kind",⟨true,text "kind"⟩),
   (text "status",⟨true,text "status"⟩),
   (text "subscription_id",⟨true,text "subscription_id"⟩)]
variable (opts : ParseOptions)
/-- The rule of a field; without a map of allowed fields, the one of the default fields. -/
def ParseOptions.rule (field : Bytes) : Option FieldRule :=
  match opts.allowedFields with
  | some allowed => allowed field
  | none => defaultAllowedFields.lookup field

inductive Operator
  | eq
  | ne
  | gt
  | ge
  | lt
  | le
  | isIn
  | isOut
  deriving DecidableEq, Repr

/-- The names of the operators between the two equality signs. -/
def operatorNames : List (Bytes × Operator) :=
  [(text "gt",.gt),(text "ge",.ge),(text "lt",.lt),(text "le",.le),(text "in",.isIn),(text "out",.isOut),(text "eq",.eq),
   (text "ne",.ne)]
def Operator.listed : Operator → Bool
  | .isIn | .isOut => true
  | _ => false

inductive Node
  | predicate (field : Bytes) (operator : Operator) (values : List Bytes) (column : Bytes)
  | and (left right : Node)
  | or (left right : Node)
  deriving DecidableEq, Repr

structure Filter where
  root : Node
  raw : Bytes
  deriving DecidableEq, Repr

inductive ParseError
  | empty
  | unexpectedEnd
  | expectedClosing
  | unsupportedField (field : Bytes)
  | notIndexed (field : Bytes)
  | expectedOperator
  | invalidOperator
  | unsupportedOperator (name : Bytes)
  | unsupportedSyntax
  | expectedField
  | expectedValue
  | danglingEscape
  | invalidText
  | expectedOpening
  | expectedCommaOrClosing
  deriving DecidableEq, Repr

/-! ### The parser -/

def comma : UInt8 := ','.toUInt8
def semicolon : UInt8 := ';'.toUInt8
def opening : UInt8 := '('.toUInt8
def closing : UInt8 := ')'.toUInt8
def backslash : UInt8 := '\\'.toUInt8
def equals : UInt8 := '='.toUInt8

def whitespace (b : UInt8) : Bool := b = ' '.toUInt8 || b = '\t'.toUInt8 || b = '\n'.toUInt8 || b = '\r'.toUInt8
def identifier (b : UInt8) : Bool :=
  ('a'.toUInt8 ≤ b && b ≤ 'z'.toUInt8) || ('A'.toUInt8 ≤ b && b ≤ 'Z'.toUInt8) || ('0'.toUInt8 ≤ b && b ≤ '9'.toUInt8) ||
    b = '.'.toUInt8 || b = '_'.toUInt8 || b = '-'.toUInt8
def delimiter (b : UInt8) : Bool := b = semicolon || b = comma || b = closing

abbrev Reader := Parser UInt8 ParseError

def skipWhitespace (input : Bytes) : Bytes := input.dropWhile whitespace

def parseIdentifier : Reader Bytes := fun input =>
  if input.takeWhile identifier = [] then .error .expectedField
  else .ok (input.takeWhile identifier,input.dropWhile identifier)

def operatorTail (input : Bytes) : Except ParseError (Operator × Bytes) :=
  if input.head? = some equals then .ok (.eq,input.tail)
  else match input.dropWhile (· ≠ equals) with
    | [] => .error .invalidOperator
    | _ :: rest =>
      match operatorNames.lookup (input.takeWhile (· ≠ equals)) with
      | some operator => .ok (operator,rest)
      | none => .error (.unsupportedOperator (input.takeWhile (· ≠ equals)))
def parseOperator : Reader Operator := fun input =>
  match skipWhitespace input with
  | [] => .error .expectedOperator
  | b :: rest => if b = equals then operatorTail rest else .error .unsupportedSyntax

def valueLoop : Bytes → Except ParseError (Bytes × Bytes)
  | [] => .ok ([],[])
  | b :: rest =>
    if delimiter b then .ok ([],b :: rest)
    else if b = backslash then
      match rest with
      | [] => .error .danglingEscape
      | c :: rest => (valueLoop rest).bind (fun (value,rest) => .ok (c :: value,rest))
    else (valueLoop rest).bind (fun (value,rest) => .ok (b :: value,rest))
theorem valueLoop_ends {b : UInt8} (rest : Bytes) (ends : delimiter b = true) : valueLoop (b :: rest) = .ok ([],b :: rest) := by
  rw [valueLoop.eq_def]
  simp only [ends,if_true]
theorem valueLoop_plain {b : UInt8} (rest : Bytes) (inside : delimiter b = false) (other : b ≠ backslash) :
    valueLoop (b :: rest) = (valueLoop rest).bind (fun (value,rest) => .ok (b :: value,rest)) := by
  rw [valueLoop.eq_def]
  simp only [inside,other,Bool.false_eq_true,if_false]
theorem valueLoop_escape (c : UInt8) (rest : Bytes) :
    valueLoop (backslash :: c :: rest) = (valueLoop rest).bind (fun (value,rest) => .ok (c :: value,rest)) := by
  rw [valueLoop.eq_def]
  simp only [show delimiter backslash = false from by decide,Bool.false_eq_true,if_false,if_true]
def parseValue : Reader Bytes := fun input =>
  if skipWhitespace input = [] then .error .expectedValue
  else (valueLoop (skipWhitespace input)).bind (fun (value,rest) =>
    if value = [] then .error .expectedValue
    else if validString value then .ok (value,rest)
    else .error .invalidText)

/-- The loop of `parseListValue`. Each round reads a comma, so that the length of the input bounds the rounds. -/
def listLoop : Nat → Reader (List Bytes)
  | 0, _ => .error .expectedClosing
  | _+1, [] => .error .expectedClosing
  | rounds+1, b :: rest =>
    if b = closing then .ok ([],rest)
    else (parseValue (b :: rest)).bind (fun (value,rest) =>
      match skipWhitespace rest with
      | [] => .error .expectedCommaOrClosing
      | c :: rest =>
        if c = comma then (listLoop rounds (skipWhitespace rest)).bind (fun (values,rest) => .ok (value :: values,rest))
        else if c = closing then .ok ([value],rest)
        else .error .expectedCommaOrClosing)
def parseListValue : Reader (List Bytes) := fun input =>
  match skipWhitespace input with
  | [] => .error .expectedOpening
  | b :: rest =>
    if b = opening then listLoop (skipWhitespace rest).length (skipWhitespace rest) else .error .expectedOpening

def checkField (field : Bytes) : Except ParseError FieldRule :=
  match opts.rule field with
  | none => .error (.unsupportedField field)
  | some rule => if !rule.indexed && !opts.allowUnindexed then .error (.notIndexed field) else .ok rule
def parseValues (operator : Operator) : Reader (List Bytes) := fun input =>
  if operator.listed then parseListValue input else (parseValue input).bind (fun (value,rest) => .ok ([value],rest))
def parsePredicate : Reader Node := fun input =>
  (parseIdentifier input).bind (fun (field,rest) =>
    if skipWhitespace rest = [] then .error .unexpectedEnd
    else (parseOperator (skipWhitespace rest)).bind (fun (operator,rest) =>
      (checkField opts field).bind (fun rule =>
        (parseValues operator (skipWhitespace rest)).bind (fun (values,rest) =>
          .ok (.predicate field operator values rule.column,rest)))))
/-- `parsePrimary`, with the parser of the expression in parentheses. -/
def parsePrimary (expression : Reader Node) : Reader Node := fun input =>
  match skipWhitespace input with
  | [] => .error .unexpectedEnd
  | b :: rest =>
    if b = opening then
      (expression rest).bind (fun (node,rest) =>
        match skipWhitespace rest with
        | [] => .error .expectedClosing
        | c :: rest => if c = closing then .ok (node,rest) else .error .expectedClosing)
    else parsePredicate opts (b :: rest)
def parseAnd (expression : Reader Node) : Reader Node :=
  chain semicolon .and (parsePrimary opts expression)
def parseOr (expression : Reader Node) : Reader Node := chain comma .or (parseAnd opts expression)
/-- `parseExpression`. An expression in parentheses is shorter than the input, so that the length of the input bounds the depth. -/
def parseExpression (opts : ParseOptions) : Nat → Reader Node
  | 0 => fun _ => .error .unexpectedEnd
  | depth+1 => parseOr opts (parseExpression opts depth)

def parseRSQLWithOptions (input : Bytes) (opts : ParseOptions) : Except ParseError Filter :=
  if trimSpace input = [] then .error .empty
  else (parseExpression opts (trimSpace input).length (trimSpace input)).bind (fun (root,_) => .ok ⟨root,trimSpace input⟩)
def parseRSQL (input : Bytes) : Except ParseError Filter := parseRSQLWithOptions input ⟨false,none⟩

end Stellabill.Rsql
