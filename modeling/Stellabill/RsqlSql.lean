import Stellabill.RsqlGrammar
import Stellabill.SqlConditions

/-!
The compilation of RSQL filters to SQL conditions with placeholders. The text depends on
the columns, the operators and the numbers of values alone; the values are its arguments.
-/
namespace Stellabill.RsqlSql
open ByteStrings Parsing Rsql RsqlGrammar SqlConditions List

/-- The conditions that squirrel builds: an `Expr`, and an `And` or `Or` of two parts. -/
inductive Sqlizer
  | expr (sql : List (Token Unit)) (args : List Bytes)
  | and (left right : Sqlizer)
  | or (left right : Sqlizer)
  deriving DecidableEq, Repr

def Sqlizer.toSql : Sqlizer → List (Token Unit) × List Bytes
  | .expr sql args => (sql,args)
  | .and left right => (.opening :: (left.toSql.1 ++ .and :: right.toSql.1 ++ [.closing]),left.toSql.2 ++ right.toSql.2)
  | .or left right => (.opening :: (left.toSql.1 ++ .or :: right.toSql.1 ++ [.closing]),left.toSql.2 ++ right.toSql.2)

/-- The column of a predicate; a rule without a column leaves the field. -/
def columnOf (field column : Bytes) : Bytes := if column = [] then field else column
def compared (column : Bytes) (op : Comparison) : List Bytes → Result Sqlizer
  | [] => .error .panic
  | value :: _ => .ok (.expr [.column column,.comparison op,.slot ()] [value])
/-- A membership test with a placeholder for each value. -/
def tested (column : Bytes) (keyword : Token Unit) (values : List Bytes) : Result Sqlizer :=
  .ok (.expr (.column column :: keyword :: .opening :: (joined (List.replicate values.length (.slot ())) ++ [.closing])) values)
def predicateToSquirrel (field : Bytes) (operator : Operator) (values : List Bytes) (column : Bytes) : Result Sqlizer :=
  match operator with
  | .eq => compared (columnOf field column) .eq values
  | .ne => compared (columnOf field column) .ne values
  | .gt => compared (columnOf field column) .gt values
  | .ge => compared (columnOf field column) .ge values
  | .lt => compared (columnOf field column) .lt values
  | .le => compared (columnOf field column) .le values
  | .isIn => tested (columnOf field column) .isIn values
  | .isOut => tested (columnOf field column) .notIn values
def toSquirrel : Node → Result Sqlizer
  | .predicate field operator values column => predicateToSquirrel field operator values column
  | .and left right => (toSquirrel left).bind (fun left => (toSquirrel right).bind (fun right => .ok (.and left right)))
  | .or left right => (toSquirrel left).bind (fun left => (toSquirrel right).bind (fun right => .ok (.or left right)))

/-- What is left of a filter without its values: the columns, the operators and the numbers of values. -/
inductive Shape
  | predicate (column : Bytes) (operator : Operator) (values : Nat)
  | and (left right : Shape)
  | or (left right : Shape)
  deriving DecidableEq, Repr

def shape : Node → Shape
  | .predicate field operator values column => .predicate (columnOf field column) operator values.length
  | .and left right => .and (shape left) (shape right)
  | .or left right => .or (shape left) (shape right)
def Shape.columns : Shape → List Bytes
  | .predicate column _ _ => [column]
  | .and left right | .or left right => left.columns ++ right.columns
def Shape.sql : Shape → List (Token Unit)
  | .predicate column operator values =>
    let compared (op : Comparison) : List (Token Unit) := [.column column,.comparison op,.slot ()]
    let tested (keyword : Token Unit) := .column column :: keyword :: .opening :: (joined (List.replicate values (.slot ())) ++ [.closing])
    match operator with
    | .eq => compared .eq
    | .ne => compared .ne
    | .gt => compared .gt
    | .ge => compared .ge
    | .lt => compared .lt
    | .le => compared .le
    | .isIn => tested .isIn
    | .isOut => tested .notIn
  | .and left right => .opening :: (left.sql ++ .and :: right.sql ++ [.closing])
  | .or left right => .opening :: (left.sql ++ .or :: right.sql ++ [.closing])
def valuesOf : Node → List Bytes
  | .predicate _ _ values _ => values
  | .and left right | .or left right => valuesOf left ++ valuesOf right
def Filled : Node → Prop
  | .predicate _ operator values _ => operator.listed = true → values ≠ []
  | .and left right | .or left right => Filled left ∧ Filled right

instance : ∀ node, Decidable (Filled node)
  | .predicate .. => inferInstanceAs (Decidable (_ → _))
  | .and left right | .or left right => @instDecidableAnd _ _ (instDecidableFilled left) (instDecidableFilled right)

section
variable {Cell : Type} (order : Cell → Bytes → Ordering)

/-- An operator applied to a value of the row. -/
def satisfies (cell : Cell) : Operator → List Bytes → Bool
  | .eq, value :: _ => order cell value = .eq
  | .ne, value :: _ => order cell value ≠ .eq
  | .gt, value :: _ => order cell value = .gt
  | .ge, value :: _ => order cell value ≠ .lt
  | .lt, value :: _ => order cell value = .lt
  | .le, value :: _ => order cell value ≠ .gt
  | .isIn, values => ∃ value ∈ values, order cell value = .eq
  | .isOut, values => ∀ value ∈ values, order cell value ≠ .eq
  | _, [] => false
def meaning (row : Bytes → Cell) : Node → Bool
  | .predicate field operator values column => satisfies order (row (columnOf field column)) operator values
  | .and left right => meaning row left && meaning row right
  | .or left right => meaning row left || meaning row right
end

/-- A tree of the parser: the columns are those of allowed fields, and an operator has one value or a list of them. -/
def Built (opts : ParseOptions) : Node → Prop
  | .predicate field operator values column =>
    (∃ rule, Allowed opts field rule ∧ column = rule.column) ∧ (operator.listed = false → ∃ value, values = [value])
  | .and left right | .or left right => Built opts left ∧ Built opts right
/-- The values stand in the text one after the other. -/
inductive InOrder : Bytes → List Bytes → Prop
  | nil (w : Bytes) : InOrder w []
  | cons (before : Bytes) {w v rest : Bytes} {vs : List Bytes} : Value w v → InOrder rest vs →
      InOrder (before ++ (w ++ rest)) (v :: vs)
structure Read (opts : ParseOptions) (w : Bytes) (node : Node) : Prop where
  built : Built opts node
  ordered : InOrder w (valuesOf node)

variable {w : Bytes} {vs : List Bytes} {kind : Ending}

theorem InOrder.after (ordered : InOrder w vs) (before : Bytes) : InOrder (before ++ w) vs := by
  cases ordered with
  | nil => exact .nil _
  | cons before' value rest =>
    rw [← append_assoc]
    exact .cons (before ++ before') value rest
theorem InOrder.append {w' : Bytes} {vs' : List Bytes} (first : InOrder w vs) (second : InOrder w' vs') :
    InOrder (w ++ w') (vs ++ vs') := by
  induction first with
  | nil w => exact second.after w
  | cons before value _ ih =>
    rw [append_assoc,append_assoc]
    exact .cons before value ih
theorem InOrder.before (ordered : InOrder w vs) (rest : Bytes) : InOrder (w ++ rest) vs := by
  simpa using ordered.append (.nil rest)
theorem inOrder_value {v : Bytes} (value : Value w v) : InOrder w [v] := by
  simpa using InOrder.cons [] value (.nil [])
private theorem inOrder_items (items : Items w vs) : InOrder w vs := by
  induction items with
  | none => exact .nil _
  | last value => exact (inOrder_value value).before _
  | more value _ _ ih =>
    rw [append_assoc]
    exact (inOrder_value value).append (ih.after _)
private theorem inOrder_values {operator : Operator} (values : Values operator kind w vs) :
    InOrder w vs ∧ (operator.listed = false → ∃ value, vs = [value]) := by
  cases values with
  | single _ value => exact ⟨inOrder_value value,fun _ => ⟨_,rfl⟩⟩
  | list listed _ items => exact ⟨(inOrder_items items).after _,fun single => by simp [listed] at single⟩

variable {opts : ParseOptions} {node : Node}

private theorem read_primary (text : Primary opts (fun _ => Read opts) kind w node) : Read opts w node := by
  cases text with
  | predicate _ text =>
    cases text with
    | mk _ _ _ _ allowed values =>
      obtain ⟨ordered,single⟩ := inOrder_values values
      exact ⟨⟨⟨_,allowed,rfl⟩,single⟩,((((ordered.after _).after _).after _).after _).after _⟩
  | group _ read _ _ =>
    refine ⟨read.built,?_⟩
    rw [← singleton_append,← append_assoc]
    exact (read.ordered.before _).after _
private theorem read_chain {separator : UInt8} {join : Node → Node → Node} {L : Ending → Bytes → Node → Prop}
    (items : ∀ kind w node, L kind w node → Read opts w node)
    (built : ∀ left right, Built opts left → Built opts right → Built opts (join left right))
    (values : ∀ left right, valuesOf (join left right) = valuesOf left ++ valuesOf right) (text : Chain separator join L kind w node) :
    Read opts w node := by
  induction text with
  | one text => exact items _ _ _ text
  | more _ text ih =>
    have read := items _ _ _ text
    refine ⟨built _ _ ih.built read.built,?_⟩
    rw [values,← singleton_append]
    exact ih.ordered.append (read.ordered.after _)
theorem read_sound (opts : ParseOptions) (depth : Nat) : Sound (fun (_ : Ending) => Read opts) Stops (parseExpression opts depth) := by
  induction depth with
  | zero =>
    intro input node rest reads
    cases reads
  | succ depth ih =>
    intro input node rest reads
    obtain ⟨kind,w,split_,text,stop⟩ := chain_sound (chain_sound (primary_sound ih)) input node rest reads
    refine ⟨kind,w,split_,?_,stop⟩
    refine read_chain (fun _ _ _ item => read_chain (fun _ _ _ => read_primary) ?_ ?_ item) ?_ ?_ text
    · exact fun _ _ left right => ⟨left,right⟩
    · exact fun _ _ => rfl
    · exact fun _ _ left right => ⟨left,right⟩
    · exact fun _ _ => rfl

/-! ### Correctness -/

section
variable {Cell : Type} {order : Cell → Bytes → Ordering}

/-- The SQL is that of the shape, the arguments are the values, and with these it means what the filter means. -/
structure Compiled (order : Cell → Bytes → Ordering) (node : Node) (sqlizer : Sqlizer) : Prop where
  compiles : toSquirrel node = .ok sqlizer
  sql : sqlizer.toSql.1 = (shape node).sql
  args : sqlizer.toSql.2 = valuesOf node
  means : ∃ bound, bindArgs sqlizer.toSql.1 sqlizer.toSql.2 = some bound ∧ Clause order () bound (fun row => meaning order row node)

def comparisonOf : Operator → Option Comparison
  | .eq => some .eq
  | .ne => some .ne
  | .gt => some .gt
  | .ge => some .ge
  | .lt => some .lt
  | .le => some .le
  | .isIn | .isOut => none

variable {operator : Operator} {column : Bytes} {opts : ParseOptions} {op : Comparison} {field : Bytes} {keyword' : Token Bytes}
  {node : Node}

theorem comparison_spec (order : Cell → Bytes → Ordering) (is : comparisonOf operator = some op) : operator.listed = false ∧
    (∀ field values column, predicateToSquirrel field operator values column = compared (columnOf field column) op values) ∧
    (∀ column count, (Shape.predicate column operator count).sql = [.column column,.comparison op,.slot ()]) ∧
    ∀ cell value, op.holds (order cell value) = satisfies order cell operator [value] := by
  cases operator <;> cases is <;> refine ⟨rfl,fun _ _ _ => rfl,fun _ _ => rfl,fun cell value => ?_⟩ <;>
    cases ordered : order cell value <;> simp [Comparison.holds,satisfies,ordered]
private theorem comparison_compiled {value : Bytes} (is : comparisonOf operator = some op) :
    ∃ sqlizer, Compiled order (.predicate field operator [value] column) sqlizer := by
  obtain ⟨_,compiles,sql,same⟩ := comparison_spec order is
  have means : (fun row => meaning order row (.predicate field operator [value] column)) =
      fun row => op.holds (order (row (columnOf field column)) value) := by
    funext row
    rw [same]
    rfl
  refine ⟨_,compiles ..,(sql ..).symm,rfl,[.column (columnOf field column),.comparison op,.slot value],rfl,?_⟩
  rw [means]
  exact .comparison ..
private theorem test_filled (column : Bytes) (keyword : Token Unit) (fixed : keyword.fixed = some keyword') (values : List Bytes) :
    bindArgs (.column column :: keyword :: .opening :: (joined (List.replicate values.length (.slot ())) ++ [.closing])) values =
      some (.column column :: keyword' :: .opening :: (joined (values.map .slot) ++ [.closing])) := by
  have list := bindArgs_append (bindArgs_joined values) (show bindArgs [.closing] [] = some [.closing] from rfl)
  rw [append_nil] at list
  exact bindArgs_fixed rfl (bindArgs_fixed fixed (bindArgs_fixed rfl list))
theorem predicate_compiled {values : List Bytes} (built : Built opts (.predicate field operator values column))
    (filled : Filled (.predicate field operator values column)) :
    ∃ sqlizer, Compiled order (.predicate field operator values column) sqlizer := by
  cases is : comparisonOf operator with
  | some op =>
    obtain ⟨value,rfl⟩ := built.2 (comparison_spec order is).1
    exact comparison_compiled is
  | none =>
    cases operator with
    | isIn =>
      have means : (fun row => meaning order row (.predicate field .isIn values column)) =
          isAmong order (columnOf field column) values := by
        funext row
        rw [Bool.eq_iff_iff]
        simp [meaning,satisfies,isAmong]
      refine ⟨_,rfl,rfl,rfl,_,test_filled _ .isIn rfl values,?_⟩
      rw [means]
      exact .isIn _ (filled rfl)
    | isOut =>
      have means : (fun row => meaning order row (.predicate field .isOut values column)) =
          fun row => !isAmong order (columnOf field column) values row := by
        funext row
        rw [Bool.eq_iff_iff]
        simp [meaning,satisfies,isAmong]
      refine ⟨_,rfl,rfl,rfl,_,test_filled _ .notIn rfl values,?_⟩
      rw [means]
      exact .notIn _ (filled rfl)
    | eq | ne | gt | ge | lt | le => cases is
private theorem filled_pair {tokens tokens' : List (Token Unit)} {args args' : List Bytes} {bound bound' : List (Token Bytes)}
    (first : bindArgs tokens args = some bound) (second : bindArgs tokens' args' = some bound') (keyword : Token Unit)
    (fixed : keyword.fixed = some keyword') : bindArgs (.opening :: (tokens ++ keyword :: tokens' ++ [.closing])) (args ++ args') =
      some (.opening :: (bound ++ keyword' :: bound' ++ [.closing])) := by
  have last := bindArgs_append second (show bindArgs [.closing] [] = some [.closing] from rfl)
  rw [append_nil] at last
  have inside := bindArgs_append first (bindArgs_fixed fixed last)
  rw [append_assoc,append_assoc]
  exact bindArgs_fixed rfl inside
theorem compiled (order : Cell → Bytes → Ordering) (built : Built opts node) (filled : Filled node) :
    ∃ sqlizer, Compiled order node sqlizer := by
  induction node with
  | predicate field operator values column => exact predicate_compiled built filled
  | and left right ihLeft ihRight =>
    obtain ⟨first,compiles,sql,args,bound,fills,clause⟩ := ihLeft built.1 filled.1
    obtain ⟨second,compiles',sql',args',bound',fills',clause'⟩ := ihRight built.2 filled.2
    refine ⟨.and first second,by simp [toSquirrel,compiles,compiles',Except.bind],?_,?_,_,filled_pair fills fills' .and rfl,
      clause.and clause'⟩
    · simp [Sqlizer.toSql,sql,sql',shape,Shape.sql]
    · simp [Sqlizer.toSql,args,args',valuesOf]
  | or left right ihLeft ihRight =>
    obtain ⟨first,compiles,sql,args,bound,fills,clause⟩ := ihLeft built.1 filled.1
    obtain ⟨second,compiles',sql',args',bound',fills',clause'⟩ := ihRight built.2 filled.2
    refine ⟨.or first second,by simp [toSquirrel,compiles,compiles',Except.bind],?_,?_,_,filled_pair fills fills' .or rfl,
      clause.or clause'⟩
    · simp [Sqlizer.toSql,sql,sql',shape,Shape.sql]
    · simp [Sqlizer.toSql,args,args',valuesOf]

theorem sql_columns (s : Shape) : s.sql.filterMap Token.columnName = s.columns := by
  have list : ∀ n, (joined (List.replicate n (Token.slot ()))).filterMap Token.columnName = [] := by
    intro n
    rw [filterMap_eq_nil_iff]
    intro token member
    cases n with
    | zero => cases member
    | succ n =>
      simp only [joined,replicate_succ,mem_cons,mem_flatMap,mem_replicate,not_mem_nil,or_false] at member
      rcases member with rfl | ⟨_,⟨_,rfl⟩,rfl | rfl⟩ <;> rfl
  induction s with
  | predicate column operator values =>
    cases operator <;> simp only [Shape.sql,Shape.columns,filterMap_cons,filterMap_append,list,Token.columnName,
      filterMap_nil,append_nil]
  | and left right ihLeft ihRight | or left right ihLeft ihRight =>
    simp only [Shape.sql,Shape.columns,filterMap_cons,filterMap_append,ihLeft,ihRight,Token.columnName,filterMap_nil,append_nil]
theorem built_columns (built : Built opts node) (used : column ∈ (shape node).columns) :
    ∃ field rule, Allowed opts field rule ∧ column = columnOf field rule.column := by
  induction node with
  | predicate field operator values column' =>
    obtain ⟨⟨rule,allowed,rfl⟩,_⟩ := built
    exact ⟨field,rule,allowed,by simpa [shape,Shape.columns] using used⟩
  | and left right ihLeft ihRight | or left right ihLeft ihRight =>
    rcases mem_append.mp used with used | used
    · exact ihLeft built.1 used
    · exact ihRight built.2 used
/-- A parsed filter without an empty list compiles to SQL that its shape determines, with columns of allowed fields
    only. Its arguments are its values in the order of the input, one for each placeholder, and the text has no other
    question mark but those of the columns. The condition means what the filter means. -/
theorem parsed_compiled (order : Cell → Bytes → Ordering) {input : Bytes} {opts : ParseOptions} {filter : Filter}
    (parsed : parseRSQLWithOptions input opts = .ok filter) (filled : Filled filter.root) :
    ∃ sqlizer sql args, toSquirrel filter.root = .ok sqlizer ∧ sqlizer.toSql = (sql,args) ∧ sql = (shape filter.root).sql ∧
      (∀ column ∈ (shape filter.root).columns, ∃ field rule, Allowed opts field rule ∧ column = columnOf field rule.column) ∧
      args = valuesOf filter.root ∧ InOrder (trimSpace input) args ∧ slots sql = args.length ∧
      (sqlText sql).count questionMark = args.length+((shape filter.root).columns.map (count questionMark)).sum ∧
      evaluate order sql args = some (fun row => meaning order row filter.root) := by
  obtain ⟨⟨root,rest⟩,reads,returns⟩ : ∃ result, parseExpression opts (trimSpace input).length (trimSpace input) = .ok result ∧
      filter.root = result.1 := by
    unfold parseRSQLWithOptions at parsed
    split at parsed
    · cases parsed
    · obtain ⟨result,reads,built⟩ := bind_ok.mp parsed
      cases built
      exact ⟨result,reads,rfl⟩
  obtain ⟨_,w,whole,⟨built,ordered⟩,_⟩ := read_sound opts _ _ _ _ reads
  rw [returns] at filled ⊢
  obtain ⟨sqlizer,compiles,sql,args,bound,fills,clause⟩ := compiled order built filled
  have placeholders := bindArgs_length fills
  refine ⟨sqlizer,_,_,compiles,rfl,sql,fun column used => built_columns built used,args,?_,placeholders,?_,evaluate_clause fills clause⟩
  · rw [args,whole]
    exact ordered.before rest
  · rw [count_sqlText,placeholders,sql,sql_columns]
end

def listAndGroup : Bytes := text "status=in=(paid,it's);(amount=ge=100,kind==x)"
def byLength (cell : Nat) (value : Bytes) : Ordering := compare cell value.length
theorem parsed_compiled_listAndGroup : ∃ filter sqlizer, parseRSQL listAndGroup = .ok filter ∧ toSquirrel filter.root = .ok sqlizer ∧
    sqlText sqlizer.toSql.1 = text "(status IN (?, ?) AND (total_amount >= ? OR kind = ?))" ∧
    sqlizer.toSql.2 = [text "paid",text "it's",text "100",text "x"] ∧
    evaluate byLength sqlizer.toSql.1 sqlizer.toSql.2 = some (fun row => meaning byLength row filter.root) := by
  have seen : (parseRSQL listAndGroup).toOption.any (fun filter => decide (Filled filter.root ∧
      sqlText (shape filter.root).sql = text "(status IN (?, ?) AND (total_amount >= ? OR kind = ?))" ∧
      valuesOf filter.root = [text "paid",text "it's",text "100",text "x"])) = true := by decide +kernel
  cases parsed : parseRSQL listAndGroup with
  | error e => simp [parsed,Except.toOption] at seen
  | ok filter =>
    simp only [parsed,Except.toOption,Option.any_some,decide_eq_true_eq] at seen
    obtain ⟨filled,text_,values⟩ := seen
    obtain ⟨sqlizer,sql,args,compiles,same,sql_,_,args_,_,_,_,means⟩ := parsed_compiled byLength parsed filled
    refine ⟨filter,sqlizer,rfl,compiles,?_,?_,?_⟩
    · rw [same,sql_,text_]
    · rw [same,args_,values]
    · rw [same]
      exact means

end Stellabill.RsqlSql
