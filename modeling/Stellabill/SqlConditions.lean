import Mathlib.Algebra.Ring.Nat
import Mathlib.Data.List.Induction
import Stellabill.ByteStrings
import Stellabill.Parsing

/-!
Conditions of SQL on the columns of a row, as sequences of tokens with slots for the
arguments. They are read by the grammar in which AND binds tighter than OR. Rows have a
value in every column.
-/
namespace Stellabill.SqlConditions
open ByteStrings Parsing List

inductive Comparison
  | eq
  | ne
  | gt
  | ge
  | lt
  | le
  deriving DecidableEq, Repr

def Comparison.sql : Comparison → String
  | .eq => " = "
  | .ne => " != "
  | .gt => " > "
  | .ge => " >= "
  | .lt => " < "
  | .le => " <= "
def Comparison.holds : Comparison → Ordering → Bool
  | .eq, order => order == .eq
  | .ne, order => order != .eq
  | .gt, order => order == .gt
  | .ge, order => order == .gt || order == .eq
  | .lt, order => order == .lt
  | .le, order => order == .lt || order == .eq

inductive Token (α : Type)
  | column (name : Bytes)
  | comparison (op : Comparison)
  | slot (x : α)
  | isIn
  | notIn
  | comma
  | and
  | or
  | opening
  | closing
  deriving DecidableEq, Repr

def Token.text : Token Unit → Bytes
  | .column name => name
  | .comparison op => ByteStrings.text op.sql
  | .slot _ => ByteStrings.text "?"
  | .isIn => ByteStrings.text " IN "
  | .notIn => ByteStrings.text " NOT IN "
  | .comma => ByteStrings.text ", "
  | .and => ByteStrings.text " AND "
  | .or => ByteStrings.text " OR "
  | .opening => ByteStrings.text "("
  | .closing => ByteStrings.text ")"
def sqlText (tokens : List (Token Unit)) : Bytes := tokens.flatMap Token.text

def joined {α : Type} : List (Token α) → List (Token α)
  | [] => []
  | token :: rest => token :: rest.flatMap (fun token => [.comma,token])

def Token.fixed : Token Unit → Option (Token Bytes)
  | .slot _ => none
  | .column name => some (.column name)
  | .comparison op => some (.comparison op)
  | .isIn => some .isIn
  | .notIn => some .notIn
  | .comma => some .comma
  | .and => some .and
  | .or => some .or
  | .opening => some .opening
  | .closing => some .closing
/-- The arguments in the slots; none where there are more of the one than of the other. -/
def bindArgs : List (Token Unit) → List Bytes → Option (List (Token Bytes))
  | [], [] => some []
  | [], _ :: _ => none
  | token :: rest, args =>
    match token.fixed, args with
    | some token, args => (bindArgs rest args).map (token :: ·)
    | none, arg :: args => (bindArgs rest args).map (.slot arg :: ·)
    | none, [] => none

variable {args : List Bytes} {bound : List (Token Bytes)} {tokens : List (Token Unit)}

theorem bindArgs_fixed {token : Token Unit} {token' : Token Bytes} {rest : List (Token Unit)} (fixed : token.fixed = some token')
    (filled : bindArgs rest args = some bound) : bindArgs (token :: rest) args = some (token' :: bound) := by
  simp [bindArgs,fixed,filled]
theorem bindArgs_append {tokens' : List (Token Unit)} {args' : List Bytes} {bound' : List (Token Bytes)}
    (first : bindArgs tokens args = some bound) (second : bindArgs tokens' args' = some bound') :
    bindArgs (tokens ++ tokens') (args ++ args') = some (bound ++ bound') := by
  induction tokens generalizing args bound with
  | nil =>
    cases args with
    | nil => cases first; exact second
    | cons arg args => cases first
  | cons token rest ih =>
    simp only [cons_append,bindArgs] at first ⊢
    cases fixed : token.fixed with
    | some token =>
      simp only [fixed,Option.map_eq_some_iff] at first
      obtain ⟨tail,inner,rfl⟩ := first
      simp [ih inner]
    | none =>
      cases args with
      | nil => simp [fixed] at first
      | cons arg args =>
        simp only [fixed,Option.map_eq_some_iff] at first
        obtain ⟨tail,inner,rfl⟩ := first
        simp [ih inner]
def slots (tokens : List (Token Unit)) : Nat := tokens.countP (fun token => token.fixed.isNone)
def Token.columnName : Token Unit → Option Bytes
  | .column name => some name
  | _ => none
def questionMark : UInt8 := '?'.toUInt8

theorem bindArgs_length (filled : bindArgs tokens args = some bound) : slots tokens = args.length := by
  unfold slots
  induction tokens generalizing args bound with
  | nil =>
    cases args with
    | nil => rfl
    | cons arg args => cases filled
  | cons token rest ih =>
    simp only [bindArgs] at filled
    cases fixed : token.fixed with
    | some token =>
      simp only [fixed,Option.map_eq_some_iff] at filled
      obtain ⟨tail,inner,rfl⟩ := filled
      simp [fixed,ih inner]
    | none =>
      cases args with
      | nil => simp [fixed] at filled
      | cons arg args =>
        simp only [fixed,Option.map_eq_some_iff] at filled
        obtain ⟨tail,inner,rfl⟩ := filled
        simp [fixed,ih inner]
theorem count_sqlText : (sqlText tokens).count questionMark =
    slots tokens + ((tokens.filterMap Token.columnName).map (count questionMark)).sum := by
  induction tokens with
  | nil => rfl
  | cons token rest ih =>
    have plain : ∀ op : Comparison, (ByteStrings.text op.sql).count questionMark = 0 := by
      intro op
      cases op <;> decide +kernel
    have parts : (sqlText (token :: rest)).count questionMark = token.text.count questionMark + (sqlText rest).count questionMark := by
      simp [sqlText]
    have own : token.text.count questionMark =
        (if token.fixed.isNone then 1 else 0) + (token.columnName.map (count questionMark)).getD 0 := by
      cases token with
      | column name => simp [Token.text,Token.fixed,Token.columnName]
      | comparison op => exact plain op
      | slot x => cases x; decide +kernel
      | isIn | notIn | comma | and | or | opening | closing => decide +kernel
    rw [parts,own,ih,slots,slots,countP_cons]
    cases named : token.columnName with
    | none | some => simp [named]; omega
theorem bindArgs_joined (args : List Bytes) :
    bindArgs (joined (List.replicate args.length (.slot ()))) args = some (joined (args.map .slot)) := by
  cases args with
  | nil => rfl
  | cons arg args =>
    have rest : bindArgs ((List.replicate args.length (.slot ())).flatMap (fun token => [.comma,token])) args =
        some ((args.map .slot).flatMap (fun token => [.comma,token])) := by
      induction args with
      | nil => rfl
      | cons arg args ih =>
        rw [length_cons,replicate_succ]
        simpa [bindArgs,Token.fixed] using ih
    simp [joined,replicate_succ,bindArgs,Token.fixed,rest]

/-! ### Evaluation -/

section
variable {Cell : Type} (order : Cell → Bytes → Ordering)

abbrev Condition (Cell : Type) := (Bytes → Cell) → Bool

def slotValue : Parser (Token Bytes) Unit (List Bytes)
  | .slot arg :: rest => .ok ([arg],rest)
  | _ => .error ()
def closed {α : Type} : α × List (Token Bytes) → Except Unit (α × List (Token Bytes))
  | (x,.closing :: rest) => .ok (x,rest)
  | _ => .error ()
def isAmong (column : Bytes) (args : List Bytes) : Condition Cell := fun row => args.any (fun arg => order (row column) arg == .eq)
/-- A comparison, a membership test, or an expression in parentheses. -/
def sqlPrimary (expression : Parser (Token Bytes) Unit (Condition Cell)) : Parser (Token Bytes) Unit (Condition Cell)
  | .opening :: rest => (expression rest).bind closed
  | .column name :: .comparison op :: .slot arg :: rest => .ok (fun row => op.holds (order (row name) arg),rest)
  | .column name :: .isIn :: .opening :: rest =>
    ((chain .comma (· ++ ·) slotValue rest).bind closed).map (fun (args,rest) => (isAmong order name args,rest))
  | .column name :: .notIn :: .opening :: rest =>
    ((chain .comma (· ++ ·) slotValue rest).bind closed).map (fun (args,rest) => (fun row => !isAmong order name args row,rest))
  | _ => .error ()
def conjunction (f g : Condition Cell) : Condition Cell := fun row => f row && g row
def disjunction (f g : Condition Cell) : Condition Cell := fun row => f row || g row
/-- An expression of at most this depth. -/
def sqlExpression : Nat → Parser (Token Bytes) Unit (Condition Cell)
  | 0 => fun _ => .error ()
  | depth+1 => chain .or disjunction (chain .and conjunction (sqlPrimary order (sqlExpression depth)))
def evaluate (tokens : List (Token Unit)) (args : List Bytes) : Option (Condition Cell) :=
  (bindArgs tokens args).bind (fun bound =>
    match sqlExpression order bound.length bound with
    | .ok (f,[]) => some f
    | _ => none)

inductive Clause : Unit → List (Token Bytes) → Condition Cell → Prop
  | comparison (name : Bytes) (op : Comparison) (arg : Bytes) :
      Clause () [.column name,.comparison op,.slot arg] (fun row => op.holds (order (row name) arg))
  | isIn (name : Bytes) {args : List Bytes} : args ≠ [] →
      Clause () (.column name :: .isIn :: .opening :: (joined (args.map .slot) ++ [.closing])) (isAmong order name args)
  | notIn (name : Bytes) {args : List Bytes} : args ≠ [] →
      Clause () (.column name :: .notIn :: .opening :: (joined (args.map .slot) ++ [.closing]))
        (fun row => !isAmong order name args row)
  | and {w w' : List (Token Bytes)} {f g : Condition Cell} : Clause () w f → Clause () w' g →
      Clause () (.opening :: (w ++ .and :: w' ++ [.closing])) (conjunction f g)
  | or {w w' : List (Token Bytes)} {f g : Condition Cell} : Clause () w f → Clause () w' g →
      Clause () (.opening :: (w ++ .or :: w' ++ [.closing])) (disjunction f g)

variable {order}

inductive SlotText : Unit → List (Token Bytes) → List Bytes → Prop
  | mk (arg : Bytes) : SlotText () [.slot arg] [arg]

variable {args : List Bytes}

private theorem joined_chain (some_ : args ≠ []) : Chain Token.comma (· ++ ·) SlotText () (joined (args.map .slot)) args := by
  obtain ⟨first,rest,rfl⟩ := exists_cons_of_ne_nil some_
  induction rest using reverseRecOn with
  | nil => exact .one (.mk first)
  | append_singleton rest last ih => simpa [joined] using (ih (by simp)).more (.mk last)
theorem list_read (some_ : args ≠ []) (rest : List (Token Bytes)) :
    (chain .comma (· ++ ·) slotValue (joined (args.map .slot) ++ .closing :: rest)).bind closed = .ok (args,rest) := by
  have values : Complete SlotText (fun _ _ => True) (joined (args.map .slot) ++ .closing :: rest).length slotValue := by
    rintro _ w x after ⟨arg⟩ _ _
    rfl
  rw [chain_complete values (fun _ _ => trivial) () _ args (.closing :: rest) (joined_chain some_) ⟨trivial,by simp⟩ (Nat.le_refl _)]
  rfl
/-- The expressions whose operands have their own parentheses. -/
abbrev Clauses (order : Cell → Bytes → Ordering) : Unit → List (Token Bytes) → Condition Cell → Prop :=
  Chain .or disjunction (Chain .and conjunction (Clause order))

theorem clauses_read {size : Nat} {expression : Parser (Token Bytes) Unit (Condition Cell)}
    (complete : Complete (Clause order) (fun _ _ => True) size expression) :
    Complete (Clauses order) (Ends .or (Ends .and (fun _ _ => True))) size (chain .or disjunction (chain .and conjunction expression)) :=
  chain_complete (chain_complete complete (fun _ _ => trivial)) (fun _ _ => ⟨trivial,by simp⟩)
private theorem clause_read (depth : Nat) :
    Complete (Clause order) (fun _ _ => True) (depth+1) (sqlPrimary order (sqlExpression order depth)) := by
  induction depth with
  | zero =>
    intro _ w f rest clause _ fits
    cases clause <;> simp at fits
  | succ depth ih =>
    intro _ w f rest clause _ fits
    have inside : ∀ w : List (Token Bytes), Clauses order () w f → (Token.opening :: (w ++ [Token.closing]) ++ rest).length ≤ depth+1+1 →
        sqlPrimary order (sqlExpression order (depth+1)) (Token.opening :: (w ++ [Token.closing]) ++ rest) = .ok (f,rest) := by
      intro w clauses fits
      have reads := clauses_read ih () w f (.closing :: rest) clauses ⟨⟨trivial,by simp⟩,by simp⟩
        (by simp only [cons_append,length_cons,length_append,length_nil] at fits ⊢; omega)
      simp only [append_assoc,cons_append,nil_append,sqlPrimary,sqlExpression,reads]
      rfl
    cases clause with
    | comparison name op arg => rfl
    | isIn name some_ => simp [sqlPrimary,list_read some_ rest,Except.map]
    | notIn name some_ => simp [sqlPrimary,list_read some_ rest,Except.map]
    | and left right => exact inside _ (.one ((Chain.one left).more right)) fits
    | or left right => exact inside _ ((Chain.one (.one left)).more (.one right)) fits
theorem evaluate_clause {tokens : List (Token Unit)} {bound : List (Token Bytes)} {f : Condition Cell}
    (filled : bindArgs tokens args = some bound) (clause : Clause order () bound f) : evaluate order tokens args = some f := by
  obtain ⟨depth,size⟩ : ∃ depth, bound.length = depth+1 := by
    cases clause <;> exact ⟨_,rfl⟩
  have complete : Complete (Clause order) (fun _ _ => True) (depth+1) (sqlPrimary order (sqlExpression order depth)) := clause_read depth
  have reads := clauses_read complete () bound f [] (.one (.one clause))
    ⟨⟨trivial,by simp⟩,by simp⟩ (by simp [size])
  rw [append_nil] at reads
  simp [evaluate,filled,size,sqlExpression,reads]
end

end Stellabill.SqlConditions
