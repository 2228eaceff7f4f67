import Stellabill.Rsql

/-!
The grammar of RSQL filters, and the filters that the parser accepts. The parser returns
the tree of the longest expression that the filter begins with, and drops what follows
without an error.
-/
namespace Stellabill.RsqlGrammar
open ByteStrings Parsing Rsql List

/-- An expression ends with a value, which takes in everything up to a delimiter, or with a closing parenthesis. -/
inductive Ending
  | value
  | closed
  deriving DecidableEq

def Whitespace (w : Bytes) : Prop := ∀ b ∈ w, whitespace b = true
def FieldName (w : Bytes) : Prop := w ≠ [] ∧ ∀ b ∈ w, identifier b = true
/-- An operator is written `==` or with its name between equality signs. -/
def OperatorText (w : Bytes) (operator : Operator) : Prop :=
  (w = [equals,equals] ∧ operator = .eq) ∨ ∃ name, operatorNames.lookup name = some operator ∧ w = equals :: name ++ [equals]
/-- The bytes of a value, where a backslash takes the next byte as it is. -/
inductive Escaped : Bytes → Bytes → Prop
  | nil : Escaped [] []
  | plain {b : UInt8} {w v : Bytes} : delimiter b = false → b ≠ backslash → Escaped w v → Escaped (b :: w) (b :: v)
  | escape {b : UInt8} {w v : Bytes} : Escaped w v → Escaped (backslash :: b :: w) (b :: v)
structure Value (w v : Bytes) : Prop where
  escaped : Escaped w v
  nonempty : v ≠ []
  valid : validString v = true
  trimmed : ∀ b, w.head? = some b → whitespace b = false
/-- The values of a list with the parenthesis that closes it; a comma may follow the last one. -/
inductive Items : Bytes → List Bytes → Prop
  | none : Items [closing] []
  | last {w v : Bytes} : Value w v → Items (w ++ [closing]) [v]
  | more {w v gap w' : Bytes} {vs : List Bytes} : Value w v → Whitespace gap → Items w' vs →
      Items (w ++ comma :: gap ++ w') (v :: vs)
inductive Values : Operator → Ending → Bytes → List Bytes → Prop
  | single {operator : Operator} {w v : Bytes} : operator.listed = false → Value w v → Values operator .value w [v]
  | list {operator : Operator} {gap w : Bytes} {vs : List Bytes} : operator.listed = true → Whitespace gap → Items w vs →
      Values operator .closed (opening :: gap ++ w) vs
def Allowed (opts : ParseOptions) (field : Bytes) (rule : FieldRule) : Prop :=
  opts.rule field = some rule ∧ (rule.indexed = true ∨ opts.allowUnindexed = true)
inductive Predicate (opts : ParseOptions) : Ending → Bytes → Node → Prop
  | mk {field gap o gap' w : Bytes} {operator : Operator} {rule : FieldRule} {kind : Ending} {values : List Bytes} :
      FieldName field → Whitespace gap → OperatorText o operator → Whitespace gap' → Allowed opts field rule →
      Values operator kind w values →
      Predicate opts kind (field ++ (gap ++ (o ++ (gap' ++ w)))) (.predicate field operator values rule.column)
/-- A predicate, or an expression in parentheses. White space after a value belongs to the value. -/
inductive Primary (opts : ParseOptions) (E : Ending → Bytes → Node → Prop) : Ending → Bytes → Node → Prop
  | predicate {gap w : Bytes} {kind : Ending} {node : Node} : Whitespace gap → Predicate opts kind w node →
      Primary opts E kind (gap ++ w) node
  | group {gap gap' w : Bytes} {kind : Ending} {node : Node} : Whitespace gap → E kind w node → Whitespace gap' →
      (kind = .value → gap' = []) → Primary opts E .closed (gap ++ opening :: (w ++ (gap' ++ [closing]))) node
/-- An expression: primaries joined by `;`, and these joined by `,`. -/
inductive Expression (opts : ParseOptions) : Ending → Bytes → Node → Prop
  | mk {kind : Ending} {w : Bytes} {node : Node} :
      Chain comma Node.or (Chain semicolon Node.and (Primary opts (Expression opts))) kind w node → Expression opts kind w node

def Delimited (kind : Ending) (rest : Bytes) : Prop := kind = .value → ∀ b, rest.head? = some b → delimiter b = true
/-- An expression with this ending goes no further. -/
abbrev Stops : Ending → Bytes → Prop := Ends comma (Ends semicolon Delimited)

theorem stops_nil (kind : Ending) : Stops kind [] := ⟨⟨by simp [Delimited],by simp⟩,by simp⟩

variable {kind : Ending} {b : UInt8} {rest input field v w : Bytes} {operator : Operator} {rounds : Nat} {vs : List Bytes}
  {opts : ParseOptions} {node : Node}

theorem stops_cons : Stops kind (b :: rest) ↔ b ≠ comma ∧ b ≠ semicolon ∧ (kind = .value → b = closing) := by
  simp only [Stops,Ends,Delimited,delimiter,head?_cons,Option.some.injEq,forall_eq',Bool.or_eq_true,decide_eq_true_eq,ne_eq]
  grind

theorem not_identifier_of_whitespace (blank : whitespace b = true) : identifier b = false := by
  simp only [whitespace,Bool.or_eq_true,decide_eq_true_eq] at blank
  rcases blank with ((rfl | rfl) | rfl) | rfl <;> decide
theorem not_whitespace_of_identifier (named : identifier b = true) : whitespace b = false := by
  by_cases blank : whitespace b = true
  · rw [not_identifier_of_whitespace blank] at named
    cases named
  · simpa using blank
theorem not_whitespace_of_delimiter (ends : delimiter b = true) : whitespace b = false := by
  simp only [delimiter,Bool.or_eq_true,decide_eq_true_eq] at ends
  rcases ends with (rfl | rfl) | rfl <;> decide

def Dense (rest : Bytes) : Prop := ∀ b, rest.head? = some b → whitespace b = false
def AtDelimiter (rest : Bytes) : Prop := ∀ b, rest.head? = some b → delimiter b = true

theorem AtDelimiter.dense (at_ : AtDelimiter rest) : Dense rest :=
  fun b first => not_whitespace_of_delimiter (at_ b first)
theorem dense_cons (visible : whitespace b = false) (rest : Bytes) : Dense (b :: rest) := by
  simpa [Dense] using visible

variable {gap : Bytes} {expression : Reader Node}

theorem skip_gap (blank : Whitespace gap) (dense : Dense rest) : skipWhitespace (gap ++ rest) = rest :=
  dropWhile_append blank dense
theorem skip_dense (dense : Dense rest) : skipWhitespace rest = rest := by
  have none_ : Whitespace [] := by simp [Whitespace]
  exact skip_gap none_ dense
theorem gap_of_skip (input : Bytes) :
    ∃ gap, input = gap ++ skipWhitespace input ∧ Whitespace gap ∧ Dense (skipWhitespace input) := skipped whitespace input

theorem identifier_sound (reads : parseIdentifier input = .ok (field,rest)) : input = field ++ rest ∧ FieldName field := by
  unfold parseIdentifier at reads
  split at reads <;> cases reads
  next some_ =>
  exact ⟨takeWhile_append_dropWhile.symm,some_,fun b member => mem_takeWhile_imp member⟩
theorem identifier_complete (name : FieldName field) (stop : ∀ b, rest.head? = some b → identifier b = false) :
    parseIdentifier (field ++ rest) = .ok (field,rest) := by
  rw [parseIdentifier,takeWhile_append name.2 stop,dropWhile_append name.2 stop,if_neg name.1]
private theorem operatorNames_plain {name : Bytes} (named : operatorNames.lookup name = some operator) :
    name.head? ≠ some equals ∧ ∀ b ∈ name, b ≠ equals := by
  obtain ⟨before,after,split,_⟩ := lookup_eq_some_iff.mp named
  have all : ∀ entry ∈ operatorNames, entry.1.head? ≠ some equals ∧ ∀ b ∈ entry.1, b ≠ equals := by decide +kernel
  exact all (name,operator) (by rw [split]; simp)
theorem operator_sound (reads : operatorTail input = .ok (operator,rest)) :
    ∃ o, equals :: input = o ++ rest ∧ OperatorText o operator := by
  unfold operatorTail at reads
  split at reads
  · next first =>
    cases reads
    obtain ⟨after,rfl⟩ : ∃ after, input = equals :: after := by
      cases input with
      | nil => cases first
      | cons b after => exact ⟨after,by simpa using first⟩
    exact ⟨[equals,equals],rfl,.inl ⟨rfl,rfl⟩⟩
  · split at reads
    · cases reads
    · next b after left =>
      split at reads <;> cases reads
      next named =>
      have sign : b = equals := by
        have := head?_dropWhile_not (· ≠ equals) input
        rw [left] at this
        simpa using this
      have whole := takeWhile_append_dropWhile (p := (· ≠ equals)) (l := input)
      rw [left,sign] at whole
      refine ⟨equals :: input.takeWhile (· ≠ equals) ++ [equals],?_,.inr ⟨_,named,rfl⟩⟩
      rw [append_assoc,cons_append,singleton_append,whole]
theorem operator_complete {o : Bytes} (written : OperatorText o operator) (rest : Bytes) :
    ∃ o', o = equals :: o' ∧ operatorTail (o' ++ rest) = .ok (operator,rest) := by
  rcases written with ⟨rfl,rfl⟩ | ⟨name,named,rfl⟩
  · exact ⟨[equals],rfl,by simp [operatorTail]⟩
  · refine ⟨name ++ [equals],rfl,?_⟩
    obtain ⟨first,plain⟩ := operatorNames_plain named
    have kept : ∀ b ∈ name, decide (b ≠ equals) = true := fun b member => by simpa using plain b member
    have stop : ∀ b, (equals :: rest).head? = some b → decide (b ≠ equals) = false := by simp
    have other : (name ++ equals :: rest).head? ≠ some equals := by
      cases name with
      | nil => cases named
      | cons b name => exact first
    rw [append_assoc,singleton_append,operatorTail,if_neg other,takeWhile_append kept stop,dropWhile_append kept stop]
    simp only [named]

private theorem valueLoop_sound (reads : valueLoop input = .ok (v,rest)) : ∃ w, input = w ++ rest ∧ Escaped w v ∧ AtDelimiter rest := by
  induction input using valueLoop.induct generalizing v with
  | case1 =>
    cases reads
    exact ⟨[],rfl,.nil,by simp [AtDelimiter]⟩
  | case2 b after ends =>
    rw [valueLoop_ends after ends] at reads
    cases reads
    exact ⟨[],rfl,.nil,by simpa [AtDelimiter] using ends⟩
  | case3 goes => simp [valueLoop,goes] at reads
  | case4 c after goes ih =>
    obtain ⟨⟨v',rest'⟩,inner,outer⟩ := bind_ok.mp reads
    cases outer
    obtain ⟨w,rfl,escaped,at_⟩ := ih inner
    exact ⟨backslash :: c :: w,rfl,escaped.escape,at_⟩
  | case5 b after goes other ih =>
    have inside : delimiter b = false := by simpa using goes
    rw [valueLoop_plain after inside other] at reads
    obtain ⟨⟨v',rest'⟩,inner,outer⟩ := bind_ok.mp reads
    cases outer
    obtain ⟨w,rfl,escaped,at_⟩ := ih inner
    exact ⟨b :: w,rfl,escaped.plain inside other,at_⟩
private theorem valueLoop_complete (escaped : Escaped w v) (at_ : AtDelimiter rest) : valueLoop (w ++ rest) = .ok (v,rest) := by
  induction escaped with
  | nil =>
    cases rest with
    | nil => rfl
    | cons b rest =>
      exact valueLoop_ends rest (at_ b rfl)
  | plain inside other _ ih =>
    rw [cons_append,valueLoop_plain _ inside other,ih]
    rfl
  | escape _ ih =>
    rw [cons_append,cons_append,valueLoop_escape,ih]
    rfl
theorem value_sound (reads : parseValue input = .ok (v,rest)) : ∃ w, skipWhitespace input = w ++ rest ∧ Value w v ∧ AtDelimiter rest := by
  unfold parseValue at reads
  split at reads
  · cases reads
  · obtain ⟨⟨v',rest'⟩,inner,outer⟩ := bind_ok.mp reads
    obtain ⟨w,split_,escaped,at_⟩ := valueLoop_sound inner
    simp only at outer
    split at outer
    · cases outer
    · next nonempty =>
      split at outer <;> cases outer
      next valid =>
      refine ⟨w,split_,⟨escaped,nonempty,valid,?_⟩,at_⟩
      intro b first
      obtain ⟨_,_,_,dense⟩ := gap_of_skip input
      refine dense b ?_
      rw [split_,head?_append,first]
      rfl
theorem Value.dense (value : Value w v) (rest : Bytes) : Dense (w ++ rest) ∧ w ++ rest ≠ [] := by
  obtain ⟨escaped,nonempty,_,trimmed⟩ := value
  cases w with
  | nil =>
    cases escaped
    exact absurd rfl nonempty
  | cons b w => exact ⟨dense_cons (trimmed b rfl) _,by simp⟩
theorem value_complete (value : Value w v) (at_ : AtDelimiter rest) : parseValue (w ++ rest) = .ok (v,rest) := by
  obtain ⟨dense,some_⟩ := value.dense rest
  rw [parseValue,skip_dense dense,if_neg some_,valueLoop_complete value.escaped at_]
  simp [Except.bind,value.nonempty,value.valid]

theorem listLoop_sound (dense : Dense input) (reads : listLoop rounds input = .ok (vs,rest)) : ∃ w, input = w ++ rest ∧ Items w vs := by
  induction rounds generalizing input vs with
  | zero => cases reads
  | succ rounds ih =>
    cases input with
    | nil => cases reads
    | cons b after =>
      simp only [listLoop] at reads
      split at reads
      · next same =>
        cases reads
        exact ⟨[closing],by simp [same],.none⟩
      · obtain ⟨⟨v,after'⟩,first,reads⟩ := bind_ok.mp reads
        obtain ⟨w,split_,value,at_⟩ := value_sound first
        rw [skip_dense dense] at split_
        simp only [skip_dense at_.dense] at reads
        split at reads
        · cases reads
        · next c after'' =>
          split at reads
          · next same =>
            obtain ⟨⟨vs',rest'⟩,again,last⟩ := bind_ok.mp reads
            cases last
            obtain ⟨gap,gapped,blank,dense'⟩ := gap_of_skip after''
            obtain ⟨w',split',items⟩ := ih dense' again
            refine ⟨w ++ comma :: gap ++ w',?_,.more value blank items⟩
            rw [split_,same,gapped,split']
            simp
          · split at reads <;> cases reads
            next same =>
            refine ⟨w ++ [closing],?_,.last value⟩
            rw [split_,same]
            simp
theorem items_dense (items : Items w vs) (rest : Bytes) : Dense (w ++ rest) := by
  cases items with
  | none => exact dense_cons (by decide) _
  | last value => rw [append_assoc]; exact (value.dense _).1
  | more value _ _ => rw [append_assoc,append_assoc]; exact (value.dense _).1
theorem Value.first (value : Value w v) (rest : Bytes) : ∃ b after, w ++ rest = b :: after ∧ b ≠ closing := by
  obtain ⟨escaped,nonempty,_,_⟩ := value
  cases escaped with
  | nil => exact absurd rfl nonempty
  | plain inside _ _ =>
    refine ⟨_,_,rfl,?_⟩
    rintro rfl
    exact absurd inside (by decide)
  | escape _ => exact ⟨backslash,_,rfl,by decide⟩
private theorem listLoop_value (value : Value w v) {c : UInt8} (ends : delimiter c = true) :
    listLoop (rounds+1) (w ++ c :: rest) =
      if c = comma then (listLoop rounds (skipWhitespace rest)).bind (fun (values,rest) => .ok (v :: values,rest))
      else if c = closing then .ok ([v],rest)
      else .error .expectedCommaOrClosing := by
  have at_ : AtDelimiter (c :: rest) := by simpa [AtDelimiter] using ends
  obtain ⟨b,after,same,other⟩ := value.first (c :: rest)
  rw [same,listLoop,if_neg other,← same,value_complete value at_]
  simp only [Except.bind,skip_dense at_.dense]
theorem listLoop_complete (items : Items w vs) (fits : (w ++ rest).length ≤ rounds) : listLoop rounds (w ++ rest) = .ok (vs,rest) := by
  induction items generalizing rounds with
  | none =>
    cases rounds with
    | zero => simp at fits
    | succ rounds => simp [listLoop]
  | @last w v value =>
    cases rounds with
    | zero => simp at fits
    | succ rounds =>
      rw [append_assoc,singleton_append,listLoop_value value (by decide),if_neg (by decide),if_pos rfl]
  | @more w v gap w' vs value blank items ih =>
    cases rounds with
    | zero => simp at fits
    | succ rounds =>
      have shorter : (w' ++ rest).length ≤ rounds := by
        simp only [length_append,length_cons] at fits ⊢
        omega
      rw [append_assoc,append_assoc,cons_append,listLoop_value value (by decide),skip_gap blank (items_dense items rest),ih shorter]
      rfl
private theorem list_sound (reads : parseListValue input = .ok (vs,rest)) :
    ∃ gap w, skipWhitespace input = opening :: gap ++ w ++ rest ∧ Whitespace gap ∧ Items w vs := by
  unfold parseListValue at reads
  split at reads
  · cases reads
  · next b after left =>
    split at reads
    · next same =>
      obtain ⟨gap,gapped,blank,dense⟩ := gap_of_skip after
      obtain ⟨w,split_,items⟩ := listLoop_sound dense reads
      refine ⟨gap,w,?_,blank,items⟩
      rw [left,same,gapped,split_]
      simp
    · cases reads
private theorem list_complete (blank : Whitespace gap) (items : Items w vs) :
    parseListValue (opening :: (gap ++ (w ++ rest))) = .ok (vs,rest) := by
  have dense : Dense (opening :: (gap ++ (w ++ rest))) := dense_cons (by decide) _
  simp only [parseListValue,skip_dense dense,if_true,skip_gap blank (items_dense items rest)]
  exact listLoop_complete items (Nat.le_refl _)

/-! ### Predicates -/

theorem values_sound (dense : Dense input) (reads : parseValues operator input = .ok (vs,rest)) :
    ∃ kind w, input = w ++ rest ∧ Values operator kind w vs ∧ Delimited kind rest := by
  unfold parseValues at reads
  split at reads
  · next listed =>
    obtain ⟨gap,w,split_,blank,items⟩ := list_sound reads
    rw [skip_dense dense] at split_
    exact ⟨.closed,opening :: gap ++ w,split_,.list listed blank items,by simp [Delimited]⟩
  · next listed =>
    obtain ⟨⟨v,rest'⟩,once,last⟩ := bind_ok.mp reads
    cases last
    obtain ⟨w,split_,value,at_⟩ := value_sound once
    rw [skip_dense dense] at split_
    exact ⟨.value,w,split_,.single (by simpa using listed) value,fun _ => at_⟩
theorem values_complete (values : Values operator kind w vs) (stop : Delimited kind rest) : parseValues operator (w ++ rest) = .ok (vs,rest) := by
  cases values with
  | single listed value =>
    simp [parseValues,listed,value_complete value (stop rfl),Except.bind]
  | list listed blank items =>
    rw [parseValues,if_pos listed,cons_append,cons_append,append_assoc]
    exact list_complete blank items
theorem values_dense (values : Values operator kind w vs) (rest : Bytes) : Dense (w ++ rest) := by
  cases values with
  | single _ value => exact (value.dense rest).1
  | list _ _ _ => exact dense_cons (by decide) _
theorem checkField_ok {rule : FieldRule} : checkField opts field = .ok rule ↔ Allowed opts field rule := by
  unfold checkField Allowed
  cases opts.rule field with
  | none => simp
  | some found =>
    by_cases refused : (!found.indexed && !opts.allowUnindexed) = true
    · simp only [refused,if_true,reduceCtorEq,Option.some.injEq,false_iff,not_and]
      rintro rfl
      simpa using refused
    · simp only [refused,Bool.false_eq_true,if_false,Except.ok.injEq,Option.some.injEq]
      constructor
      · rintro rfl
        cases indexed : found.indexed <;> simp_all
      · exact And.left
theorem predicate_sound (opts : ParseOptions) : Sound (Predicate opts) Delimited (parsePredicate opts) := by
  intro input node rest reads
  obtain ⟨⟨field,after⟩,named,goes⟩ := bind_ok.mp reads
  obtain ⟨rfl,name⟩ := identifier_sound named
  simp only at goes
  split at goes
  · cases goes
  · obtain ⟨⟨operator,after'⟩,compared,goes⟩ := bind_ok.mp goes
    obtain ⟨rule,allowed,goes⟩ := bind_ok.mp goes
    obtain ⟨⟨values,after''⟩,valued,goes⟩ := bind_ok.mp goes
    cases goes
    obtain ⟨gap,gapped,blank,dense⟩ := gap_of_skip after
    obtain ⟨gap',gapped',blank',dense'⟩ := gap_of_skip after'
    obtain ⟨kind,w,split_,text,stop⟩ := values_sound dense' valued
    simp only [parseOperator,skip_dense dense] at compared
    split at compared
    · cases compared
    · next b left starts =>
      split at compared
      · next sign =>
        obtain ⟨o,split',written⟩ := operator_sound compared
        refine ⟨kind,field ++ (gap ++ (o ++ (gap' ++ w))),?_,.mk name blank written blank' (checkField_ok.mp allowed) text,stop⟩
        rw [gapped,starts,sign,split',gapped',split_]
        simp
      · cases compared
theorem predicate_complete (opts : ParseOptions) (size : Nat) : Complete (Predicate opts) Delimited size (parsePredicate opts) := by
  intro kind w node rest text stop _
  cases text with
  | @mk field gap o gap' w operator rule _ values name blank written blank' allowed text =>
    obtain ⟨o',rfl,compared⟩ := operator_complete written (gap' ++ (w ++ rest))
    let after := equals :: (o' ++ (gap' ++ (w ++ rest)))
    have dense : Dense after := dense_cons (by decide) _
    have stops : ∀ b, (gap ++ after).head? = some b → identifier b = false := by
      intro b first
      cases gap with
      | nil =>
        cases first
        decide
      | cons c gap =>
        cases first
        exact not_identifier_of_whitespace (blank b (by simp))
    have whole : field ++ (gap ++ (equals :: o' ++ (gap' ++ w))) ++ rest = field ++ (gap ++ after) := by simp [after]
    rw [whole,parsePredicate,identifier_complete name stops]
    simp only [Except.bind,skip_gap blank dense]
    rw [if_neg (by simp [after]),parseOperator,skip_dense dense]
    simp only [after,if_true,compared,checkField_ok.mpr allowed,skip_gap blank' (values_dense text rest),values_complete text stop]

theorem primary_sound {E : Ending → Bytes → Node → Prop} (sound : Sound E Stops expression) :
    Sound (Primary opts E) Delimited (parsePrimary opts expression) := by
  intro input node rest reads
  obtain ⟨gap,gapped,blank,dense⟩ := gap_of_skip input
  unfold parsePrimary at reads
  split at reads
  · cases reads
  · next b after left =>
    rw [left] at gapped
    split at reads
    · next same =>
      obtain ⟨⟨node',after'⟩,inner,goes⟩ := bind_ok.mp reads
      obtain ⟨kind,w,rfl,text,⟨delimited,notSemicolon⟩,notComma⟩ := sound after node' after' inner
      obtain ⟨gap',gapped',blank',_⟩ := gap_of_skip after'
      simp only at goes
      split at goes
      · cases goes
      · next c after'' left' =>
        split at goes <;> cases goes
        next same' =>
        have tight : kind = .value → gap' = [] := by
          intro value
          cases gap' with
          | nil => rfl
          | cons d gap' =>
            have first : after'.head? = some d := by rw [gapped']; rfl
            have ends := not_whitespace_of_delimiter (delimited value d first)
            rw [blank' d (by simp)] at ends
            cases ends
        refine ⟨.closed,gap ++ opening :: (w ++ (gap' ++ [closing])),?_,.group blank text blank' tight,by simp [Delimited]⟩
        rw [gapped,same,gapped',left',same']
        simp
    · obtain ⟨kind,w,split_,text,stop⟩ := predicate_sound opts (b :: after) node rest reads
      refine ⟨kind,gap ++ w,?_,.predicate blank text,stop⟩
      rw [gapped,split_,append_assoc]
theorem predicate_first (text : Predicate opts kind w node) : ∃ b after, w = b :: after ∧ identifier b = true := by
  cases text with
  | mk name _ _ _ _ _ =>
    obtain ⟨some_,all⟩ := name
    obtain ⟨b,field,rfl⟩ := exists_cons_of_ne_nil some_
    exact ⟨b,_,rfl,all b (by simp)⟩
theorem primary_complete {size : Nat} (complete : Complete (Expression opts) Stops size expression) :
    Complete (Primary opts (Expression opts)) Delimited (size+1) (parsePrimary opts expression) := by
  intro kind w node rest text stop fits
  cases text with
  | @predicate gap w _ _ blank text =>
    have reads := predicate_complete opts _ kind w node rest text stop (Nat.le_refl _)
    obtain ⟨b,after,rfl,named⟩ := predicate_first text
    have other : b ≠ opening := by
      rintro rfl
      exact absurd named (by decide)
    have dense : Dense (b :: (after ++ rest)) := dense_cons (not_whitespace_of_identifier named) _
    rw [append_assoc,parsePrimary,cons_append,skip_gap blank dense]
    simp only [other,if_false]
    exact reads
  | @group gap gap' w kind' _ blank text blank' tight =>
    have ends : Stops kind' (gap' ++ closing :: rest) := by
      cases gap' with
      | nil => exact stops_cons.mpr ⟨by decide,by decide,fun _ => rfl⟩
      | cons b gap' =>
        have visible := blank' b (by simp)
        refine stops_cons.mpr ⟨?_,?_,fun value => absurd (tight value) (by simp)⟩
        · rintro rfl
          exact absurd visible (by decide)
        · rintro rfl
          exact absurd visible (by decide)
    have within : (w ++ (gap' ++ closing :: rest)).length ≤ size := by
      simp only [length_append,length_cons,length_nil] at fits ⊢
      omega
    have whole : gap ++ opening :: (w ++ (gap' ++ [closing])) ++ rest = gap ++ opening :: (w ++ (gap' ++ closing :: rest)) := by
      simp
    rw [whole,parsePrimary,skip_gap blank (dense_cons (by decide) _)]
    simp only [if_true,complete _ _ _ _ text ends within,Except.bind,
      skip_gap blank' (dense_cons (show whitespace closing = false from by decide) rest)]
private theorem expression_nonempty (text : Expression opts kind w node) : w ≠ [] := by
  cases text with
  | mk text =>
    refine chain_nonempty (fun _ _ _ item => chain_nonempty (fun _ _ _ primary => ?_) item) text
    cases primary with
    | predicate _ text =>
      obtain ⟨b,after,rfl,_⟩ := predicate_first text
      simp
    | group _ _ _ _ => simp
section
variable (opts : ParseOptions)
private theorem parseExpression_sound (depth : Nat) : Sound (Expression opts) Stops (parseExpression opts depth) := by
  induction depth with
  | zero =>
    intro input node rest reads
    cases reads
  | succ depth ih =>
    intro input node rest reads
    obtain ⟨kind,w,split_,text,stop⟩ := chain_sound (chain_sound (primary_sound ih)) input node rest reads
    exact ⟨kind,w,split_,.mk text,stop⟩
theorem parseExpression_complete (depth : Nat) : Complete (Expression opts) Stops depth (parseExpression opts depth) := by
  induction depth with
  | zero =>
    intro kind w node rest text stop fits
    have empty : w = [] := by
      cases w with
      | nil => rfl
      | cons b w => simp at fits
    exact absurd empty (expression_nonempty text)
  | succ depth ih =>
    rintro kind w node rest ⟨text⟩ stop fits
    have primaries := primary_complete ih
    have conjunctions : Complete (Chain semicolon Node.and (Primary opts (Expression opts))) (Ends semicolon Delimited) (depth+1)
        (parseAnd opts (parseExpression opts depth)) :=
      chain_complete primaries (fun _ _ _ b first => by cases first; decide)
    refine chain_complete conjunctions ?_ kind w node rest text stop fits
    exact fun _ _ => ⟨fun _ b first => by cases first; decide,by simpa using (show comma ≠ semicolon from by decide)⟩

/-- The node is the tree of the whole text, and no other is. -/
def TreeOf (w : Bytes) (node : Node) : Prop :=
  (∃ kind, Expression opts kind w node) ∧ ∀ kind node', Expression opts kind w node' → node' = node
/-- The text begins with an expression that what follows it does not continue. -/
def Stray (w : Bytes) : Prop :=
  ∃ first rest kind node, w = first ++ rest ∧ rest ≠ [] ∧ Expression opts kind first node ∧ Stops kind rest
end

theorem expression_read (text : Expression opts kind w node) (stop : Stops kind rest) :
    parseExpression opts (w ++ rest).length (w ++ rest) = .ok (node,rest) :=
  parseExpression_complete opts _ kind w node rest text stop (Nat.le_refl _)
theorem whole_read (text : Expression opts kind w node) : parseExpression opts w.length w = .ok (node,[]) := by
  simpa using expression_read text (stops_nil kind)
private theorem parse_ok {filter : Filter} (parsed : parseRSQLWithOptions input opts = .ok filter) :
    filter.raw = trimSpace input ∧ ∃ kind first rest, trimSpace input = first ++ rest ∧ Expression opts kind first filter.root ∧
      Stops kind rest := by
  unfold parseRSQLWithOptions at parsed
  split at parsed
  · cases parsed
  · obtain ⟨⟨root,rest⟩,reads,built⟩ := bind_ok.mp parsed
    cases built
    obtain ⟨kind,first,split_,text,stop⟩ := parseExpression_sound opts _ _ _ _ reads
    exact ⟨rfl,kind,first,rest,split_,text,stop⟩
/-- The parser returns an error or the tree of the whole filter, unless something stray follows an expression at its beginning. -/
theorem parsed_iff_not_stray (input : Bytes) (opts : ParseOptions) : ((∃ e, parseRSQLWithOptions input opts = .error e) ∨
      ∃ filter, parseRSQLWithOptions input opts = .ok filter ∧ TreeOf opts (trimSpace input) filter.root) ↔
    ¬ Stray opts (trimSpace input) := by
  constructor
  · rintro result ⟨first,rest,kind,node,whole,left,text,stop⟩
    have reads := expression_read text stop
    rw [← whole] at reads
    have some_ : trimSpace input ≠ [] := by
      rw [whole]
      simp [left]
    have parsed : parseRSQLWithOptions input opts = .ok ⟨node,trimSpace input⟩ := by
      simp [parseRSQLWithOptions,some_,reads,Except.bind]
    rcases result with ⟨e,failed⟩ | ⟨filter,_,⟨kind',complete⟩,_⟩
    · rw [parsed] at failed
      cases failed
    · rw [whole_read complete] at reads
      cases reads
      exact left rfl
  · intro clean
    cases parsed : parseRSQLWithOptions input opts with
    | error e => exact .inl ⟨e,rfl⟩
    | ok filter =>
      obtain ⟨_,kind,first,rest,whole,text,stop⟩ := parse_ok parsed
      have nothing : rest = [] := by
        by_cases left : rest = []
        · exact left
        · exact absurd ⟨first,rest,kind,filter.root,whole,left,text,stop⟩ clean
      rw [nothing,append_nil] at whole
      refine .inr ⟨filter,rfl,⟨kind,whole ▸ text⟩,?_⟩
      rw [whole]
      intro kind' node' other
      exact (parseExpression_complete opts _).unique other text (stops_nil _) (stops_nil _) (Nat.le_refl _)

def spaced : Bytes := text "(status==paid) ;amount=lt=100"
theorem condition_dropped : ¬ ∀ (input : Bytes) (opts : ParseOptions), (∃ e, parseRSQLWithOptions input opts = .error e) ∨
    ∃ filter, parseRSQLWithOptions input opts = .ok filter ∧ TreeOf opts (trimSpace input) filter.root := by
  intro claim
  have dropped : (parseExpression ⟨false,none⟩ (trimSpace spaced).length (trimSpace spaced)).toOption.map Prod.snd =
      some (text " ;amount=lt=100") := by decide +kernel
  have parsed : (parseRSQLWithOptions spaced ⟨false,none⟩).toOption.map Filter.root =
      some (.predicate (text "status") .eq [text "paid"] (text "status")) := by decide +kernel
  rcases claim spaced ⟨false,none⟩ with ⟨e,failed⟩ | ⟨filter,_,⟨kind,whole⟩,_⟩
  · rw [failed] at parsed
    cases parsed
  · rw [whole_read whole] at dropped
    have nothing : ([] : Bytes) = text " ;amount=lt=100" := Option.some.inj dropped
    exact absurd nothing (by decide +kernel)

/-- Every byte of a value after a backslash. -/
def escape (v : Bytes) : Bytes := v.flatMap (fun b => [backslash,b])
def writeItems : List Bytes → Bytes
  | [] => [closing]
  | [v] => escape v ++ [closing]
  | v :: vs => escape v ++ comma :: writeItems vs
def writeOperator (operator : Operator) : Bytes :=
  equals :: ((operatorNames.find? (·.2 = operator)).map Prod.fst).getD [] ++ [equals]
def writeValues (operator : Operator) (values : List Bytes) : Bytes :=
  if operator.listed then opening :: writeItems values else values.flatMap escape
def write : Node → Bytes
  | .predicate field operator values _ => opening :: (field ++ (writeOperator operator ++ writeValues operator values) ++ [closing])
  | .and left right => opening :: (write left ++ semicolon :: write right ++ [closing])
  | .or left right => opening :: (write left ++ comma :: write right ++ [closing])

/-- A tree over allowed and indexed fields with such names, and with values for every operator. -/
def WellFormed (opts : ParseOptions) (Name : Bytes → Prop) : Node → Prop
  | .predicate field operator values column => Name field ∧ (∃ rule, opts.rule field = some rule ∧ rule.indexed = true ∧ rule.column = column) ∧
      values ≠ [] ∧ (operator.listed = false → values.length = 1) ∧ ∀ v ∈ values, v ≠ [] ∧ validString v = true
  | .and left right | .or left right => WellFormed opts Name left ∧ WellFormed opts Name right

theorem value_escape (some_ : v ≠ []) (valid : validString v = true) : Value (escape v) v := by
  refine ⟨?_,some_,valid,?_⟩
  · clear some_ valid
    induction v with
    | nil => exact .nil
    | cons b v ih => exact .escape ih
  · cases v with
    | nil => exact absurd rfl some_
    | cons b v =>
      intro first head
      cases head
      decide
theorem whitespace_nil : Whitespace [] := by simp [Whitespace]
private theorem items_write (good : ∀ v ∈ vs, v ≠ [] ∧ validString v = true) : Items (writeItems vs) vs := by
  induction vs with
  | nil => exact .none
  | cons v vs ih =>
    obtain ⟨⟨some_,valid⟩,others⟩ := forall_mem_cons.mp good
    have value := value_escape some_ valid
    cases vs with
    | nil => exact .last value
    | cons next vs => simpa [writeItems] using Items.more value whitespace_nil (ih others)
private theorem operatorText_write (operator : Operator) : OperatorText (writeOperator operator) operator := by
  refine .inr ⟨_,?_,rfl⟩
  cases operator <;> decide +kernel
private theorem values_write (some_ : vs ≠ []) (single : operator.listed = false → vs.length = 1)
    (good : ∀ v ∈ vs, v ≠ [] ∧ validString v = true) : ∃ kind, Values operator kind (writeValues operator vs) vs := by
  unfold writeValues
  by_cases listed : operator.listed = true
  · have list := Values.list listed whitespace_nil (items_write good)
    rw [if_pos listed]
    exact ⟨_,list⟩
  · have alone := Bool.eq_false_iff.mpr listed
    obtain ⟨v,rfl⟩ := length_eq_one_iff.mp (single alone)
    rw [if_neg listed,flatMap_singleton]
    obtain ⟨some_,valid⟩ := good v (by simp)
    exact ⟨_,.single alone (value_escape some_ valid)⟩
theorem grouped (text : Expression opts kind w node) : Primary opts (Expression opts) .closed (opening :: (w ++ [closing])) node :=
  .group whitespace_nil text whitespace_nil (fun _ => rfl)
private theorem primary_write (formed : WellFormed opts FieldName node) : Primary opts (Expression opts) .closed (write node) node := by
  induction node with
  | predicate field operator values column =>
    obtain ⟨named,⟨rule,allowed,indexed,rfl⟩,some_,single,good⟩ := formed
    obtain ⟨kind,text⟩ := values_write some_ single good
    have predicate := Predicate.mk named whitespace_nil (operatorText_write operator) whitespace_nil ⟨allowed,.inl indexed⟩ text
    have primary := Primary.predicate (E := Expression opts) whitespace_nil predicate
    exact grouped (.mk (.one (.one primary)))
  | and left right left_ih right_ih => exact grouped (.mk (.one (.more (.one (left_ih formed.1)) (right_ih formed.2))))
  | or left right left_ih right_ih =>
    exact grouped (.mk (.more (.one (.one (left_ih formed.1))) (.one (right_ih formed.2))))
private theorem spaceWidth_closing {front : Bytes} {n : Nat} (wide : spaceWidth (front ++ [closing]) = some n) : n ≤ front.length := by
  rw [show closing = 0x29 by decide] at wide
  unfold spaceWidth at wide
  rcases front with _ | ⟨a,_ | ⟨c,_ | ⟨d,front⟩⟩⟩ <;> split at wide <;> simp_all <;> grind
private theorem spaceWidthBack_closing : spaceWidthBack (closing :: rest) = none := by
  refine find?_eq_none.mpr ?_
  intro width member wide
  obtain ⟨n,rfl⟩ : ∃ n, width = n+1 := ⟨width-1,by simp at member; omega⟩
  have short := spaceWidth_closing (show spaceWidth ((rest.take n).reverse ++ [closing]) = some (n+1) by simpa using wide)
  simp only [length_reverse,length_take] at short
  omega
private theorem trimLoop_none {width : Bytes → Option Nat} (dense : width w = none) (fuel : Nat) : trimLoop width fuel w = w := by
  cases fuel <;> simp [trimLoop,dense]
private theorem write_trimmed (node : Node) : trimSpace (write node) = write node ∧ write node ≠ [] := by
  obtain ⟨inner,whole⟩ : ∃ inner, write node = opening :: (inner ++ [closing]) := by cases node <;> exact ⟨_,rfl⟩
  have front : spaceWidth (write node) = none := by
    rw [whole]
    rfl
  have back : spaceWidthBack (write node).reverse = none := by simp [whole,spaceWidthBack_closing]
  rw [trimSpace,trimLoop_none front,trimLoop_none back,reverse_reverse]
  exact ⟨rfl,by simp [whole]⟩

/-- The written text of a tree is parsed to that tree, when its fields are names to the parser. -/
theorem written_parsed (formed : WellFormed opts FieldName node) : parseRSQLWithOptions (write node) opts = .ok ⟨node,write node⟩ := by
  obtain ⟨trimmed,some_⟩ := write_trimmed node
  have text : Expression opts .closed (write node) node := .mk (.one (.one (primary_write formed)))
  simp [parseRSQLWithOptions,trimmed,some_,whole_read text,Except.bind]

def commas : Node :=
  .and (.predicate (text "status") .isIn [text ",",text ")"] (text "status")) (.predicate (text "kind") .eq [text " "] (text "kind"))
theorem written_parsed_commas : write commas = text "((status=in=(\\,,\\)));(kind=eq=\\ ))" ∧
    parseRSQLWithOptions (write commas) ⟨false,none⟩ = .ok ⟨commas,write commas⟩ :=
  ⟨by decide +kernel,written_parsed ⟨⟨⟨nofun,by decide +kernel⟩,⟨_,rfl,rfl,rfl⟩,nofun,nofun,by decide +kernel⟩,
    ⟨nofun,by decide +kernel⟩,⟨_,rfl,rfl,rfl⟩,nofun,fun _ => rfl,by decide +kernel⟩⟩

def anyField : ParseOptions := ⟨false,some (fun _ => some ⟨true,[]⟩)⟩
def spacedField : Node := .predicate (text "a b") .eq [text "x"] []
/-- An allowed field with a blank in its name cannot be written. -/
theorem blank_name_rejected : ¬ ∀ (opts : ParseOptions) (node : Node), WellFormed opts (fun _ => True) node →
    parseRSQLWithOptions (write node) opts = .ok ⟨node,write node⟩ := by
  intro claim
  have formed : WellFormed anyField (fun _ => True) spacedField := ⟨trivial,⟨_,rfl,rfl,rfl⟩,nofun,fun _ => rfl,by decide +kernel⟩
  have rejected : (parseRSQLWithOptions (write spacedField) anyField).toOption = none := by decide +kernel
  rw [claim anyField spacedField formed] at rejected
  cases rejected

end Stellabill.RsqlGrammar
