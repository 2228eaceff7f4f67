import Mathlib.Data.List.TakeWhile

/-!
Parsers that return a value and the rest of their input, and the languages they
parse. A language relates a text to its value and to the way the text ends. A parser is
sound when it reads a text of the language up to a place where the text cannot go on,
and complete when it reads every such text.
-/
namespace Stellabill.Parsing
universe u

variable {σ ε κ α β : Type u}

abbrev Parser (σ ε α : Type u) := List σ → Except ε (α × List σ)

theorem bind_ok {x : Except ε α} {f : α → Except ε β} {y : β} : x.bind f = .ok y ↔ ∃ a, x = .ok a ∧ f a = .ok y := by
  cases x with
  | error | ok => simp [Except.bind]

/-- Whatever is read is a text of the language, read up to where it stops. -/
def Sound (L : κ → List σ → α → Prop) (stops : κ → List σ → Prop) (p : Parser σ ε α) : Prop :=
  ∀ input x rest, p input = .ok (x,rest) → ∃ kind w, input = w ++ rest ∧ L kind w x ∧ stops kind rest
/-- Every text of the language that stops there is read, in inputs of at most this length. -/
def Complete (L : κ → List σ → α → Prop) (stops : κ → List σ → Prop) (size : Nat) (p : Parser σ ε α) : Prop :=
  ∀ kind w x rest, L kind w x → stops kind rest → (w ++ rest).length ≤ size → p (w ++ rest) = .ok (x,rest)

variable {L : κ → List σ → α → Prop} {w rest : List σ} {p : σ → Bool}

theorem Complete.unique {stops : κ → List σ → Prop} {size : Nat} {p : Parser σ ε α} (complete : Complete L stops size p) {kind kind' : κ}
    {x y : α} (first : L kind w x) (second : L kind' w y) (stop : stops kind []) (stop' : stops kind' []) (fits : w.length ≤ size) : x = y := by
  have reads := complete kind w x [] first stop (by simpa using fits)
  rw [complete kind' w y [] second stop' (by simpa using fits)] at reads
  simpa using reads.symm

theorem dropWhile_append (skipped : ∀ b ∈ w, p b = true) (stop : ∀ b, rest.head? = some b → p b = false) : (w ++ rest).dropWhile p = rest := by
  rw [List.dropWhile_append_of_pos skipped]
  cases rest with
  | nil => rfl
  | cons b rest => simp [stop b rfl]
theorem takeWhile_append (taken : ∀ b ∈ w, p b = true) (stop : ∀ b, rest.head? = some b → p b = false) : (w ++ rest).takeWhile p = w := by
  rw [List.takeWhile_append_of_pos taken]
  cases rest with
  | nil => simp
  | cons b rest => simp [stop b rfl]
theorem skipped (p : σ → Bool) (input : List σ) :
    ∃ w, input = w ++ input.dropWhile p ∧ (∀ b ∈ w, p b = true) ∧ ∀ b, (input.dropWhile p).head? = some b → p b = false := by
  refine ⟨input.takeWhile p,List.takeWhile_append_dropWhile.symm,fun b member => List.mem_takeWhile_imp member,?_⟩
  intro b first
  have := List.head?_dropWhile_not p input
  rw [first] at this
  exact this

/-! ### Chains -/

/-- Items with a separator between them, joined from the left. -/
inductive Chain (separator : σ) (join : α → α → α) (L : κ → List σ → α → Prop) : κ → List σ → α → Prop
  | one {kind : κ} {w : List σ} {x : α} : L kind w x → Chain separator join L kind w x
  | more {kind kind' : κ} {w w' : List σ} {x y : α} : Chain separator join L kind w x → L kind' w' y →
      Chain separator join L kind' (w ++ separator :: w') (join x y)

/-- A chain stops where its last item stops and no separator follows. -/
def Ends (separator : σ) (stops : κ → List σ → Prop) (kind : κ) (rest : List σ) : Prop :=
  stops kind rest ∧ rest.head? ≠ some separator

section
variable [DecidableEq σ]

/-- While a separator follows, another item is read and joined; the length of the input bounds the rounds. -/
def chainLoop (separator : σ) (join : α → α → α) (item : Parser σ ε α) : Nat → α → Parser σ ε α
  | 0, left, input => .ok (left,input)
  | _+1, left, [] => .ok (left,[])
  | rounds+1, left, b :: rest =>
    if b = separator then (item rest).bind (fun (right,rest) => chainLoop separator join item rounds (join left right) rest)
    else .ok (left,b :: rest)
def chain (separator : σ) (join : α → α → α) (item : Parser σ ε α) : Parser σ ε α := fun input =>
  (item input).bind (fun (left,rest) => chainLoop separator join item rest.length left rest)

variable {separator : σ} {join : α → α → α} {L : κ → List σ → α → Prop} {stops : κ → List σ → Prop} {item : Parser σ ε α} {w input : List σ}
  {size : Nat}

theorem chainLoop_sound (sound : Sound L stops item) {rounds : Nat} {left x : α} {kind : κ} {rest : List σ} (fits : input.length ≤ rounds)
    (begun : Chain separator join L kind w left) (stop : stops kind input)
    (reads : chainLoop separator join item rounds left input = .ok (x,rest)) :
    ∃ kind' w', w ++ input = w' ++ rest ∧ Chain separator join L kind' w' x ∧ Ends separator stops kind' rest := by
  induction rounds generalizing left kind w input with
  | zero =>
    obtain rfl : input = [] := by simpa using fits
    cases reads
    exact ⟨kind,w,rfl,begun,stop,by simp⟩
  | succ rounds ih =>
    cases input with
    | nil =>
      cases reads
      exact ⟨kind,w,rfl,begun,stop,by simp⟩
    | cons b after =>
      simp only [chainLoop] at reads
      split at reads
      · next same =>
        obtain ⟨⟨right,after'⟩,once,again⟩ := bind_ok.mp reads
        obtain ⟨kind',w',split,text,stop'⟩ := sound after right after' once
        subst same split
        have shorter : after'.length ≤ rounds := by
          simp only [List.length_cons,List.length_append] at fits
          omega
        obtain ⟨kind'',w'',whole,joined,ended⟩ := ih shorter (begun.more text) stop' again
        exact ⟨kind'',w'',by rw [← whole]; simp,joined,ended⟩
      · next other =>
        cases reads
        exact ⟨kind,w,rfl,begun,stop,by simpa using other⟩
theorem chain_sound (sound : Sound L stops item) : Sound (Chain separator join L) (Ends separator stops) (chain separator join item) := by
  intro input x rest reads
  obtain ⟨⟨left,after⟩,once,again⟩ := bind_ok.mp reads
  obtain ⟨kind,w,rfl,text,stop⟩ := sound input left after once
  exact chainLoop_sound sound (Nat.le_refl _) (.one text) stop again
variable (complete : Complete L stops size item) (follows : ∀ kind rest, stops kind (separator :: rest))
include complete follows
theorem chain_reads {kind : κ} {x : α} (text : Chain separator join L kind w x) (stop : stops kind input) (fits : (w ++ input).length ≤ size) :
    ∃ rounds, input.length ≤ rounds ∧ chain separator join item (w ++ input) = chainLoop separator join item rounds x input := by
  induction text generalizing input with
  | one text =>
    refine ⟨input.length,Nat.le_refl _,?_⟩
    simp [chain,complete _ _ _ _ text stop fits,Except.bind]
  | @more kind kind' w w' x y _ text ih =>
    rw [List.append_assoc,List.cons_append] at fits ⊢
    obtain ⟨rounds,enough,same⟩ := ih (follows kind (w' ++ input)) fits
    rw [same]
    have within : (w' ++ input).length ≤ size := by
      simp only [List.length_append,List.length_cons] at fits ⊢
      omega
    cases rounds with
    | zero => simp at enough
    | succ rounds =>
      refine ⟨rounds,?_,by simp [chainLoop,complete kind' w' y input text stop within,Except.bind]⟩
      simp only [List.length_append,List.length_cons] at enough
      omega
theorem chain_complete : Complete (Chain separator join L) (Ends separator stops) size (chain separator join item) := by
  intro kind w x rest text ⟨stop,ended⟩ fits
  obtain ⟨rounds,enough,same⟩ := chain_reads complete follows text stop fits
  rw [same]
  cases rounds with
  | zero => rfl
  | succ rounds =>
    cases rest with
    | nil => rfl
    | cons b rest =>
      have other : b ≠ separator := by simpa using ended
      simp [chainLoop,other]
end

theorem chain_nonempty {separator : σ} {join : α → α → α} (nonempty : ∀ kind w x, L kind w x → w ≠ []) {kind : κ} {x : α}
    (text : Chain separator join L kind w x) : w ≠ [] := by
  cases text with
  | one text => exact nonempty _ _ _ text
  | more _ _ => simp

end Stellabill.Parsing
