import Mathlib.Data.Fin.Basic
import Mathlib.Order.Fin.Basic
import Mathlib.Data.List.Lex
import Mathlib.Tactic.NormNum

/-!
UUIDs and the two orders the outbox compares them with: PostgreSQL compares the
sixteen bytes, the Go code compares the canonical texts. Both are the order of
the 128-bit value.
-/
namespace Stellabill.Uuid

/-- The `width` lowest digits of `n` in base `base`, most significant first. -/
def digits (base : Nat) : Nat → Nat → List Nat
  | 0, _ => []
  | width+1, n => n / base ^ width % base :: digits base width n

theorem digits_length (base width n : Nat) : (digits base width n).length = width := by
  induction width with
  | zero => rfl
  | succ width ih => simp [digits,ih]
theorem digits_bound (base width n : Nat) (positive : 0 < base) : ∀ d ∈ digits base width n, d < base := by
  induction width with
  | zero => simp [digits]
  | succ width ih =>
    intro d member
    rcases List.mem_cons.mp member with rfl | later
    · exact Nat.mod_lt _ positive
    · exact ih d later
private theorem digits_mod (base width n : Nat) : digits base width (n % base ^ width) = digits base width n := by
  have shifted : ∀ low, low ≤ width → digits base low (n % base ^ width) = digits base low n := by
    intro low le
    induction low with
    | zero => rfl
    | succ low ih =>
      have split : base ^ width = base ^ low * (base * base ^ (width-low-1)) := by
        rw [← pow_succ',← pow_add]
        congr 1
        omega
      rw [digits,digits,ih (by omega),split,Nat.mod_mul_right_div_self,Nat.mod_mul_right_mod]
  exact shifted width le_rfl
theorem digits_lt_iff (base : Nat) (positive : 0 < base) : ∀ width n m, n < base ^ width → m < base ^ width →
    (digits base width n < digits base width m ↔ n < m) := by
  intro width
  induction width with
  | zero => intro n m nBound mBound; simp [digits] at *; omega
  | succ width ih =>
    intro n m nBound mBound
    have block : 0 < base ^ width := Nat.pow_pos positive
    have first : ∀ k, k < base ^ (width+1) → k / base ^ width % base = k / base ^ width := by
      intro k bound
      apply Nat.mod_eq_of_lt
      rw [Nat.div_lt_iff_lt_mul block]
      rwa [pow_succ'] at bound
    have rest := ih (n % base ^ width) (m % base ^ width) (Nat.mod_lt _ block) (Nat.mod_lt _ block)
    rw [digits_mod,digits_mod] at rest
    rw [digits,digits,List.cons_lt_cons_iff,rest,first n nBound,first m mBound]
    have nSplit := Nat.div_add_mod n (base ^ width)
    have mSplit := Nat.div_add_mod m (base ^ width)
    constructor
    · rintro (high | ⟨same,low⟩)
      · exact Nat.lt_of_div_lt_div high
      · rw [same] at nSplit
        omega
    · intro lt
      rcases Nat.lt_trichotomy (n / base ^ width) (m / base ^ width) with high | same | above
      · exact .inl high
      · rw [same] at nSplit
        exact .inr ⟨same,by omega⟩
      · exact absurd (Nat.lt_of_div_lt_div above) (by omega)

/-- `uuid.UUID`: sixteen bytes, kept as their big-endian value. -/
abbrev UUID := Fin (2 ^ 128)

instance neZero : NeZero (2 ^ 128) := ⟨by decide⟩

def hexChar (d : Nat) : Char := if d < 10 then Char.ofNat (48+d) else Char.ofNat (87+d)
private theorem hexChar_lt : ∀ d < 16, ∀ e < 16, (hexChar d < hexChar e ↔ d < e) := by decide
private theorem hexChar_inj : ∀ d < 16, ∀ e < 16, (hexChar d = hexChar e ↔ d = e) := by decide

def dashed : Nat → List Nat → List Char
  | _, [] => []
  | i, d :: rest =>
    if i ∈ [8,12,16,20] then '-' :: hexChar d :: dashed (i+1) rest else hexChar d :: dashed (i+1) rest
def string (u : UUID) : List Char := dashed 0 (digits 16 32 u.val)

private theorem dashed_lt_iff (i : Nat) (xs ys : List Nat) (same : xs.length = ys.length)
    (xBound : ∀ d ∈ xs, d < 16) (yBound : ∀ d ∈ ys, d < 16) : dashed i xs < dashed i ys ↔ xs < ys := by
  induction xs generalizing i ys with
  | nil =>
    cases ys with
    | nil => simp [dashed]
    | cons _ _ => cases same
  | cons x xs ih =>
    cases ys with
    | nil => cases same
    | cons y ys =>
      have tail := ih (i+1) ys (by simpa using same) (fun d member => xBound d (by simp [member]))
        (fun d member => yBound d (by simp [member]))
      have head := hexChar_lt x (xBound x (by simp)) y (yBound y (by simp))
      have equal := hexChar_inj x (xBound x (by simp)) y (yBound y (by simp))
      by_cases dash : i ∈ [8,12,16,20]
      · rw [dashed,dashed,if_pos dash,if_pos dash]
        simp [List.cons_lt_cons_iff,head,equal,tail]
      · rw [dashed,dashed,if_neg dash,if_neg dash]
        simp only [List.cons_lt_cons_iff,head,equal,tail]
theorem string_lt_iff (u v : UUID) : string u < string v ↔ u < v := by
  have bound : ∀ w : UUID, w.val < 16 ^ 32 := fun w => lt_of_lt_of_eq w.isLt (by norm_num)
  rw [string,string,dashed_lt_iff 0 _ _ (by simp [digits_length]) (digits_bound 16 32 u.val (by decide))
    (digits_bound 16 32 v.val (by decide)),digits_lt_iff 16 (by decide) 32 _ _ (bound u) (bound v)]
  exact Iff.rfl

end Stellabill.Uuid
