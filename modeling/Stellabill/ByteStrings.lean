import Mathlib.Algebra.Group.Nat.Defs
import Mathlib.Data.List.Basic

/-!
Byte strings: indexing and slicing that fail outside of the string, numbers in
network order, and the two functions on UTF-8 text that the parsers of this
development use.
-/
namespace Stellabill.ByteStrings
open List

abbrev Bytes := List UInt8

instance decidableBytes (p : UInt8 → Prop) [DecidablePred p] (data : Bytes) : Decidable (∀ byte ∈ data, p byte) := List.decidableBAll p data

/-- How a function over byte strings fails: with an error, or by an index out of range. -/
inductive Failure
  | error (message : String)
  | panic
  deriving DecidableEq, Repr

abbrev Result := Except Failure

def index (data : Bytes) (i : Nat) : Result UInt8 :=
  match data[i]? with
  | some byte => .ok byte
  | none => .error .panic
def slice (data : Bytes) (i j : Nat) : Result Bytes :=
  if i ≤ j ∧ j ≤ data.length then .ok ((data.take j).drop i) else .error .panic
/-- The number with these digits in base 256, the most significant first. -/
def bigEndian (data : Bytes) : Nat := data.foldl (fun n byte => n*256+byte.toNat) 0

def digits : Nat → Nat → Bytes
  | 0, _ => []
  | width+1, n => digits width (n/256) ++ [UInt8.ofNat n]
theorem length_digits (width n : Nat) : (digits width n).length = width := by
  induction width generalizing n with
  | zero => rfl
  | succ width ih => simp [digits,ih]

variable {width n : Nat}

theorem div_fits (fits : n < 256^(width+1)) : n/256 < 256^width :=
  Nat.div_lt_of_lt_mul (by rwa [Nat.pow_succ,Nat.mul_comm] at fits)
theorem bigEndian_digits (fits : n < 256^width) : bigEndian (digits width n) = n := by
  induction width generalizing n with
  | zero =>
    have zero : n = 0 := by simpa using fits
    rw [zero]
    rfl
  | succ width ih =>
    have last : (UInt8.ofNat n).toNat = n%256 := by simp
    rw [digits,bigEndian,foldl_append,foldl_cons,foldl_nil,← bigEndian,ih (div_fits fits)]
    omega
theorem digits_succ (fits : n < 256^width) : digits (width+1) n = 0 :: digits width n := by
  induction width generalizing n with
  | zero =>
    have zero : n = 0 := by simpa using fits
    rw [zero]
    rfl
  | succ width ih =>
    rw [digits,ih (div_fits fits),digits,cons_append]

/-- Up to the position the string is read; `rest` is left. -/
def Stands (data : Bytes) (pos : Nat) (rest : Bytes) : Prop := ∃ front, data = front ++ rest ∧ front.length = pos

section
variable {data part rest : Bytes} {pos : Nat} {byte : UInt8}

theorem stands_start (data : Bytes) : Stands data 0 data := ⟨[],rfl,rfl⟩
theorem Stands.length (stands : Stands data pos rest) : data.length = pos+rest.length := by
  obtain ⟨front,rfl,rfl⟩ := stands
  exact length_append
theorem Stands.drop (stands : Stands data pos rest) : data.drop pos = rest := by
  obtain ⟨front,rfl,rfl⟩ := stands
  exact drop_left
theorem Stands.advance (stands : Stands data pos (part ++ rest)) : Stands data (pos+part.length) rest := by
  obtain ⟨front,rfl,rfl⟩ := stands
  exact ⟨front ++ part,by rw [append_assoc],length_append⟩
theorem Stands.next (stands : Stands data pos (byte :: rest)) : Stands data (pos+1) rest :=
  @Stands.advance data [byte] rest pos stands
theorem Stands.slice (stands : Stands data pos (part ++ rest)) : slice data pos (pos+part.length) = .ok part := by
  have size := stands.length
  rw [length_append] at size
  obtain ⟨front,rfl,rfl⟩ := stands
  rw [ByteStrings.slice,if_pos ⟨by omega,by omega⟩,← append_assoc,← length_append,take_left,drop_left]
theorem Stands.number {width n : Nat} (stands : Stands data pos (digits width n ++ rest)) :
    ByteStrings.slice data pos (pos+width) = .ok (digits width n) ∧ Stands data (pos+width) rest := by
  have read := stands.slice
  have after := stands.advance
  rw [length_digits] at read after
  exact ⟨read,after⟩
theorem Stands.slice_end (stands : Stands data pos rest) : ByteStrings.slice data pos data.length = .ok rest := by
  have size := stands.length
  rw [ByteStrings.slice,if_pos ⟨by omega,Nat.le_refl _⟩,take_length,stands.drop]
theorem Stands.index (stands : Stands data pos (byte :: rest)) : index data pos = .ok byte := by
  obtain ⟨front,rfl,rfl⟩ := stands
  simp [ByteStrings.index]
end

/-- No index is out of range, and a value that is read is good. -/
def Safe {α : Type} (result : Result α) (good : α → Prop) : Prop :=
  match result with
  | .ok value => good value
  | .error .panic => False
  | .error (.error _) => True

section
variable {α β : Type} {good weaker : α → Prop} {data : Bytes} {i j : Nat} {result : Result α}

theorem Safe.mono (safe : Safe result good) (weakens : ∀ value, good value → weaker value) : Safe result weaker := by
  match result,safe with
  | .ok value,holds => exact weakens value holds
  | .error (.error _),_ => trivial
theorem Safe.bind {good' : β → Prop} {f : α → Result β} (safe : Safe result good) (next : ∀ value, good value → Safe (f value) good') :
    Safe (result >>= f) good' := by
  match result,safe with
  | .ok value,holds => exact next value holds
  | .error (.error _),_ => trivial
theorem safe_pure {value : α} (holds : good value) : Safe (pure value) good := holds
theorem safe_ite {c : Prop} [Decidable c] {first second : Result α} (yes : c → Safe first good) (no : ¬ c → Safe second good) :
    Safe (if c then first else second) good := by
  by_cases holds : c
  · simpa [holds] using yes holds
  · simpa [holds] using no holds
theorem safe_index (inside : i < data.length) : Safe (index data i) (fun _ => True) := by
  simp [index,inside,Safe]
theorem safe_slice (ordered : i ≤ j) (inside : j ≤ data.length) : Safe (slice data i j) (fun part => part = (data.take j).drop i) := by
  simp [slice,ordered,inside,Safe]
end

def text (s : String) : Bytes := s.toUTF8.data.toList

def continuation (byte : UInt8) : Bool := 0x80 ≤ byte ∧ byte ≤ 0xBF

/-- The number of bytes of the first encoded character. -/
def runeWidth : Bytes → Option Nat
  | [] => none
  | a :: rest =>
    if a < 0x80 then some 1
    else match rest with
      | [] => none
      | b :: rest =>
        if 0xC2 ≤ a ∧ a ≤ 0xDF then if continuation b then some 2 else none
        else match rest with
          | [] => none
          | c :: rest =>
            if a = 0xE0 then if 0xA0 ≤ b ∧ b ≤ 0xBF ∧ continuation c then some 3 else none
            else if a = 0xED then if 0x80 ≤ b ∧ b ≤ 0x9F ∧ continuation c then some 3 else none
            else if 0xE1 ≤ a ∧ a ≤ 0xEF then if continuation b ∧ continuation c then some 3 else none
            else match rest with
              | [] => none
              | d :: _ =>
                if a = 0xF0 then if 0x90 ≤ b ∧ b ≤ 0xBF ∧ continuation c ∧ continuation d then some 4 else none
                else if a = 0xF4 then if 0x80 ≤ b ∧ b ≤ 0x8F ∧ continuation c ∧ continuation d then some 4 else none
                else if 0xF1 ≤ a ∧ a ≤ 0xF3 then if continuation b ∧ continuation c ∧ continuation d then some 4 else none
                else none
def validLoop : Nat → Bytes → Bool
  | 0, data => data.isEmpty
  | fuel+1, data =>
    data.isEmpty || match runeWidth data with
      | none => false
      | some width => validLoop fuel (data.drop width)
def validString (data : Bytes) : Bool := validLoop data.length data

/-! ### Characters -/

section
variable {data rune : Bytes} {width : Nat}

/-- The first character does not depend on what follows it; one of a single byte is ASCII. -/
theorem runeWidth_take (found : runeWidth data = some width) :
    0 < width ∧ width ≤ data.length ∧ (∀ rest, runeWidth (data.take width ++ rest) = some width) ∧
      ((width = 1 ∧ ∀ byte ∈ data.take width, byte < 0x80) ∨ (1 < width ∧ ∀ byte ∈ data.take width, 0x80 ≤ byte)) := by
  revert found
  fun_cases runeWidth data <;> intro found <;> cases found
  all_goals refine ⟨by decide,by simp,fun rest => ?_,?_⟩
  all_goals simp only [take_succ_cons,take_zero,cons_append,nil_append]
  all_goals first
    | simp only [runeWidth, *,↓reduceIte,and_self]
    | simp_all [continuation]; done
    | simp_all [continuation]
      grind

def IsRune (rune : Bytes) : Prop := runeWidth rune = some rune.length

private theorem isRune_take (found : runeWidth data = some width) : IsRune (data.take width) := by
  obtain ⟨_,short,same,_⟩ := runeWidth_take found
  have alone := same []
  rwa [IsRune,length_take_of_le short,← append_nil (data.take width)]
theorem IsRune.append (whole : IsRune rune) (rest : Bytes) : runeWidth (rune ++ rest) = some rune.length := by
  have same := (runeWidth_take whole).2.2.1 rest
  rwa [take_length] at same
theorem IsRune.positive (whole : IsRune rune) : 0 < rune.length := (runeWidth_take whole).1
theorem runes_of_valid {fuel : Nat} (valid : validLoop fuel data = true) :
    ∃ runes : List Bytes, data = runes.flatten ∧ ∀ rune ∈ runes, IsRune rune := by
  induction fuel generalizing data with
  | zero => exact ⟨[],by simpa [validLoop] using valid,by simp⟩
  | succ fuel ih =>
    rw [validLoop,Bool.or_eq_true] at valid
    obtain empty | valid := valid
    · exact ⟨[],by simpa using empty,by simp⟩
    · split at valid
      · cases valid
      · next width found =>
        obtain ⟨runes,same,whole⟩ := ih valid
        refine ⟨data.take width :: runes,?_,forall_mem_cons.mpr ⟨isRune_take found,whole⟩⟩
        rw [flatten_cons,← same,take_append_drop]
theorem validString_ascii (ascii : ∀ byte ∈ data, byte < 0x80) : validString data = true := by
  unfold validString
  induction data with
  | nil => rfl
  | cons byte rest ih =>
    obtain ⟨first,later⟩ := forall_mem_cons.mp ascii
    simp [validLoop,runeWidth,first,ih later]
end

def spaceWidth : Bytes → Option Nat
  | 0xC2 :: 0x85 :: _ | 0xC2 :: 0xA0 :: _ => some 2
  | 0xE1 :: 0x9A :: 0x80 :: _ | 0xE2 :: 0x81 :: 0x9F :: _ | 0xE3 :: 0x80 :: 0x80 :: _ => some 3
  | 0xE2 :: 0x80 :: c :: _ => if (0x80 ≤ c ∧ c ≤ 0x8A) ∨ c = 0xA8 ∨ c = 0xA9 ∨ c = 0xAF then some 3 else none
  | a :: _ => if (0x09 ≤ a ∧ a ≤ 0x0D) ∨ a = 0x20 then some 1 else none
  | [] => none
def spaceWidthBack (reversed : Bytes) : Option Nat :=
  [1,2,3].find? (fun width => spaceWidth (reversed.take width).reverse = some width)
def trimLoop (width : Bytes → Option Nat) : Nat → Bytes → Bytes
  | 0, data => data
  | fuel+1, data =>
    match width data with
    | none => data
    | some n => trimLoop width fuel (data.drop n)
variable (data : Bytes)
def trimSpace : Bytes :=
  let front := trimLoop spaceWidth data.length data
  (trimLoop spaceWidthBack front.length front.reverse).reverse

example : trimSpace (text " \t a==1  ") = text "a==1" := by decide +kernel

def hexDigit (byte : UInt8) : Option UInt8 :=
  if 0x30 ≤ byte ∧ byte ≤ 0x39 then some (byte-0x30)
  else if 0x61 ≤ byte ∧ byte ≤ 0x66 then some (byte-0x57)
  else if 0x41 ≤ byte ∧ byte ≤ 0x46 then some (byte-0x37)
  else none
def hexDecode : Bytes → Option Bytes
  | [] => some []
  | [_] => none
  | a :: b :: rest =>
    match hexDigit a,hexDigit b,hexDecode rest with
    | some high,some low,some decoded => some ((high*16+low) :: decoded)
    | _,_,_ => none
def hexChar (digit : UInt8) : UInt8 := if digit < 10 then 0x30+digit else 0x57+digit
def hexEncode : Bytes := data.flatMap (fun byte => [hexChar (byte/16),hexChar (byte%16)])

def IsHexDigit (byte : UInt8) : Prop := 0x30 ≤ byte ∧ byte < 0x67 ∧ byte ≠ 0x5C
  deriving Decidable

theorem hexChar_byte : ∀ n < 256, hexDigit (hexChar (UInt8.ofNat n/16)) = some (UInt8.ofNat n/16) ∧
    hexDigit (hexChar (UInt8.ofNat n%16)) = some (UInt8.ofNat n%16) ∧ (UInt8.ofNat n/16)*16+UInt8.ofNat n%16 = UInt8.ofNat n ∧
    IsHexDigit (hexChar (UInt8.ofNat n/16)) ∧ IsHexDigit (hexChar (UInt8.ofNat n%16)) := by decide +kernel
theorem hexDecode_encode : hexDecode (hexEncode data) = some data := by
  induction data with
  | nil => rfl
  | cons byte rest ih =>
    obtain ⟨high,low,whole,_⟩ := hexChar_byte byte.toNat byte.toNat_lt
    rw [UInt8.ofNat_toNat] at high low whole
    simp [hexEncode,hexDecode] at ih ⊢
    simp [high,low,ih,whole]
theorem hexEncode_injective : Function.Injective hexEncode := by
  intro first second same
  have decoded := hexDecode_encode first
  rw [same,hexDecode_encode] at decoded
  exact (Option.some.inj decoded).symm
theorem hexEncode_digits : ∀ digit ∈ hexEncode data, IsHexDigit digit := by
  intro digit listed
  obtain ⟨byte,_,part⟩ := mem_flatMap.mp listed
  obtain ⟨_,_,_,high,low⟩ := hexChar_byte byte.toNat byte.toNat_lt
  rw [UInt8.ofNat_toNat] at high low
  obtain rfl | rfl := mem_pair.mp part
  · exact high
  · exact low
theorem hexEncode_valid : validString (hexEncode data) = true :=
  validString_ascii fun digit listed => UInt8.lt_trans (hexEncode_digits data digit listed).2.1 (by decide)

end Stellabill.ByteStrings
