import Stellabill.Transitions
import Mathlib.Data.Nat.Pairing
import Mathlib.Logic.Equiv.List

/-!
JSON values and what is relied on of their texts: reading what was written gives
the value back, numbers as far as a `float64` holds them.
-/
namespace Stellabill.Json
open Transitions Function

/-- A JSON value; a number is `mantissa` times ten to the `exponent`, as it is written. -/
inductive Value
  | null
  | bool (b : Bool)
  | num (mantissa exponent : Int)
  | str (s : String)
  | arr (items : List Value)
  | obj (fields : List (String × Value))

variable (key : String)
def lookup (fields : List (String × Value)) : Option Value :=
  (fields.find? (fun field => field.1 = key)).map Prod.snd

theorem lookup_append (front back : List (String × Value)) : lookup key (front ++ back) = (lookup key front).or (lookup key back) := by
  simp only [lookup,List.find?_append]
  cases List.find? (fun field => field.1 = key) front <;> rfl
theorem lookup_single (key name : String) (value : Value) :
    lookup key [(name,value)] = if name = key then some value else none := by
  by_cases same : name = key <;> simp [lookup,same]
theorem lookup_nil : lookup key [] = none := rfl

def Value.get : Value → Option Value
  | .obj fields => lookup key fields
  | _ => none

def omitEmpty (name text : String) : List (String × Value) := if text = "" then [] else [(name,.str text)]
def stringMember (value : Value) (key : String) : Option String :=
  match value.get key with
  | none | some .null => some ""
  | some (.str s) => some s
  | some _ => none

theorem lookup_omitEmpty (key name text : String) :
    lookup key (omitEmpty name text) = if name = key ∧ text ≠ "" then some (.str text) else none := by
  by_cases empty : text = ""
  · simp [omitEmpty,empty,lookup_nil]
  · simp [omitEmpty,empty,lookup_single]
theorem stringMember_omitEmpty {value : Value} {key text : String}
    (found : value.get key = if text ≠ "" then some (.str text) else none) : stringMember value key = some text := by
  by_cases empty : text = ""
  · simp [stringMember,found,empty]
  · simp [stringMember,found,empty]

mutual
/-- The value read into an `interface{}`: every number goes through `float`. -/
def Value.reread (float : Int × Int → Int × Int) : Value → Value
  | .null => .null
  | .bool b => .bool b
  | .num mantissa exponent => .num (float (mantissa,exponent)).1 (float (mantissa,exponent)).2
  | .str s => .str s
  | .arr items => .arr (rereadItems float items)
  | .obj fields => .obj (rereadFields float fields)
def rereadItems (float : Int × Int → Int × Int) : List Value → List Value
  | [] => []
  | item :: rest => item.reread float :: rereadItems float rest
def rereadFields (float : Int × Int → Int × Int) : List (String × Value) → List (String × Value)
  | [] => []
  | (name,value) :: rest => (name,value.reread float) :: rereadFields float rest
end

variable (float : Int × Int → Int × Int)
private theorem lookup_rereadFields (key : String) (fields : List (String × Value)) :
    lookup key (rereadFields float fields) = (lookup key fields).map (Value.reread float) := by
  induction fields with
  | nil => simp [rereadFields,lookup]
  | cons field rest ih =>
    obtain ⟨name,value⟩ := field
    by_cases same : name = key
    · simp [rereadFields,lookup,same]
    · simpa [rereadFields,lookup,same] using ih
theorem get_reread (key : String) (value : Value) : (value.reread float).get key = (value.get key).map (Value.reread float) := by
  cases value with
  | obj fields => exact lookup_rereadFields float key fields
  | _ => simp [Value.reread,Value.get]
theorem stringMember_reread (value : Value) (key : String) : stringMember (value.reread float) key = stringMember value key := by
  simp only [stringMember,get_reread]
  cases value.get key with
  | none => rfl
  | some member => cases member <;> simp [Value.reread]

mutual
theorem reread_id : ∀ value : Value, value.reread id = value
  | .null | .bool _ | .num _ _ | .str _ => by simp [Value.reread]
  | .arr items => by rw [Value.reread,rereadItems_id items]
  | .obj fields => by rw [Value.reread,rereadFields_id fields]
theorem rereadItems_id : ∀ items : List Value, rereadItems id items = items
  | [] => by rw [rereadItems]
  | item :: rest => by rw [rereadItems,reread_id item,rereadItems_id rest]
theorem rereadFields_id : ∀ fields : List (String × Value), rereadFields id fields = fields
  | [] => by rw [rereadFields]
  | (name,value) :: rest => by rw [rereadFields,reread_id value,rereadFields_id rest]
end

/-! ### Texts -/

/-- The texts of JSON values and of times, as `encoding/json` writes and reads them. -/
structure Codec where
  encode : Value → String
  decode : String → Option Value
  /-- A number read as a `float64` and written again. -/
  float : Int × Int → Int × Int
  formatTime : Time → String
  parseTime : String → Option Time
  decode_encode : ∀ value, decode (encode value) = some (value.reread float)
  encode_injective : Function.Injective encode
  encode_nonempty : ∀ value, encode value ≠ ""
  parseTime_formatTime : ∀ time, parseTime (formatTime time) = some time

/-! Such texts exist: values are countable. -/

def numeral (s : String) : Nat := Encodable.encode (s.toList.map Char.toNat)
theorem numeral_injective : Function.Injective numeral := by
  intro s t same
  have lists := Encodable.encode_injective same
  exact String.toList_injective (List.map_injective_iff.mpr (fun _ _ => Char.toNat_inj.mp) lists)

mutual
def code : Value → Nat
  | .null => Nat.pair 0 0
  | .bool b => Nat.pair 1 (Encodable.encode b)
  | .num mantissa exponent => Nat.pair 2 (Encodable.encode (mantissa,exponent))
  | .str s => Nat.pair 3 (numeral s)
  | .arr items => Nat.pair 4 (codeItems items)
  | .obj fields => Nat.pair 5 (codeFields fields)
def codeItems : List Value → Nat
  | [] => 0
  | item :: rest => Nat.pair (code item) (codeItems rest) + 1
def codeFields : List (String × Value) → Nat
  | [] => 0
  | (name,value) :: rest => Nat.pair (Nat.pair (numeral name) (code value)) (codeFields rest) + 1
end

mutual
theorem code_injective : ∀ {v w : Value}, code v = code w → v = w
  | .null, w, same => by cases w <;> simp_all [code]
  | .bool b, w, same => by cases w <;> simp_all [code]
  | .num mantissa exponent, w, same => by cases w <;> simp_all [code]
  | .str s, w, same => by
    cases w with
    | str t => simpa [code,numeral_injective.eq_iff] using same
    | _ => simp [code] at same
  | .arr items, w, same => by
    cases w with
    | arr others => exact congrArg Value.arr (codeItems_injective (by simpa [code] using same))
    | _ => simp [code] at same
  | .obj fields, w, same => by
    cases w with
    | obj others => exact congrArg Value.obj (codeFields_injective (by simpa [code] using same))
    | _ => simp [code] at same
theorem codeItems_injective : ∀ {items others : List Value}, codeItems items = codeItems others → items = others
  | [], others, same => by cases others <;> simp_all [codeItems]
  | item :: rest, others, same => by
    cases others with
    | nil => simp [codeItems] at same
    | cons other others =>
      simp only [codeItems,Nat.add_right_cancel_iff,Nat.pair_eq_pair] at same
      rw [code_injective same.1,codeItems_injective same.2]
theorem codeFields_injective : ∀ {fields others : List (String × Value)}, codeFields fields = codeFields others → fields = others
  | [], others, same => by cases others <;> simp_all [codeFields]
  | (name,value) :: rest, others, same => by
    cases others with
    | nil => simp [codeFields] at same
    | cons other others =>
      simp only [codeFields,Nat.add_right_cancel_iff,Nat.pair_eq_pair] at same
      obtain ⟨⟨names,values⟩,later⟩ := same
      rw [numeral_injective names,code_injective values,codeFields_injective later]
end

def strokes (n : Nat) : String := String.ofList (List.replicate (n+1) '|')
theorem strokes_injective : Function.Injective strokes := by
  intro n m same
  have lengths := congrArg String.length same
  simpa [strokes] using lengths
theorem strokes_nonempty (n : Nat) : strokes n ≠ "" := by
  intro same
  have lengths := congrArg String.length same
  simp [strokes] at lengths

open Classical in
/-- Texts of strokes, in which numbers keep every digit. -/
noncomputable def strokeCodec : Codec where
  encode value := strokes (code value)
  decode := partialInv (fun value => strokes (code value))
  float := id
  formatTime time := strokes (Encodable.encode time)
  parseTime := partialInv (fun time : Time => strokes (Encodable.encode time))
  decode_encode value := by
    rw [partialInv_left (fun _ _ same => code_injective (strokes_injective same)),reread_id]
  encode_injective _ _ same := code_injective (strokes_injective same)
  encode_nonempty value := strokes_nonempty (code value)
  parseTime_formatTime :=
    partialInv_left (fun _ _ same => Encodable.encode_injective (strokes_injective same))

end Stellabill.Json
