import Stellabill.ByteStrings

/-!
The response body that is kept of a delivery attempt: its first bytes, without the part of a character
at their end.
-/
namespace Stellabill.BodyTruncation
open ByteStrings List

theorem ne_nil_of_invalid {b : Bytes} (invalid : ¬ validString b = true) : b ≠ [] := by
  rintro rfl
  exact invalid rfl
/-- The loop of `TruncateAndScrubBody`: the last byte goes until the rest is valid. -/
def trim (b : Bytes) : Bytes := if validString b then b else trim b.dropLast
termination_by b.length
decreasing_by
  have positive := length_pos_iff.mpr (ne_nil_of_invalid ‹_›)
  rw [length_dropLast]
  omega
def maxResponseBodyBytes : Nat := 4096
def truncateAndScrubBody (body : Bytes) : Bytes :=
  if body.length > maxResponseBodyBytes then trim (body.take maxResponseBodyBytes) else body

/-- The longest beginning of the data that is valid UTF-8. -/
structure LongestValid (data b : Bytes) : Prop where
  valid : validString b = true
  within : b <+: data
  longest : ∀ p, p <+: data → validString p = true → p.length ≤ b.length

theorem trim_longest (b : Bytes) : LongestValid b (trim b) := by
  fun_induction trim b with
  | case1 b valid => exact ⟨valid,prefix_rfl,fun _ within _ => within.length_le⟩
  | case2 b invalid ih =>
    refine ⟨ih.valid,ih.within.trans ( dropLast_prefix b),fun p within valid => ih.longest p ?_ valid⟩
    rw [← dropLast_concat_getLast (ne_nil_of_invalid invalid),prefix_concat_iff,dropLast_concat_getLast] at within
    refine within.resolve_left ?_
    rintro rfl
    exact invalid valid

variable {data : Bytes} {runes : List Bytes}

private theorem runeWidth_le {width : Nat} (found : runeWidth data = some width) : width ≤ 4 := by
  revert found
  fun_cases runeWidth data <;> intro found <;> cases found <;> decide
private theorem valid_of_runes {fuel : Nat} (whole : ∀ rune ∈ runes, IsRune rune) (enough : runes.flatten.length ≤ fuel) :
    validLoop fuel runes.flatten = true := by
  induction runes generalizing fuel with
  | nil => cases fuel <;> rfl
  | cons rune rest ih =>
    obtain ⟨first,later⟩ := forall_mem_cons.mp whole
    have positive := first.positive
    rw [flatten_cons,length_append] at enough
    obtain ⟨fuel,rfl⟩ := Nat.exists_eq_succ_of_ne_zero (show fuel ≠ 0 by omega)
    simp [validLoop,first.append,ih later (show rest.flatten.length ≤ fuel by omega)]
/-- A cut is within four bytes of the end of a character. -/
theorem runes_before (whole : ∀ rune ∈ runes, IsRune rune) {n : Nat} (inside : n ≤ runes.flatten.length) :
    ∃ front, front <+: runes ∧ front.flatten.length ≤ n ∧ n < front.flatten.length+4 := by
  induction runes generalizing n with
  | nil => exact ⟨[],prefix_rfl,Nat.zero_le n,Nat.lt_succ_of_le (Nat.le_trans inside (by decide))⟩
  | cons rune rest ih =>
    obtain ⟨first,later⟩ := forall_mem_cons.mp whole
    rw [flatten_cons,length_append] at inside
    by_cases fits : rune.length ≤ n
    · obtain ⟨front,within,low,high⟩ := ih later (show n-rune.length ≤ rest.flatten.length by omega)
      refine ⟨rune :: front,cons_prefix_cons.mpr ⟨rfl,within⟩,?_,?_⟩ <;> rw [flatten_cons,length_append] <;> omega
    · have short := runeWidth_le first
      exact ⟨[], nil_prefix,Nat.zero_le n,by simp only [flatten_nil,length_nil]; omega⟩

/-- Of a longer body the longest valid part of the first bytes is kept, all but three where the body is valid. -/
theorem truncated_longest (body : Bytes) (long : 4096 < body.length) :
    LongestValid (body.take 4096) (truncateAndScrubBody body) ∧ (truncateAndScrubBody body).length ≤ 4096 ∧
      (validString body = true → 4093 ≤ (truncateAndScrubBody body).length) := by
  rw [truncateAndScrubBody,if_pos (show body.length > maxResponseBodyBytes from long)]
  have longest := trim_longest (body.take maxResponseBodyBytes)
  refine ⟨longest,Nat.le_trans longest.within.length_le (length_take_le ..),fun valid => ?_⟩
  obtain ⟨runes,rfl,whole⟩ := runes_of_valid valid
  obtain ⟨front,⟨back,rfl⟩,low,high⟩ := runes_before whole (Nat.le_of_lt long)
  have within : front.flatten <+: (front ++ back).flatten.take 4096 := prefix_take_iff.mpr ⟨⟨back.flatten,by simp⟩,low⟩
  have kept := longest.longest _ within (valid_of_runes (fun rune listed => whole rune (mem_append_left _ listed)) (Nat.le_refl _))
  omega
/-- The last of the bytes that are kept is the first half of a letter. -/
def cutLetter : Bytes := List.replicate 4095 0x41 ++ text "é"
theorem truncated_longest_letter : validString (cutLetter.take 4096) = false ∧
    LongestValid (cutLetter.take 4096) (truncateAndScrubBody cutLetter) ∧ 4093 ≤ (truncateAndScrubBody cutLetter).length := by
  obtain ⟨longest,_,most⟩ := truncated_longest cutLetter (by decide +kernel)
  exact ⟨by decide +kernel,longest,most (by decide +kernel)⟩

end Stellabill.BodyTruncation
