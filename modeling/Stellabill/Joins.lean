import Mathlib.Logic.Basic

/-!
Strings joined with a separator. Two joins are equal where the strings are, or where
one string runs on over a separator into the other.
-/
namespace Stellabill.Joins

variable {sep a b c d : String}

theorem append_eq_iff : a ++ b = c ++ d ↔ (∃ u, c = a ++ u ∧ b = u ++ d) ∨ ∃ u, a = c ++ u ∧ d = u ++ b := by
  simp only [← String.toList_inj,String.toList_append]
  rw [List.append_eq_append_iff]
  constructor
  · rintro (⟨u,same⟩ | ⟨u,same⟩)
    · exact .inl ⟨String.ofList u,by simpa using same⟩
    · exact .inr ⟨String.ofList u,by simpa using same⟩
  · rintro (⟨u,same⟩ | ⟨u,same⟩)
    · exact .inl ⟨u.toList,same⟩
    · exact .inr ⟨u.toList,same⟩

variable {s : Char}

section
variable (single : sep = String.singleton s)
include single
/-- A string that is not empty begins with the separator where the whole does. -/
theorem sep_begins (given : a ≠ "") (same : sep ++ b = a ++ c) : ∃ u, a = sep ++ u := by
  subst single
  simp only [← String.toList_inj,String.toList_append,String.toList_singleton,String.toList_empty,ne_eq] at given same ⊢
  cases letters : a.toList with
  | nil => exact absurd letters given
  | cons first rest =>
    rw [letters] at same
    obtain ⟨rfl,_⟩ := List.cons.inj same
    exact ⟨String.ofList rest,by simp⟩
theorem join_eq_iff : a ++ sep ++ b = c ++ sep ++ d ↔
    (a = c ∧ b = d) ∨ (∃ u, a = c ++ sep ++ u ∧ d = u ++ sep ++ b) ∨ ∃ u, c = a ++ sep ++ u ∧ b = u ++ sep ++ d := by
  simp only [String.append_assoc]
  rw [append_eq_iff]
  constructor
  · rintro (⟨u,rfl,same⟩ | ⟨u,rfl,same⟩)
    · by_cases empty : u = ""
      · exact .inl ⟨by simp [empty],by simpa [empty] using same⟩
      · obtain ⟨v,rfl⟩ := sep_begins single empty same
        exact .inr (.inr ⟨v,rfl,by simpa [String.append_assoc] using same⟩)
    · by_cases empty : u = ""
      · exact .inl ⟨by simp [empty],by simpa [empty] using same.symm⟩
      · obtain ⟨v,rfl⟩ := sep_begins single empty same
        exact .inr (.inl ⟨v,rfl,by simpa [String.append_assoc] using same⟩)
  · rintro (⟨rfl,rfl⟩ | ⟨u,rfl,rfl⟩ | ⟨u,rfl,rfl⟩)
    · exact .inl ⟨"",by simp⟩
    · exact .inr ⟨sep ++ u,rfl,by simp [String.append_assoc]⟩
    · exact .inl ⟨sep ++ u,rfl,by simp [String.append_assoc]⟩
/-- A beginning without the separator belongs to the first of the joined strings. -/
theorem join_eq_append (free : ∀ x y, c ≠ x ++ sep ++ y) : a ++ sep ++ b = c ++ d ↔ ∃ u, a = c ++ u ∧ d = u ++ sep ++ b := by
  simp only [String.append_assoc] at free ⊢
  constructor
  · intro same
    rcases append_eq_iff.mp same with ⟨u,rfl,rest⟩ | found
    · by_cases empty : u = ""
      · exact ⟨"",by simp [empty],by simpa [empty] using rest.symm⟩
      · obtain ⟨v,rfl⟩ := sep_begins single empty rest
        exact absurd rfl (free a v)
    · exact found
  · rintro ⟨u,rfl,rfl⟩
    simp [String.append_assoc]
theorem free_of_not_mem (absent : s ∉ a.toList) (x y : String) : a ≠ x ++ sep ++ y := by
  rintro rfl
  simp [single] at absent
theorem ne_join : a ≠ a ++ sep ++ b := by
  subst single
  intro same
  have lengths := congrArg String.length same
  simp at lengths
  omega
end

end Stellabill.Joins
