import EtherBench.Proofs.Text.Octets
import EtherBench.Text.Blank
import Mathlib.Data.List.DropRight

/-!
# Words and the blanks around them

Operator text is read without the blanks at its end, or for its first word
alone, in which capitals count as small letters.
-/

namespace EtherBench.Text

/-- Behind `t` the text `s` has blanks only, and `t` does not end in one. -/
structure Trims (s t : String) : Prop where
  blanks : ∃ blanks, s.toList = t.toList ++ blanks ∧ ∀ c ∈ blanks, isBlank c
  last : ∀ h : t.toList ≠ [], ¬ isBlank (t.toList.getLast h)

def Names (verb s : String) : Prop :=
  ∃ blanks word rest, s.toList = blanks ++ word ++ rest ∧ (∀ c ∈ blanks, isBlank c) ∧
    (∀ c ∈ word, ¬ isBlank c) ∧ (∀ c ∈ rest.head?, isBlank c) ∧ word.map Char.toLower = verb.toList

section
variable {s t verb : String}

theorem toList_trimEnd (s : String) : (trimEnd s).toList = s.toList.rdropWhile isBlank :=
  String.toList_ofList

theorem trims_trimEnd (s : String) : Trims s (trimEnd s) := by
  refine ⟨⟨s.toList.rtakeWhile isBlank, ?_, fun c => List.mem_rtakeWhile_imp⟩, ?_⟩
  · rw [toList_trimEnd, List.rdropWhile_append_rtakeWhile]
  · simp only [toList_trimEnd]
    exact fun h => List.rdropWhile_last_not _ _ h

theorem Trims.eq (h : Trims s t) : t = trimEnd s := by
  obtain ⟨⟨blanks, hs, hblanks⟩, hlast⟩ := h
  rw [← String.toList_inj, toList_trimEnd, hs, List.rdropWhile, List.reverse_append,
    List.dropWhile_append_of_pos (by simpa using hblanks)]
  exact (List.rdropWhile_eq_self_iff.mpr hlast).symm

theorem Trims.length_le (h : Trims s t) : (Bytes.ofText t).length ≤ (Bytes.ofText s).length := by
  obtain ⟨⟨blanks, hs, _⟩, _⟩ := h
  rw [Bytes.ofText_eq_flatMap s, hs, List.flatMap_append, ← Bytes.ofText_eq_flatMap, List.length_append]
  exact Nat.le_add_right ..

theorem toList_lowercase_firstWord (s : String) : (lowercase (firstWord s)).toList =
    ((s.toList.dropWhile isBlank).takeWhile fun c => !isBlank c).map Char.toLower := by
  rw [lowercase, firstWord, String.toList_ofList, String.toList_ofList]

theorem names_iff (hne : verb ≠ "") : Names verb s ↔ lowercase (firstWord s) = verb := by
  rw [← String.toList_inj, toList_lowercase_firstWord]
  constructor
  · rintro ⟨blanks, word, rest, hs, hblanks, hword, hrest, hverb⟩
    have hdrop : (word ++ rest).dropWhile isBlank = word ++ rest := by
      cases word with
      | nil => exact absurd (String.toList_eq_nil_iff.mp hverb.symm) hne
      | cons c word => exact List.dropWhile_cons_of_neg (hword c (List.mem_cons_self ..))
    have htake : rest.takeWhile (fun c => !isBlank c) = [] := by
      cases rest with
      | nil => rfl
      | cons c rest => exact List.takeWhile_cons_of_neg (by simp [hrest c rfl])
    rw [hs, List.append_assoc, List.dropWhile_append_of_pos hblanks, hdrop,
      List.takeWhile_append_of_pos (by simpa using hword), htake, List.append_nil, hverb]
  · intro h
    refine ⟨s.toList.takeWhile isBlank, _, (s.toList.dropWhile isBlank).dropWhile fun c => !isBlank c,
      ?_, fun c => List.mem_takeWhile_imp, fun c hc => ?_, fun c hc => ?_, h⟩
    · rw [List.append_assoc, List.takeWhile_append_dropWhile, List.takeWhile_append_dropWhile]
    · simpa using List.mem_takeWhile_imp hc
    · have := List.head?_dropWhile_not (fun c => !isBlank c) (s.toList.dropWhile isBlank)
      rw [Option.mem_def.mp hc] at this
      simpa using this

end

end EtherBench.Text
