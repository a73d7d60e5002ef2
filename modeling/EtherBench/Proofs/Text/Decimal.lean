import EtherBench.Text.Decimal
import Mathlib.Data.List.Induction

/-!
# Numbers and their spellings

A number has many spellings, with zeros or a plus sign in front, and reading
takes every one of them. It is printed in one, with neither.
-/

namespace EtherBench.Decimal

inductive Digits : List Char → Nat → Prop
  | one {d : Nat} (hd : d < 10) : Digits [Nat.digitChar d] d
  | more {cs : List Char} {n d : Nat} (h : Digits cs n) (hd : d < 10) :
      Digits (cs ++ [Nat.digitChar d]) (10 * n + d)

inductive Spells : List Char → Nat → Prop
  | bare {cs : List Char} {n : Nat} (h : Digits cs n) : Spells cs n
  | plus {cs : List Char} {n : Nat} (h : Digits cs n) : Spells ('+' :: cs) n

section
variable {cs : List Char} {c : Char} {n bound : Nat}

theorem isDigit_iff : isDigit c ↔ 48 ≤ c.toNat ∧ c.toNat ≤ 57 := by
  unfold isDigit
  simp only [Bool.and_eq_true, decide_eq_true_eq]
  rfl

theorem toNat_digitChar {d : Nat} (hd : d < 10) : (Nat.digitChar d).toNat = 48 + d := by
  rw [Nat.toNat_digitChar_of_lt_ten hd, Nat.add_comm]

theorem isDigit_digitChar {d : Nat} (hd : d < 10) : isDigit (Nat.digitChar d) := by
  rw [isDigit_iff, toNat_digitChar hd]
  omega

theorem exists_digitChar (h : isDigit c) : ∃ d, d < 10 ∧ c = Nat.digitChar d := by
  rw [isDigit_iff] at h
  have hd : c.toNat - 48 < 10 := by omega
  refine ⟨c.toNat - 48, hd, Char.toNat_inj.mp ?_⟩
  rw [toNat_digitChar hd]
  omega

theorem digits_concat (cs : List Char) (c : Char) : digits (cs ++ [c]) = digits cs * 10 + (c.toNat - 48) := by
  simp [digits]

theorem digits_iff : Digits cs n ↔ cs ≠ [] ∧ cs.all isDigit ∧ digits cs = n := by
  constructor
  · intro h
    induction h with
    | one hd => simp [digits, isDigit_digitChar hd, toNat_digitChar hd]
    | more h hd ih =>
      obtain ⟨-, hall, hn⟩ := ih
      rw [digits_concat, hn, toNat_digitChar hd]
      refine ⟨by simp, by simpa [isDigit_digitChar hd] using hall, ?_⟩
      omega
  · -- the value grows at the end of the digits
    intro h
    induction cs using List.reverseRecOn generalizing n with
    | nil => exact absurd rfl h.1
    | append_singleton cs c ih =>
      obtain ⟨-, hall, hn⟩ := h
      simp only [List.all_append, List.all_cons, List.all_nil, Bool.and_true, Bool.and_eq_true] at hall
      obtain ⟨d, hd, rfl⟩ := exists_digitChar hall.2
      rw [digits_concat, toNat_digitChar hd, Nat.add_sub_cancel_left] at hn
      by_cases hcs : cs = []
      · subst hcs
        obtain rfl : d = n := by simpa [digits] using hn
        exact .one hd
      · rw [← hn, Nat.mul_comm]
        exact .more (ih ⟨hcs, hall.1, rfl⟩) hd

theorem Digits.head_ne_plus (h : Digits ('+' :: cs) n) : False := by
  have hall := (digits_iff.mp h).2.1
  simp [isDigit] at hall

/-- **Every spelling is read**, and nothing else. -/
theorem parse_eq_some_iff : parse bound cs = some n ↔ Spells cs n ∧ n < bound := by
  have hread (ds : List Char) :
      ((if ds ≠ [] ∧ ds.all isDigit ∧ digits ds < bound then some (digits ds) else none) = some n) ↔
        Digits ds n ∧ n < bound := by
    rw [digits_iff]
    constructor
    · intro h
      split at h
      · rename_i hds
        cases h
        exact ⟨⟨hds.1, hds.2.1, rfl⟩, hds.2.2⟩
      · cases h
    · rintro ⟨⟨hne, hall, rfl⟩, hlt⟩
      rw [if_pos ⟨hne, hall, hlt⟩]
  unfold parse
  simp only
  split
  · rename_i ds
    rw [hread]
    refine and_congr_left fun _ => ⟨.plus, fun h => ?_⟩
    cases h with
    | bare h => exact h.head_ne_plus.elim
    | plus h => exact h
  · rename_i hplus
    rw [hread]
    refine and_congr_left fun _ => ⟨.bare, fun h => ?_⟩
    cases h with
    | bare h => exact h
    | plus h => exact absurd rfl (hplus _)

theorem parse_eq_none_iff : parse bound cs = none ↔ ∀ n, Spells cs n → bound ≤ n := by
  rw [Option.eq_none_iff_forall_ne_some]
  refine forall_congr' fun n => ?_
  rw [ne_eq, parse_eq_some_iff, not_and, Nat.not_lt]

theorem Spells.mem (h : Spells cs n) (hc : c ∈ cs) : c = '+' ∨ isDigit c := by
  cases h with
  | bare h => exact .inr (List.all_eq_true.mp (digits_iff.mp h).2.1 c hc)
  | plus h =>
    rw [List.mem_cons] at hc
    exact hc.imp_right (List.all_eq_true.mp (digits_iff.mp h).2.1 c)

theorem Spells.ne_nil (h : Spells cs n) : cs ≠ [] := by
  cases h with
  | bare h => exact (digits_iff.mp h).1
  | plus h => exact List.cons_ne_nil _ _

/-- **A number is printed in a spelling of it.** -/
theorem spells_toString (n : Nat) : Spells (toString n).toList n := by
  have hlist : (toString n).toList = Nat.toDigits 10 n := Nat.toList_repr
  rw [hlist]
  refine .bare (digits_iff.mpr ⟨Nat.toDigits_ne_nil, List.all_eq_true.mpr fun c hc => ?_, ?_⟩)
  · exact Nat.isDigit_of_mem_toDigits (by decide) (by decide) hc
  · have hvalue := Nat.ofDigitChars_ten_toDigits (n := n)
    rw [Nat.ofDigitChars_eq_foldl] at hvalue
    simpa [digits, Nat.mul_comm] using hvalue

end

end EtherBench.Decimal
