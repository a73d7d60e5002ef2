import EtherBench.Interface.Parse
import Mathlib.Data.List.TakeWhile

/-!
# Interface arguments and their positions

Interfaces are numbered by the positions of their arguments, without gaps.
-/

namespace EtherBench.Interface

section
variable {arg : Nat} {s : String} {args : List String} {i : Interface} {interfaces : List Interface}

theorem index_of_parse (h : parse arg s = .ok i) : i.index = UInt16.ofNat arg := by
  unfold parse at h
  split at h
  · cases h
  · simp only at h
    split at h
    · cases h
    · split at h
      · cases h
        rfl
      · split at h
        · cases h
        · split at h
          · cases h
          · cases hm : parseMode arg (List.takeWhile (· != ']') _) with
            | error e =>
              rw [hm] at h
              cases h
            | ok mode =>
              rw [hm] at h
              cases h
              rfl

theorem index_of_parseFrom (h : parseFrom arg args = .ok interfaces) {k : Nat}
    (hk : interfaces[k]? = some i) : i.index = UInt16.ofNat (arg + k) := by
  induction args generalizing arg interfaces k with
  | nil =>
    cases h
    cases hk
  | cons s args ih =>
    unfold parseFrom at h
    cases hs : parse arg s with
    | error e =>
      rw [hs] at h
      cases h
    | ok first =>
      rw [hs] at h
      cases hrest : parseFrom (arg + 1) args with
      | error e =>
        simp only [hrest] at h
        cases h
      | ok rest =>
        simp only [hrest] at h
        cases h
        cases k with
        | zero =>
          cases hk
          exact index_of_parse hs
        | succ k =>
          rw [List.getElem?_cons_succ] at hk
          rw [ih hrest hk, Nat.add_assoc, Nat.add_comm 1 k]

/-- **The interface at each position has the number of its position.** -/
theorem index_of_parseAll (h : parseAll args = .ok interfaces) {k : Nat} (hk : interfaces[k]? = some i) :
    i.index = UInt16.ofNat (k + 1) := by
  unfold parseAll at h
  split at h
  · cases h
  · rw [index_of_parseFrom h hk, Nat.add_comm]

theorem length_of_parseFrom (h : parseFrom arg args = .ok interfaces) : interfaces.length = args.length := by
  induction args generalizing arg interfaces with
  | nil =>
    cases h
    rfl
  | cons s args ih =>
    unfold parseFrom at h
    cases hs : parse arg s with
    | error e =>
      rw [hs] at h
      cases h
    | ok first =>
      cases hrest : parseFrom (arg + 1) args with
      | error e =>
        simp only [hs, hrest] at h
        cases h
      | ok rest =>
        simp only [hs, hrest] at h
        cases h
        rw [List.length_cons, List.length_cons, ih hrest]

theorem length_of_parseAll (h : parseAll args = .ok interfaces) :
    interfaces.length = args.length ∧ args.length ≤ Message.maxInterfaces := by
  unfold parseAll checkedCount at h
  by_cases hmax : Message.maxInterfaces < args.length
  · rw [if_pos hmax] at h
    cases h
  · rw [if_neg hmax] at h
    exact ⟨length_of_parseFrom h, Nat.not_lt.mp hmax⟩

theorem parse_of_plain (harg : arg ≤ 65535) (hne : s ≠ "") (hplain : '[' ∉ s.toList) :
    parse arg s = .ok (plain (UInt16.ofNat arg) s) := by
  have hall : ∀ c ∈ s.toList, c ≠ '[' := fun c hc h => hplain (h ▸ hc)
  have hname : s.toList.takeWhile (· != '[') = s.toList := List.takeWhile_eq_self_iff.mpr (by simpa using hall)
  have hrest : s.toList.dropWhile (· != '[') = [] := List.dropWhile_eq_nil_iff.mpr (by simpa using hall)
  simp only [parse, hname, hrest, if_neg (Nat.not_lt.mpr harg),
    if_neg (mt String.toList_eq_nil_iff.mp hne)]

theorem exists_parseAll_of_plain (hmax : args.length ≤ Message.maxInterfaces)
    (h : ∀ s ∈ args, s ≠ "" ∧ '[' ∉ s.toList) : ∃ interfaces, parseAll args = .ok interfaces := by
  have hfrom : ∀ arg, arg + args.length ≤ 65536 → ∃ interfaces, parseFrom arg args = .ok interfaces := by
    clear hmax
    induction args with
    | nil => exact fun _ _ => ⟨[], rfl⟩
    | cons s args ih =>
      intro arg harg
      rw [List.forall_mem_cons] at h
      rw [List.length_cons] at harg
      obtain ⟨rest, hrest⟩ := ih h.2 (arg + 1) (by omega)
      refine ⟨plain (UInt16.ofNat arg) s :: rest, ?_⟩
      rw [parseFrom, parse_of_plain (by omega) h.1.1 h.1.2]
      simp only [hrest]
      rfl
  have hlt : Message.maxInterfaces < 65535 := by decide
  rw [parseAll, checkedCount, if_neg (Nat.not_lt.mpr hmax)]
  exact hfrom 1 (by omega)

end

end EtherBench.Interface
