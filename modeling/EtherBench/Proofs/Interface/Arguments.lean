import EtherBench.Proofs.Interface.Canonical

/-!
# Lists of interface arguments

A list of arguments is read from the left. It gives an interface for each of
them, or the fault of the first that has one, together with its position.
-/

namespace EtherBench

def InterfaceError.position? : InterfaceError → Option Nat
  | .emptyName arg => some arg
  | .missingCloseBracket arg => some arg
  | .trailingCharacters arg _ => some arg
  | .unknownMode arg _ => some arg
  | .missingColon arg => some arg
  | .notANumber arg _ => some arg
  | .vlanOutOfRange arg _ _ _ => some arg
  | .emptyVlanList arg => some arg
  | .duplicateVlan arg _ => some arg
  | .tooManyInterfaces _ _ => none

namespace Interface

section
variable {arg : Nat} {s : String} {args : List String} {i : Interface} {interfaces : List Interface}
variable {e : InterfaceError}

theorem position_of_offends {seen : List UInt16} {token : List Char} (h : Offends arg seen token e) :
    e.position? = some arg := by
  cases h <;> rfl

theorem position_of_parseMode {inner : List Char} (h : parseMode arg inner = .error e) :
    e.position? = some arg := by
  unfold parseMode at h
  split at h
  · cases h
    rfl
  · obtain ⟨_, _, _, _, -, -, -, hlast⟩ := parseVlans_eq_error_iff.mp (map_eq_error_iff.mp h)
    exact position_of_offends hlast
  · exact position_of_offends (offends_of_parseVlan (map_eq_error_iff.mp h))
  all_goals
    cases h
    rfl

theorem position_of_parse (harg : arg ≤ 65535) (h : parse arg s = .error e) : e.position? = some arg := by
  simp only [parse, if_neg (Nat.not_lt.mpr harg)] at h
  split at h
  · cases h
    rfl
  · split at h
    · cases h
    · split at h
      · cases h
        rfl
      · split at h
        · cases h
          rfl
        · exact position_of_parseMode (map_eq_error_iff.mp h)

theorem parse_elsewhere (h : parse arg s = .ok i) {arg' : Nat} (harg' : arg' ≤ 65535) :
    ∃ i', parse arg' s = .ok i' :=
  ⟨_, parse_of_describes harg' (describes_of_parse h)⟩

theorem parseFrom_cons (h : parse arg s = .ok i) :
    parseFrom arg (s :: args) = (parseFrom (arg + 1) args).map (i :: ·) := by
  rw [parseFrom, h]

theorem parseFrom_of_error (h : parse arg s = .error e) : parseFrom arg (s :: args) = .error e := by
  rw [parseFrom, h]

theorem getElem?_of_parseFrom (h : parseFrom arg args = .ok interfaces) {k : Nat} (hk : args[k]? = some s) :
    ∃ i, interfaces[k]? = some i ∧ parse (arg + k) s = .ok i := by
  induction args generalizing arg interfaces k with
  | nil => cases hk
  | cons t args ih =>
    cases hfirst : parse arg t with
    | error e =>
      rw [parseFrom_of_error hfirst] at h
      cases h
    | ok first =>
      rw [parseFrom_cons hfirst, map_eq_ok_iff] at h
      obtain ⟨rest, hrest, rfl⟩ := h
      cases k with
      | zero =>
        cases hk
        exact ⟨first, rfl, hfirst⟩
      | succ k =>
        obtain ⟨i, hi, hparse⟩ := ih hrest hk
        exact ⟨i, hi, Nat.succ_add_eq_add_succ arg k ▸ hparse⟩

/-- **The first argument at fault decides.** -/
theorem parseFrom_eq_error_iff : parseFrom arg args = .error e ↔
    ∃ k s, args[k]? = some s ∧ parse (arg + k) s = .error e ∧
      ∀ j t, j < k → args[j]? = some t → ∃ i, parse (arg + j) t = .ok i := by
  induction args generalizing arg with
  | nil => simp [parseFrom]
  | cons s args ih =>
    cases hs : parse arg s with
    | error e' =>
      rw [parseFrom_of_error hs]
      constructor
      · intro h
        cases h
        exact ⟨0, s, rfl, hs, fun j _ hj => absurd hj (Nat.not_lt_zero j)⟩
      · rintro ⟨k, t, hk, ht, hbefore⟩
        cases k with
        | zero =>
          cases hk
          cases hs.symm.trans ht
          rfl
        | succ k =>
          obtain ⟨i, hi⟩ := hbefore 0 s (Nat.succ_pos k) rfl
          cases hs.symm.trans hi
    | ok first =>
      rw [parseFrom_cons hs, map_eq_error_iff, ih]
      constructor
      · rintro ⟨k, t, hk, ht, hbefore⟩
        refine ⟨k + 1, t, hk, Nat.succ_add_eq_add_succ arg k ▸ ht, fun j u hj hu => ?_⟩
        cases j with
        | zero =>
          cases hu
          exact ⟨first, hs⟩
        | succ j =>
          rw [← Nat.succ_add_eq_add_succ]
          exact hbefore j u (Nat.lt_of_succ_lt_succ hj) hu
      · rintro ⟨k, t, hk, ht, hbefore⟩
        cases k with
        | zero =>
          cases hk
          cases hs.symm.trans ht
        | succ k =>
          refine ⟨k, t, hk, Nat.succ_add_eq_add_succ arg k ▸ ht, fun j u hj hu => ?_⟩
          rw [Nat.succ_add_eq_add_succ]
          exact hbefore (j + 1) u (Nat.succ_lt_succ hj) hu

theorem exists_parseFrom (hpositions : arg + args.length ≤ 65536) (h : ∀ s ∈ args, ∃ i, parse 1 s = .ok i) :
    ∃ interfaces, parseFrom arg args = .ok interfaces := by
  cases hargs : parseFrom arg args with
  | ok interfaces => exact ⟨interfaces, rfl⟩
  | error e =>
    obtain ⟨k, s, hk, hs, -⟩ := parseFrom_eq_error_iff.mp hargs
    have hlt := (List.getElem?_eq_some_iff.mp hk).1
    obtain ⟨i, hi⟩ := h s (List.mem_of_getElem? hk)
    have helsewhere : ∃ i', parse (arg + k) s = .ok i' := parse_elsewhere hi (by omega)
    obtain ⟨i', hi'⟩ := helsewhere
    cases hs.symm.trans hi'

theorem parseAll_of_le (h : args.length ≤ Message.maxInterfaces) : parseAll args = parseFrom 1 args := by
  simp only [parseAll, checkedCount, if_neg (Nat.not_lt.mpr h)]

theorem parseAll_of_lt (h : Message.maxInterfaces < args.length) :
    parseAll args = .error (.tooManyInterfaces args.length Message.maxInterfaces) := by
  simp only [parseAll, checkedCount, if_pos h]

theorem exists_parseAll_iff : (∃ interfaces, parseAll args = .ok interfaces) ↔
    args.length ≤ Message.maxInterfaces ∧ ∀ s ∈ args, ∃ i, parse 1 s = .ok i := by
  constructor
  · rintro ⟨interfaces, h⟩
    have hle := (length_of_parseAll h).2
    rw [parseAll_of_le hle] at h
    refine ⟨hle, fun s hs => ?_⟩
    obtain ⟨k, hk⟩ := List.mem_iff_getElem?.mp hs
    obtain ⟨i, -, hi⟩ := getElem?_of_parseFrom h hk
    exact parse_elsewhere hi (by decide)
  · rintro ⟨hle, h⟩
    have hpositions : 1 + Message.maxInterfaces ≤ 65536 := by decide
    rw [parseAll_of_le hle]
    exact exists_parseFrom (by omega) h

theorem getElem?_of_parseAll (h : parseAll args = .ok interfaces) {k : Nat} (hk : args[k]? = some s) :
    ∃ i, interfaces[k]? = some i ∧ parse (k + 1) s = .ok i := by
  rw [parseAll_of_le (length_of_parseAll h).2] at h
  rw [Nat.add_comm]
  exact getElem?_of_parseFrom h hk

theorem parseAll_eq_error_iff (hle : args.length ≤ Message.maxInterfaces) : parseAll args = .error e ↔
    ∃ k s, args[k]? = some s ∧ parse (k + 1) s = .error e ∧ e.position? = some (k + 1) ∧
      ∀ j t, j < k → args[j]? = some t → ∃ i, parse (j + 1) t = .ok i := by
  have hmax : Message.maxInterfaces < 65535 := by decide
  rw [parseAll_of_le hle, parseFrom_eq_error_iff]
  simp only [Nat.add_comm 1]
  constructor
  · rintro ⟨k, s, hk, hs, hbefore⟩
    have hlt := (List.getElem?_eq_some_iff.mp hk).1
    exact ⟨k, s, hk, hs, position_of_parse (by omega) hs, hbefore⟩
  · rintro ⟨k, s, hk, hs, -, hbefore⟩
    exact ⟨k, s, hk, hs, hbefore⟩

end

end Interface

end EtherBench
