import EtherBench.Proofs.Interface.Parse
import EtherBench.Proofs.Text.Decimal
import Mathlib.Data.List.Forall2

/-!
# The grammar of interface arguments

A name alone is an access interface on the default VLAN; brackets behind it give
the VLAN or the list of VLANs. What is not of this form is refused, and in a
list the leftmost token that is at fault says why.
-/

namespace EtherBench.Interface

def IsName (name : String) : Prop := name ≠ "" ∧ '[' ∉ name.toList

def IsVlan (token : List Char) (vlan : UInt16) : Prop :=
  Decimal.Spells token vlan.toNat ∧ 1 ≤ vlan.toNat ∧ vlan.toNat ≤ 4092

/-- The arguments, with the name and the mode that each of them gives. -/
inductive Describes : String → String → PortMode → Prop
  | plain {name : String} (hname : IsName name) : Describes name name (.access 0)
  | access {name token : String} {vlan : UInt16} (hname : IsName name)
      (htoken : IsVlan token.toList vlan) : Describes (name ++ "[U:" ++ token ++ "]") name (.access vlan)
  | trunk {name : String} {tokens : List String} {vlans : List UInt16} (hname : IsName name)
      (hne : tokens ≠ []) (htokens : List.Forall₂ IsVlan (tokens.map String.toList) vlans)
      (hnodup : vlans.Nodup) : Describes (name ++ "[T:" ++ ",".intercalate tokens ++ "]") name (.trunk vlans)

/-- What can be wrong with a token of the argument at position `arg`, behind tokens for the VLANs in
`seen`. -/
inductive Offends (arg : Nat) (seen : List UInt16) (token : List Char) : InterfaceError → Prop
  | notANumber (h : ∀ n, Decimal.Spells token n → 4294967296 ≤ n) :
      Offends arg seen token (.notANumber arg (String.ofList token))
  | outOfRange {n : Nat} (h : Decimal.Spells token n) (hn : n < 4294967296) (hrange : n < 1 ∨ 4092 < n) :
      Offends arg seen token (.vlanOutOfRange arg n 1 4092)
  | repeated {vlan : UInt16} (h : IsVlan token vlan) (hmem : vlan ∈ seen) :
      Offends arg seen token (.duplicateVlan arg vlan.toNat)

/-- The texts between the commas of a list. -/
def Pieces (list : String) (tokens : List String) : Prop :=
  tokens ≠ [] ∧ ",".intercalate tokens = list ∧ ∀ token ∈ tokens, ',' ∉ token.toList

/-- The leftmost of the tokens that are at fault: those in front of it spell different VLANs. -/
def FirstOffence (arg : Nat) (tokens : List String) (e : InterfaceError) : Prop :=
  ∃ before token behind vlans, tokens = before ++ token :: behind ∧
    List.Forall₂ IsVlan (before.map String.toList) vlans ∧ vlans.Nodup ∧ Offends arg vlans token.toList e

def AllNew (seen vlans : List UInt16) : Prop := vlans.Nodup ∧ ∀ v ∈ vlans, v ∉ seen

section
variable {arg : Nat} {s name : String} {i : Interface} {e : InterfaceError} {mode : PortMode}
variable {v : UInt16} {seen vlans : List UInt16} {token inner : List Char} {tokens : List (List Char)}

theorem IsVlan.not_mem {c : Char} (h : IsVlan token v) (hplus : c ≠ '+') (hdigit : Decimal.isDigit c = false) :
    c ∉ token := by
  intro hc
  rcases h.1.mem hc with hc | hc
  · exact hplus hc
  · rw [hdigit] at hc
    cases hc

/-! ## Lists of VLANs -/

theorem parseVlan_of_vlan (h : IsVlan token v) : parseVlan arg token = .ok v := by
  have hlt := v.toNat_lt
  have hread : Decimal.parse 4294967296 token = some v.toNat :=
    Decimal.parse_eq_some_iff.mpr ⟨h.1, by omega⟩
  have hrange : ¬ (v.toNat < minVlan ∨ maxVlan < v.toNat) := by
    unfold minVlan maxVlan
    have := h.2
    omega
  simp only [parseVlan, hread, if_neg hrange, UInt16.ofNat_toNat]

theorem parseVlan_of_offends (h : Offends arg [] token e) : parseVlan arg token = .error e := by
  cases h with
  | notANumber h => rw [parseVlan, Decimal.parse_eq_none_iff.mpr h]
  | outOfRange h hn hrange =>
    rw [parseVlan, Decimal.parse_eq_some_iff.mpr ⟨h, hn⟩]
    exact if_pos hrange
  | repeated _ hmem => cases hmem

theorem vlan_or_offends (arg : Nat) (seen : List UInt16) (token : List Char) :
    (∃ v, IsVlan token v ∧ v ∉ seen) ∨ ∃ e, Offends arg seen token e := by
  cases hp : Decimal.parse 4294967296 token with
  | none => exact .inr ⟨_, .notANumber (Decimal.parse_eq_none_iff.mp hp)⟩
  | some n =>
    obtain ⟨hspells, hn⟩ := Decimal.parse_eq_some_iff.mp hp
    by_cases hrange : n < 1 ∨ 4092 < n
    · exact .inr ⟨_, .outOfRange hspells hn hrange⟩
    · have hvalue : (UInt16.ofNat n).toNat = n := by
        rw [UInt16.toNat_ofNat']
        omega
      have hvlan : IsVlan token (UInt16.ofNat n) := by
        rw [IsVlan, hvalue]
        exact ⟨hspells, by omega, by omega⟩
      by_cases hmem : UInt16.ofNat n ∈ seen
      · exact .inr ⟨_, .repeated hvlan hmem⟩
      · exact .inl ⟨_, hvlan, hmem⟩

theorem parseVlan_eq_ok_iff : parseVlan arg token = .ok v ↔ IsVlan token v := by
  refine ⟨fun h => ?_, parseVlan_of_vlan⟩
  rcases vlan_or_offends arg [] token with ⟨w, hw, -⟩ | ⟨e, he⟩
  · rw [parseVlan_of_vlan hw] at h
    cases h
    exact hw
  · rw [parseVlan_of_offends he] at h
    cases h

theorem offends_of_parseVlan (h : parseVlan arg token = .error e) : Offends arg [] token e := by
  rcases vlan_or_offends arg [] token with ⟨v, hv, -⟩ | ⟨e', he⟩
  · rw [parseVlan_of_vlan hv] at h
    cases h
  · rw [parseVlan_of_offends he] at h
    cases h
    exact he

theorem map_eq_ok_iff {α β : Type} {x : Except InterfaceError α} {f : α → β} {b : β} :
    x.map f = .ok b ↔ ∃ a, x = .ok a ∧ f a = b := by
  cases x with
  | error e => simp [Except.map]
  | ok a => simp [Except.map]

theorem map_eq_error_iff {α β : Type} {x : Except InterfaceError α} {f : α → β} :
    x.map f = .error e ↔ x = .error e := by
  cases x with
  | error e => simp [Except.map]
  | ok a => simp [Except.map]

theorem parseVlans_cons (h : IsVlan token v) (hv : v ∉ seen) :
    parseVlans arg seen (token :: tokens) = (parseVlans arg (v :: seen) tokens).map (v :: ·) := by
  simp only [parseVlans, parseVlan_of_vlan h, if_neg hv]

theorem parseVlans_of_offends (h : Offends arg seen token e) :
    parseVlans arg seen (token :: tokens) = .error e := by
  rw [parseVlans]
  cases h with
  | notANumber h => rw [parseVlan_of_offends (.notANumber h)]
  | outOfRange h hn hrange => rw [parseVlan_of_offends (.outOfRange h hn hrange)]
  | repeated h hmem => simp only [parseVlan_of_vlan h, if_pos hmem]

theorem Offends.mono {more : List UInt16} (h : Offends arg seen token e) (hsub : seen ⊆ more) :
    Offends arg more token e := by
  cases h with
  | notANumber h => exact .notANumber h
  | outOfRange h hn hrange => exact .outOfRange h hn hrange
  | repeated h hmem => exact .repeated h (hsub hmem)

theorem allNew_nil : AllNew [] vlans ↔ vlans.Nodup := by
  simp [AllNew]

theorem allNew_cons : AllNew seen (v :: vlans) ↔ v ∉ seen ∧ AllNew (v :: seen) vlans := by
  rw [AllNew, AllNew, List.nodup_cons, List.forall_mem_cons]
  simp only [List.mem_cons, not_or]
  constructor
  · rintro ⟨⟨hv, hnodup⟩, hseen, hnew⟩
    exact ⟨hseen, hnodup, fun w hw => ⟨fun h => hv (h ▸ hw), hnew w hw⟩⟩
  · rintro ⟨hseen, hnodup, hnew⟩
    exact ⟨⟨fun hv => (hnew v hv).1 rfl, hnodup⟩, hseen, fun w hw => (hnew w hw).2⟩

theorem parseVlans_eq_ok_iff : parseVlans arg seen tokens = .ok vlans ↔
    List.Forall₂ IsVlan tokens vlans ∧ AllNew seen vlans := by
  induction tokens generalizing seen vlans with
  | nil =>
    rw [List.forall₂_nil_left_iff, parseVlans]
    constructor
    · intro h
      cases h
      exact ⟨rfl, .nil, nofun⟩
    · rintro ⟨rfl, -⟩
      rfl
  | cons token tokens ih =>
    rw [List.forall₂_cons_left_iff]
    constructor
    · intro h
      rcases vlan_or_offends arg seen token with ⟨v, hv, hmem⟩ | ⟨e, he⟩
      · rw [parseVlans_cons hv hmem, map_eq_ok_iff] at h
        obtain ⟨vs, hvs, rfl⟩ := h
        obtain ⟨htokens, hnew⟩ := ih.mp hvs
        exact ⟨⟨v, vs, hv, htokens, rfl⟩, allNew_cons.mpr ⟨hmem, hnew⟩⟩
      · rw [parseVlans_of_offends he] at h
        cases h
    · rintro ⟨⟨v, vs, hv, htokens, rfl⟩, hnew⟩
      obtain ⟨hmem, hnew⟩ := allNew_cons.mp hnew
      rw [parseVlans_cons hv hmem, map_eq_ok_iff]
      exact ⟨vs, ih.mpr ⟨htokens, hnew⟩, rfl⟩

theorem parseVlans_eq_error_iff : parseVlans arg seen tokens = .error e ↔
    ∃ before token behind vlans, tokens = before ++ token :: behind ∧ List.Forall₂ IsVlan before vlans ∧
      AllNew seen vlans ∧ Offends arg (vlans.reverse ++ seen) token e := by
  induction tokens generalizing seen with
  | nil => simp [parseVlans]
  | cons token tokens ih =>
    have hseen (v : UInt16) (vs : List UInt16) : (v :: vs).reverse ++ seen = vs.reverse ++ v :: seen := by
      simp
    constructor
    · intro h
      rcases vlan_or_offends arg seen token with ⟨v, hv, hmem⟩ | ⟨e', he⟩
      · rw [parseVlans_cons hv hmem, map_eq_error_iff, ih] at h
        obtain ⟨before, last, behind, vs, rfl, hbefore, hnew, hlast⟩ := h
        exact ⟨token :: before, last, behind, v :: vs, rfl, .cons hv hbefore,
          allNew_cons.mpr ⟨hmem, hnew⟩, hseen v vs ▸ hlast⟩
      · rw [parseVlans_of_offends he] at h
        cases h
        exact ⟨[], token, tokens, [], rfl, .nil, ⟨.nil, nofun⟩, he⟩
    · rintro ⟨before, last, behind, vs, htokens, hbefore, hnew, hlast⟩
      cases hbefore with
      | nil =>
        obtain ⟨rfl, rfl⟩ := List.cons_eq_cons.mp htokens
        exact parseVlans_of_offends hlast
      | cons hv hbefore =>
        obtain ⟨rfl, rfl⟩ := List.cons_eq_cons.mp htokens
        obtain ⟨hmem, hnew⟩ := allNew_cons.mp hnew
        rw [parseVlans_cons hv hmem, map_eq_error_iff, ih]
        exact ⟨_, last, behind, _, rfl, hbefore, hnew, hseen _ _ ▸ hlast⟩

/-! ## Names and brackets -/

theorem bne_of_not_mem {c : Char} {cs : List Char} (h : c ∉ cs) : ∀ x ∈ cs, x != c := by
  intro x hx
  simpa using fun hxc : x = c => h (hxc ▸ hx)

theorem takeWhile_cut {c : Char} {front rest : List Char} (h : c ∉ front) :
    (front ++ c :: rest).takeWhile (· != c) = front := by
  rw [List.takeWhile_append_of_pos (bne_of_not_mem h), List.takeWhile_cons_of_neg (by simp),
    List.append_nil]

theorem dropWhile_cut {c : Char} {front rest : List Char} (h : c ∉ front) :
    (front ++ c :: rest).dropWhile (· != c) = c :: rest := by
  rw [List.dropWhile_append_of_pos (bne_of_not_mem h), List.dropWhile_cons_of_neg (by simp)]

theorem dropWhile_of_not_mem {c : Char} {cs : List Char} (h : c ∉ cs) : cs.dropWhile (· != c) = [] :=
  List.dropWhile_eq_nil_iff.mpr (bne_of_not_mem h)

theorem parse_of_brackets (harg : arg ≤ 65535) (hname : IsName name) (hinner : ']' ∉ inner)
    (hs : s.toList = name.toList ++ '[' :: (inner ++ [']'])) :
    parse arg s = (parseMode arg inner).map fun mode => ⟨UInt16.ofNat arg, name, mode⟩ := by
  have hne : name.toList ≠ [] := mt String.toList_eq_nil_iff.mp hname.1
  simp only [parse, if_neg (Nat.not_lt.mpr harg), hs, takeWhile_cut hname.2, dropWhile_cut hname.2, if_neg hne,
    takeWhile_cut hinner, dropWhile_cut hinner, String.ofList_toList]
  rfl

theorem exists_brackets_of_parse (h : parse arg s = .ok i) : arg ≤ 65535 ∧
    (IsName s ∨ ∃ name inner, IsName name ∧ ']' ∉ inner ∧ s.toList = name.toList ++ '[' :: (inner ++ [']'])) := by
  have harg : arg ≤ 65535 := by
    by_contra hlt
    rw [parse, if_pos (Nat.not_le.mp hlt)] at h
    cases h
  refine ⟨harg, ?_⟩
  simp only [parse, if_neg (Nat.not_lt.mpr harg)] at h
  by_cases hopen : '[' ∈ s.toList
  · obtain ⟨front, body, hs, hfront⟩ := List.eq_append_cons_of_mem hopen
    rw [hs] at h
    simp only [takeWhile_cut hfront, dropWhile_cut hfront] at h
    by_cases hne : front = []
    · rw [if_pos hne] at h
      cases h
    · rw [if_neg hne] at h
      by_cases hclose : ']' ∈ body
      · obtain ⟨inner, rest, rfl, hinner⟩ := List.eq_append_cons_of_mem hclose
        simp only [takeWhile_cut hinner, dropWhile_cut hinner] at h
        by_cases hrest : rest = []
        · subst hrest
          refine .inr ⟨String.ofList front, inner, ⟨?_, ?_⟩, hinner, ?_⟩
          · simpa using hne
          · simpa using hfront
          · simpa using hs
        · rw [if_pos hrest] at h
          cases h
      · simp only [dropWhile_of_not_mem hclose] at h
        cases h
  · refine .inl ⟨?_, hopen⟩
    rintro rfl
    cases h

theorem parseMode_access : parseMode arg ('U' :: ':' :: token) = (parseVlan arg token).map .access := rfl

theorem parseMode_trunk {list : List Char} (h : list ≠ []) :
    parseMode arg ('T' :: ':' :: list) = (parseVlans arg [] (list.splitOn ',')).map .trunk := by
  cases list with
  | nil => exact absurd rfl h
  | cons c list => rfl

theorem exists_of_parseMode (h : parseMode arg inner = .ok mode) :
    (∃ token v, inner = 'U' :: ':' :: token ∧ mode = .access v ∧ IsVlan token v) ∨
      ∃ list vlans, inner = 'T' :: ':' :: list ∧ mode = .trunk vlans ∧
        List.Forall₂ IsVlan (list.splitOn ',') vlans ∧ vlans.Nodup := by
  unfold parseMode at h
  split at h
  · cases h
  · rename_i list _
    obtain ⟨vlans, hvlans, rfl⟩ := map_eq_ok_iff.mp h
    obtain ⟨htokens, hnew⟩ := parseVlans_eq_ok_iff.mp hvlans
    exact .inr ⟨list, vlans, rfl, rfl, htokens, allNew_nil.mp hnew⟩
  · rename_i token
    obtain ⟨v, hv, rfl⟩ := map_eq_ok_iff.mp h
    exact .inl ⟨token, v, rfl, rfl, parseVlan_eq_ok_iff.mp hv⟩
  all_goals cases h

/-! ## Texts between commas -/

theorem not_mem_of_mem_splitOn {c : Char} {cs piece : List Char} (h : piece ∈ cs.splitOn c) : c ∉ piece := by
  induction cs generalizing piece with
  | nil =>
    simp only [List.splitOn_nil, List.mem_singleton] at h
    simp [h]
  | cons x cs ih =>
    rw [List.splitOn_cons_eq_if_modifyHead] at h
    by_cases hx : x = c
    · rw [if_pos (beq_iff_eq.mpr hx), List.mem_cons] at h
      rcases h with rfl | h
      · exact List.not_mem_nil
      · exact ih h
    · -- the character belongs to the first piece of what follows
      rw [if_neg (by simpa using hx)] at h
      cases hsplit : cs.splitOn c with
      | nil => exact absurd hsplit (List.splitOn_ne_nil _ _)
      | cons first others =>
        rw [hsplit, List.modifyHead_cons, List.mem_cons] at h
        rw [hsplit] at ih
        rcases h with rfl | h
        · simpa [Ne.symm hx] using ih (List.mem_cons_self ..)
        · exact ih (List.mem_cons_of_mem _ h)

theorem not_mem_intercalate {c : Char} {sep : List Char} {pieces : List (List Char)} (hsep : c ∉ sep)
    (h : ∀ piece ∈ pieces, c ∉ piece) : c ∉ sep.intercalate pieces := by
  induction pieces with
  | nil => simp
  | cons piece pieces ih =>
    rw [List.forall_mem_cons] at h
    cases pieces with
    | nil => simpa using h.1
    | cons next pieces =>
      rw [List.intercalate_cons_cons]
      simpa [hsep, h.1] using ih h.2

theorem exists_pieces (list : String) : ∃ tokens, Pieces list tokens := by
  refine ⟨(list.toList.splitOn ',').map String.ofList, by simp [List.splitOn_ne_nil], ?_, ?_⟩
  · rw [← String.toList_inj, String.toList_intercalate]
    simp [Function.comp_def]
  · simp only [List.forall_mem_map, String.toList_ofList]
    exact fun piece => not_mem_of_mem_splitOn

theorem Pieces.splitOn {list : String} {tokens : List String} (h : Pieces list tokens) :
    list.toList.splitOn ',' = tokens.map String.toList := by
  obtain ⟨hne, rfl, hcomma⟩ := h
  rw [String.toList_intercalate]
  exact List.splitOn_intercalate _ (by simpa using hcomma) (by simpa using hne)

theorem describes_of_parse (h : parse arg s = .ok i) : Describes s i.name i.mode := by
  obtain ⟨harg, hs | ⟨name, inner, hname, hinner, hs⟩⟩ := exists_brackets_of_parse h
  · rw [parse_of_plain harg hs.1 hs.2] at h
    cases h
    exact .plain hs
  · rw [parse_of_brackets harg hname hinner hs, map_eq_ok_iff] at h
    obtain ⟨mode, hmode, rfl⟩ := h
    rcases exists_of_parseMode hmode with ⟨token, v, rfl, rfl, hv⟩ | ⟨list, vlans, rfl, rfl, hvlans, hnodup⟩
    · have heq : s = name ++ "[U:" ++ String.ofList token ++ "]" := by
        rw [← String.toList_inj, hs]
        simp
      rw [heq]
      exact .access hname (by simpa using hv)
    · obtain ⟨tokens, hpieces⟩ := exists_pieces (String.ofList list)
      have hsplit := hpieces.splitOn
      rw [String.toList_ofList] at hsplit
      have heq : s = name ++ "[T:" ++ ",".intercalate tokens ++ "]" := by
        rw [← String.toList_inj, hs, hpieces.2.1]
        simp
      rw [heq]
      exact .trunk hname hpieces.1 (hsplit ▸ hvlans) hnodup

theorem not_mem_of_vlans {c : Char} (h : List.Forall₂ IsVlan tokens vlans) (hplus : c ≠ '+')
    (hdigit : Decimal.isDigit c = false) : ∀ token ∈ tokens, c ∉ token := by
  induction h with
  | nil => exact nofun
  | cons hv _ ih => exact List.forall_mem_cons.mpr ⟨hv.not_mem hplus hdigit, ih⟩

theorem parse_of_trunk {list : String} (harg : arg ≤ 65535) (hname : IsName name) (hne : list ≠ "")
    (hclose : ']' ∉ list.toList) : parse arg (name ++ "[T:" ++ list ++ "]") =
      (parseVlans arg [] (list.toList.splitOn ',')).map fun vlans => ⟨UInt16.ofNat arg, name, .trunk vlans⟩ := by
  have hinner : ']' ∉ 'T' :: ':' :: list.toList := by simpa using hclose
  rw [parse_of_brackets harg hname hinner (by simp), parseMode_trunk (mt String.toList_eq_nil_iff.mp hne)]
  cases parseVlans arg [] (list.toList.splitOn ',') <;> rfl

theorem list_of_vlans {tokens : List String} (hne : tokens ≠ [])
    (h : List.Forall₂ IsVlan (tokens.map String.toList) vlans) :
    Pieces (",".intercalate tokens) tokens ∧ ",".intercalate tokens ≠ "" ∧
      ']' ∉ (",".intercalate tokens).toList := by
  have hcomma := not_mem_of_vlans h (c := ',') (by decide) (by decide)
  have hpieces : Pieces (",".intercalate tokens) tokens := ⟨hne, rfl, by simpa using hcomma⟩
  refine ⟨hpieces, fun hempty => ?_, ?_⟩
  · have hsplit := hpieces.splitOn
    rw [hempty] at hsplit
    rw [← hsplit] at h
    cases h with
    | cons hv _ => exact hv.1.ne_nil rfl
  · rw [String.toList_intercalate]
    exact not_mem_intercalate (by decide) (not_mem_of_vlans h (by decide) (by decide))

theorem parse_of_describes (harg : arg ≤ 65535) (h : Describes s name mode) :
    parse arg s = .ok ⟨UInt16.ofNat arg, name, mode⟩ := by
  cases h with
  | plain hname => exact parse_of_plain harg hname.1 hname.2
  | @access _ token v hname htoken =>
    have hinner : ']' ∉ 'U' :: ':' :: token.toList := by
      simpa using htoken.not_mem (by decide) (by decide)
    rw [parse_of_brackets harg hname hinner (by simp), parseMode_access, parseVlan_eq_ok_iff.mpr htoken]
    rfl
  | @trunk _ tokens vlans hname hne htokens hnodup =>
    obtain ⟨hpieces, hlist, hclose⟩ := list_of_vlans hne htokens
    rw [parse_of_trunk harg hname hlist hclose, hpieces.splitOn,
      parseVlans_eq_ok_iff.mpr ⟨htokens, allNew_nil.mpr hnodup⟩]
    rfl

theorem toNat_index_of_parse (h : parse arg s = .ok i) : i.index.toNat = arg := by
  have harg := (exists_brackets_of_parse h).1
  rw [index_of_parse h, UInt16.toNat_ofNat']
  omega

theorem parse_eq_ok_iff : parse arg s = .ok i ↔ i.index.toNat = arg ∧ Describes s i.name i.mode := by
  constructor
  · intro h
    exact ⟨toNat_index_of_parse h, describes_of_parse h⟩
  · rintro ⟨rfl, h⟩
    have hlt := i.index.toNat_lt
    rw [parse_of_describes (by omega) h, UInt16.ofNat_toNat]

theorem parse_trunk_eq_error_iff {list : String} {tokens : List String} (harg : arg ≤ 65535)
    (hname : IsName name) (hne : list ≠ "") (hclose : ']' ∉ list.toList) (htokens : Pieces list tokens) :
    parse arg (name ++ "[T:" ++ list ++ "]") = .error e ↔ FirstOffence arg tokens e := by
  rw [parse_of_trunk harg hname hne hclose, map_eq_error_iff, htokens.splitOn, parseVlans_eq_error_iff]
  constructor
  · rintro ⟨before, token, behind, vlans, hsplit, hbefore, hnew, hlast⟩
    obtain ⟨before, rest, rfl, rfl, hrest⟩ := List.map_eq_append_iff.mp hsplit
    obtain ⟨token, behind, rfl, rfl, -⟩ := List.map_eq_cons_iff.mp hrest
    exact ⟨before, token, behind, vlans, rfl, hbefore, allNew_nil.mp hnew, hlast.mono (by simp)⟩
  · rintro ⟨before, token, behind, vlans, rfl, hbefore, hnodup, hlast⟩
    have hseen : vlans ⊆ vlans.reverse ++ [] := by simp
    exact ⟨_, _, behind.map String.toList, vlans, by simp, hbefore, allNew_nil.mpr hnodup, hlast.mono hseen⟩

/-- **Exactly the arguments of the grammar are accepted**, with the name and the mode that they give. A
list of VLANs in brackets is refused for its leftmost token at fault: one that spells no number, a
number out of range, or the number of a VLAN that a token in front of it has named. -/
theorem parse_accepts_grammar (harg : arg ≤ 65535) (s : String) :
    (∀ i, parse arg s = .ok i ↔ i.index.toNat = arg ∧ Describes s i.name i.mode) ∧
      ∀ name list, IsName name → list ≠ "" → ']' ∉ list.toList → s = name ++ "[T:" ++ list ++ "]" →
        ∃ tokens, Pieces list tokens ∧ ∀ e, parse arg s = .error e ↔ FirstOffence arg tokens e := by
  refine ⟨fun i => parse_eq_ok_iff, ?_⟩
  rintro name list hname hne hclose rfl
  obtain ⟨tokens, htokens⟩ := exists_pieces list
  exact ⟨tokens, htokens, fun e => parse_trunk_eq_error_iff harg hname hne hclose htokens⟩

theorem signed_list_is_accepted : 2 ≤ 65535 ∧
    parse 2 "b]é[T:+042,7]" = .ok ⟨2, "b]é", .trunk [42, 7]⟩ ∧
    Describes "b]é[T:+042,7]" "b]é" (.trunk [42, 7]) ∧
    parse 2 "up[T:7,x,7]" = .error (.notANumber 2 "x") ∧
    ∃ tokens, Pieces "7,x,7" tokens ∧ FirstOffence 2 tokens (.notANumber 2 "x") := by
  have harg : 2 ≤ 65535 := by decide
  have haccepted : parse 2 "b]é[T:+042,7]" = .ok ⟨2, "b]é", .trunk [42, 7]⟩ := rfl
  have hrefused : parse 2 "up[T:7,x,7]" = .error (.notANumber 2 "x") := rfl
  have hdescribes := ((parse_accepts_grammar harg "b]é[T:+042,7]").1 _).mp haccepted
  obtain ⟨tokens, htokens, hfirst⟩ := (parse_accepts_grammar harg "up[T:7,x,7]").2 "up" "7,x,7"
    ⟨by decide, by decide⟩ (by decide) (by decide) (by decide)
  exact ⟨harg, haccepted, hdescribes.2, hrefused, tokens, htokens, (hfirst _).mp hrefused⟩

end

end EtherBench.Interface
