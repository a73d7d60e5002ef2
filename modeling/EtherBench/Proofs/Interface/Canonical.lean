import EtherBench.Proofs.Interface.Grammar

/-!
# The canonical form of an interface

An interface is printed as an argument that describes it, and reading the
argument gives the interface back. What else describes it, with plus signs or
with zeros in front of its numbers, has the same canonical form.
-/

namespace EtherBench

inductive PortMode.WellFormed : PortMode → Prop
  | default : WellFormed (.access 0)
  | access {vlan : UInt16} (h : 1 ≤ vlan.toNat ∧ vlan.toNat ≤ 4092) : WellFormed (.access vlan)
  | trunk {vlans : List UInt16} (hne : vlans ≠ []) (hnodup : vlans.Nodup)
      (h : ∀ vlan ∈ vlans, 1 ≤ vlan.toNat ∧ vlan.toNat ≤ 4092) : WellFormed (.trunk vlans)

namespace Interface

def canonical (arg : Nat) (s : String) : Except InterfaceError String := (parse arg s).map text

section
variable {arg : Nat} {s t name : String} {i : Interface} {mode : PortMode}

theorem range_of_vlans {tokens : List (List Char)} {vlans : List UInt16} (h : List.Forall₂ IsVlan tokens vlans) :
    ∀ v ∈ vlans, 1 ≤ v.toNat ∧ v.toNat ≤ 4092 := by
  induction h with
  | nil => exact nofun
  | cons hv _ ih => exact List.forall_mem_cons.mpr ⟨hv.2, ih⟩

theorem Describes.wellFormed (h : Describes s name mode) : IsName name ∧ mode.WellFormed := by
  cases h with
  | plain hname => exact ⟨hname, .default⟩
  | access hname htoken => exact ⟨hname, .access htoken.2⟩
  | trunk hname hne htokens hnodup =>
    refine ⟨hname, .trunk ?_ hnodup (range_of_vlans htokens)⟩
    rintro rfl
    simp at htokens
    exact hne htokens

theorem vlan_toString {v : UInt16} (h : 1 ≤ v.toNat ∧ v.toNat ≤ 4092) : IsVlan (toString v).toList v :=
  ⟨Decimal.spells_toString v.toNat, h⟩

theorem modeText_access {v : UInt16} (h : 1 ≤ v.toNat) : modeText (.access v) = "[U:" ++ toString v ++ "]" := by
  have hv : v ≠ defaultVlan := by
    rintro rfl
    exact absurd h (by decide)
  simp only [modeText, if_neg hv]
  rfl

theorem modeText_trunk (vlans : List UInt16) :
    modeText (.trunk vlans) = "[T:" ++ ",".intercalate (vlans.map toString) ++ "]" := rfl

theorem describes_text (hname : IsName i.name) (hmode : i.mode.WellFormed) : Describes i.text i.name i.mode := by
  obtain ⟨index, name, mode⟩ := i
  unfold text
  cases hmode with
  | default =>
    have htext : name ++ modeText (.access 0) = name := String.append_empty
    rw [htext]
    exact .plain hname
  | access h =>
    rw [modeText_access h.1, ← String.append_assoc, ← String.append_assoc]
    exact .access hname (vlan_toString h)
  | @trunk vlans hne hnodup h =>
    have htokens : List.Forall₂ IsVlan ((vlans.map toString).map String.toList) vlans := by
      rw [List.forall₂_map_left_iff, List.forall₂_map_left_iff, List.forall₂_same]
      exact fun v hv => vlan_toString (h v hv)
    rw [modeText_trunk, ← String.append_assoc, ← String.append_assoc]
    exact .trunk hname (by simpa using hne) htokens hnodup

theorem parse_text (hname : IsName i.name) (hmode : i.mode.WellFormed) : parse i.index.toNat i.text = .ok i :=
  parse_eq_ok_iff.mpr ⟨rfl, describes_text hname hmode⟩

theorem parse_text_of_parse (h : parse arg s = .ok i) : parse arg i.text = .ok i := by
  obtain ⟨rfl, hs⟩ := parse_eq_ok_iff.mp h
  exact parse_text hs.wellFormed.1 hs.wellFormed.2

theorem canonical_canonical (arg : Nat) (s : String) : (canonical arg s).bind (canonical arg) = canonical arg s := by
  unfold canonical
  cases h : parse arg s with
  | error e => rfl
  | ok i =>
    show (parse arg i.text).map text = .ok i.text
    rw [parse_text_of_parse h]
    rfl

/-- **Printing and reading are inverse.** Every interface that an argument can describe comes back from
its canonical form. What is accepted describes such an interface, and to bring it into canonical form
changes neither the interface nor, a second time, the text. -/
theorem parse_inverts_text :
    (∀ i : Interface, IsName i.name → i.mode.WellFormed → parse i.index.toNat i.text = .ok i) ∧
      (∀ arg s i, parse arg s = .ok i →
        i.index.toNat = arg ∧ IsName i.name ∧ i.mode.WellFormed ∧ parse arg i.text = .ok i) ∧
      ∀ arg s, (canonical arg s).bind (canonical arg) = canonical arg s := by
  refine ⟨fun i hname hmode => parse_text hname hmode, fun arg s i h => ?_, canonical_canonical⟩
  have hwell := (parse_eq_ok_iff.mp h).2.wellFormed
  exact ⟨toNat_index_of_parse h, hwell.1, hwell.2, parse_text_of_parse h⟩

theorem padded_list_comes_back :
    IsName "b]é" ∧ PortMode.WellFormed (.trunk [4092, 7]) ∧
      parse 3 (Interface.text ⟨3, "b]é", .trunk [4092, 7]⟩) = .ok ⟨3, "b]é", .trunk [4092, 7]⟩ ∧
      parse 3 "b]é[T:+4092,007]" = .ok ⟨3, "b]é", .trunk [4092, 7]⟩ ∧
      canonical 3 "b]é[T:+4092,007]" = .ok "b]é[T:4092,7]" ∧
      (canonical 3 "b]é[T:+4092,007]").bind (canonical 3) = .ok "b]é[T:4092,7]" := by
  have haccepted : parse 3 "b]é[T:+4092,007]" = .ok ⟨3, "b]é", .trunk [4092, 7]⟩ := rfl
  have hcanonical : canonical 3 "b]é[T:+4092,007]" = .ok "b]é[T:4092,7]" := by decide
  obtain ⟨hinverse, hread, hagain⟩ := parse_inverts_text
  obtain ⟨-, hname, hmode, -⟩ := hread 3 _ _ haccepted
  exact ⟨hname, hmode, hinverse ⟨3, "b]é", .trunk [4092, 7]⟩ hname hmode, haccepted, hcanonical,
    (hagain 3 _).trans hcanonical⟩

end

end Interface

end EtherBench
