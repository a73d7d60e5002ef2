import EtherBench.Proofs.Interface.Arguments
import EtherBench.Proofs.Switch.Forwarding

/-!
# Setting up a switch

A switch is set up from a list of arguments, of which one roster can tell the
addresses. Its interfaces are numbered by the positions of their arguments.
-/

namespace EtherBench

namespace Switch

theorem ofInterfaces_of_parseAll {args : List String} {interfaces : List Interface}
    (h : Interface.parseAll args = .ok interfaces) :
    ∃ s, ofInterfaces interfaces = .ok s ∧ s.count.toNat = args.length := by
  obtain ⟨hlen, hmax⟩ := Interface.length_of_parseAll h
  rw [← hlen] at hmax ⊢
  refine ⟨_, dif_pos hmax, ?_⟩
  rw [toNat_count, List.length_map]

end Switch

namespace Interface

theorem interface_at {args : List String} {interfaces : List Interface} (h : parseAll args = .ok interfaces)
    {k : Nat} {s : String} (hk : args[k]? = some s) :
    ∃ i, interfaces[k]? = some i ∧ parse (k + 1) s = .ok i ∧ i.index.toNat = k + 1 ∧ i.mode.WellFormed := by
  obtain ⟨i, hi, hparse⟩ := getElem?_of_parseAll h hk
  obtain ⟨hindex, hdescribes⟩ := parse_eq_ok_iff.mp hparse
  exact ⟨i, hi, hparse, hindex, hdescribes.wellFormed.2⟩

/-- **All arguments are accepted or none is.** They are if each of them is on its own and one roster can
list as many; each interface is then the one of the argument at its position, and they make a switch.
If there are too many, that is the error whatever they are. Otherwise it is the error of the first of
them that is at fault, with its position. -/
theorem all_arguments_or_none (args : List String) :
    ((∃ interfaces, parseAll args = .ok interfaces) ↔
      args.length ≤ 10921 ∧ ∀ s ∈ args, ∃ i, parse 1 s = .ok i) ∧
    (∀ interfaces, parseAll args = .ok interfaces →
      interfaces.length = args.length ∧
      (∀ k s, args[k]? = some s → ∃ i, interfaces[k]? = some i ∧ parse (k + 1) s = .ok i ∧
        i.index.toNat = k + 1 ∧ i.mode.WellFormed) ∧
      ∃ s, Switch.ofInterfaces interfaces = .ok s ∧ s.count.toNat = args.length) ∧
    (10921 < args.length → parseAll args = .error (.tooManyInterfaces args.length 10921)) ∧
    (args.length ≤ 10921 → ∀ e, parseAll args = .error e ↔
      ∃ k s, args[k]? = some s ∧ parse (k + 1) s = .error e ∧ e.position? = some (k + 1) ∧
        ∀ j t, j < k → args[j]? = some t → ∃ i, parse (j + 1) t = .ok i) := by
  refine ⟨exists_parseAll_iff, fun interfaces h => ?_, parseAll_of_lt, fun hle e => parseAll_eq_error_iff hle⟩
  exact ⟨(length_of_parseAll h).1, fun k s => interface_at h, Switch.ofInterfaces_of_parseAll h⟩

theorem third_argument_decides :
    parseAll ["up[T:7,+8]", "left"] = .ok [⟨1, "up", .trunk [7, 8]⟩, ⟨2, "left", .access 0⟩] ∧
      (∃ s, Switch.ofInterfaces [⟨1, "up", .trunk [7, 8]⟩, ⟨2, "left", .access 0⟩] = .ok s ∧ s.count.toNat = 2) ∧
      10921 < (List.replicate 10922 "[T:1]").length ∧
      parseAll (List.replicate 10922 "[T:1]") = .error (.tooManyInterfaces 10922 10921) ∧
      ["up[T:7,+8]", "left", "right[U:0]", "[T:1]"].length ≤ 10921 ∧
      parseAll ["up[T:7,+8]", "left", "right[U:0]", "[T:1]"] = .error (.vlanOutOfRange 3 0 1 4092) := by
  have haccepted : parseAll ["up[T:7,+8]", "left"] =
      .ok [⟨1, "up", .trunk [7, 8]⟩, ⟨2, "left", .access 0⟩] := rfl
  have hmany : 10921 < (List.replicate 10922 "[T:1]").length := by
    rw [List.length_replicate]
    decide
  have hfew : ["up[T:7,+8]", "left", "right[U:0]", "[T:1]"].length ≤ 10921 := by decide
  have hswitch := ((all_arguments_or_none _).2.1 _ haccepted).2.2
  have htooMany := (all_arguments_or_none _).2.2.1 hmany
  rw [List.length_replicate] at htooMany
  refine ⟨haccepted, hswitch, hmany, htooMany, hfew, ((all_arguments_or_none _).2.2.2 hfew _).mpr ?_⟩
  refine ⟨2, "right[U:0]", rfl, rfl, rfl, fun j t hj ht => ?_⟩
  match j, hj with
  | 0, _ =>
    cases ht
    exact ⟨⟨1, "up", .trunk [7, 8]⟩, rfl⟩
  | 1, _ =>
    cases ht
    exact ⟨⟨2, "left", .access 0⟩, rfl⟩

end Interface

end EtherBench
