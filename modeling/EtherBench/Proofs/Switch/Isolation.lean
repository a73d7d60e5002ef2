import EtherBench.Proofs.Interface.Parse
import EtherBench.Proofs.Switch.Forwarding

/-!
# Flooding and VLANs

Every interface that a frame is flooded to carries the VLAN of the frame. An
untagged frame has the VLAN of the access interface that it comes in by. A tagged
frame names its VLAN itself and needs only some trunk to come in by: the list of
that trunk is not asked.
-/

namespace EtherBench.Switch

section
variable {s : Switch} {slot : Nat} {frame : Bytes} {q : UInt16} {change : TagChange}

theorem interfaces_of_react {e : Event} {ms : List Message} {s' : Switch}
    (h : Switch.react e s = .ok (ms, s')) : s'.ports.map (·.interface) = s.ports.map (·.interface) := by
  cases e with
  | control text =>
    have h : s = s' := congrArg Prod.snd (Except.ok.inj h)
    rw [h]
  | roster i address =>
    have h : (s.enroll i address).map ([], ·) = .ok (ms, s') := h
    unfold enroll at h
    split at h
    · cases h
    · have h := congrArg Prod.snd (Except.ok.inj h)
      simp only at h
      rw [← h]
      exact map_modify_of_eq (f := SwitchPort.interface) (g := fun p => { p with address := some address })
        (fun _ => rfl) s.ports _
  | frame i b =>
    have h : s.forward i b = .ok (ms, s') := h
    unfold forward at h
    split at h
    · cases h
    · simp only at h
      split at h
      · split at h
        · cases h
          rfl
        · cases h
          rfl
      · cases h
        rfl

theorem interfaces_after (events : List Event) (out : Sink) :
    (after events (s, out)).1.ports.map (·.interface) = s.ports.map (·.interface) := by
  induction events generalizing s out with
  | nil => rfl
  | cons e events ih =>
    have hstep : ((Tool.handler Switch.react e (s, out)).2).1.ports.map (·.interface) =
        s.ports.map (·.interface) := by
      cases hr : Switch.react e s with
      | error err =>
        show ((Tool.answer (Switch.react e s) s out).2).1.ports.map (·.interface) = _
        rw [hr]
        rfl
      | ok answer =>
        rw [handler_of_react hr]
        exact interfaces_of_react hr
    exact (ih _).trans hstep

theorem tag_eq_none (h : Frame.etherType frame ≠ some Tag.dot1q) : Frame.tag frame = none := by
  unfold Frame.etherType at h
  unfold Frame.tag
  split
  · rename_i a b c d rest hd
    rw [hd] at h
    refine if_neg fun hab => h ?_
    exact congrArg some hab
  · rfl

theorem exists_egress {f : SwitchPort → Option (UInt16 × TagChange)}
    (h : (q, change) ∈ (s.ports.eraseIdx slot).filterMap f) :
    ∃ j egress, j ≠ slot ∧ s.ports[j]? = some egress ∧ f egress = some (q, change) := by
  obtain ⟨egress, hmem, hf⟩ := List.mem_filterMap.mp h
  obtain ⟨j, hj⟩ := List.mem_iff_getElem?.mp hmem
  rw [List.getElem?_eraseIdx] at hj
  split at hj
  · rename_i hlt
    exact ⟨j, egress, Nat.ne_of_lt hlt, hj, hf⟩
  · rename_i hge
    exact ⟨j + 1, egress, by omega, hj, hf⟩

theorem carries_of_taggedCopy {vlan : UInt16} {p : SwitchPort} (h : taggedCopy vlan p = some (q, change)) :
    p.interface.index = q ∧ p.interface.mode.carries vlan = true := by
  unfold taggedCopy at h
  split at h
  · rename_i hc
    refine ⟨?_, hc⟩
    split at h
    · cases h
      rfl
    · cases h
      rfl
  · cases h

theorem carries_of_untaggedCopy {vlan : UInt16} {p : SwitchPort} (h : untaggedCopy vlan p = some (q, change)) :
    p.interface.index = q ∧ p.interface.mode.carries vlan = true := by
  unfold untaggedCopy at h
  split at h
  · rename_i vlans hm
    split at h
    · rename_i hhead
      cases h
      refine ⟨rfl, ?_⟩
      rw [hm]
      exact List.contains_iff_mem.mpr (List.mem_of_head? hhead)
    · cases h
  · rename_i native hm
    split at h
    · rename_i hn
      cases h
      refine ⟨rfl, ?_⟩
      rw [hm]
      exact beq_iff_eq.mpr hn
    · cases h

theorem mem_floodPlan (h : (q, change) ∈ s.floodPlan slot frame) :
    ∃ ingress j egress, s.ports[slot]? = some ingress ∧ j ≠ slot ∧ s.ports[j]? = some egress ∧
      egress.interface.index = q ∧
      (Frame.tag frame = none → ∃ vlan, ingress.interface.mode = .access vlan ∧
        egress.interface.mode.carries vlan = true) ∧
      ∀ tag, Frame.tag frame = some tag →
        (∃ vlans, ingress.interface.mode = .trunk vlans) ∧
          egress.interface.mode.carries tag.vlan = true := by
  unfold floodPlan at h
  cases hs : s.ports[slot]? with
  | none =>
    rw [hs] at h
    cases h
  | some ingress =>
    rw [hs] at h
    simp only at h
    split at h
    · split at h
      · rename_i vlans tag hm ht
        split at h
        · cases h
        · obtain ⟨j, egress, hj, hegress, hf⟩ := exists_egress h
          obtain ⟨hindex, hc⟩ := carries_of_taggedCopy hf
          refine ⟨ingress, j, egress, rfl, hj, hegress, hindex, ?_, ?_⟩
          · intro hnone
            rw [ht] at hnone
            cases hnone
          · intro tag' ht'
            rw [ht] at ht'
            cases ht'
            exact ⟨⟨vlans, hm⟩, hc⟩
      · cases h
    · rename_i hplain
      have htag := tag_eq_none hplain
      split at h
      · rename_i vlan hm
        obtain ⟨j, egress, hj, hegress, hf⟩ := exists_egress h
        obtain ⟨hindex, hc⟩ := carries_of_untaggedCopy hf
        refine ⟨ingress, j, egress, rfl, hj, hegress, hindex, fun _ => ⟨vlan, hm, hc⟩, ?_⟩
        intro tag ht
        rw [htag] at ht
        cases ht
      · cases h

theorem ports_of_ofInterfaces {interfaces : List Interface} (h : ofInterfaces interfaces = .ok s) :
    s.ports.map (·.interface) = interfaces := by
  unfold ofInterfaces at h
  split at h
  · injection h with h
    rw [← h, List.map_map]
    exact List.map_id _
  · cases h

theorem index_of_built {args : List String} {interfaces : List Interface} {k : Nat} {p : SwitchPort}
    (hp : Interface.parseAll args = .ok interfaces) (hports : s.ports.map (·.interface) = interfaces)
    (hk : s.ports[k]? = some p) : interfaces[k]? = some p.interface ∧ p.interface.index.toNat = k + 1 := by
  have hinterface : interfaces[k]? = some p.interface := by
    rw [← hports, List.getElem?_map, hk, Option.map_some]
  have hlt := (List.getElem?_eq_some_iff.mp hk).1
  have hmax := s.length_ports
  simp only [Message.maxInterfaces, Message.maxPayload, Message.maxSize, Message.headerSize] at hmax
  refine ⟨hinterface, ?_⟩
  rw [Interface.index_of_parseAll hp hinterface, UInt16.toNat_ofNat']
  omega

/-- **A flood stays in its VLAN.** Every interface that a frame is flooded to is another one than it
came in by and carries the frame's VLAN: the one of the access interface that an untagged frame came
in by, the one that a tagged frame names. A tagged frame has come in by a trunk, whatever VLANs are
on the list of that trunk. -/
theorem flood_stays_in_vlan {args : List String} {interfaces : List Interface} {s₀ : Switch}
    (hp : Interface.parseAll args = .ok interfaces) (hs : ofInterfaces interfaces = .ok s₀)
    {events : List Event} {out : Sink} (hr : (after events (s₀, out)).1 = s)
    (hq : (q, change) ∈ s.floodPlan slot frame) :
    ∃ ingress egress, s.ports[slot]? = some ingress ∧ s.ports[q.toNat - 1]? = some egress ∧
      q.toNat - 1 ≠ slot ∧ q ≠ 0 ∧
      (Frame.tag frame = none → ∃ vlan, ingress.interface.mode = .access vlan ∧
        egress.interface.mode.carries vlan = true) ∧
      ∀ tag, Frame.tag frame = some tag →
        (∃ vlans, ingress.interface.mode = .trunk vlans) ∧
          egress.interface.mode.carries tag.vlan = true := by
  obtain ⟨ingress, j, egress, hin, hj, hegress, hindex, huntagged, htagged⟩ := mem_floodPlan hq
  have hports : s.ports.map (·.interface) = interfaces := by
    rw [← hr, interfaces_after, ports_of_ofInterfaces hs]
  have hinterface : interfaces[j]? = some egress.interface := by
    rw [← hports, List.getElem?_map, hegress]
    rfl
  have hnumber : q.toNat = j + 1 := by
    have hlt := (List.getElem?_eq_some_iff.mp hegress).1
    have hmax := s.length_ports
    simp only [Message.maxInterfaces, Message.maxPayload, Message.maxSize, Message.headerSize] at hmax
    rw [← hindex, Interface.index_of_parseAll hp hinterface, UInt16.toNat_ofNat']
    omega
  have hplace : q.toNat - 1 = j := by omega
  refine ⟨ingress, egress, hin, ?_, ?_, ?_, huntagged, htagged⟩
  · rw [hplace]
    exact hegress
  · rw [hplace]
    exact hj
  · intro hzero
    rw [hzero] at hnumber
    cases hnumber

def strangers : Switch :=
  { ports := [⟨⟨1, "a", .trunk [1]⟩, none⟩, ⟨⟨2, "b", .trunk [2]⟩, none⟩], length_ports := by decide }

def broadcastInTwo : Bytes :=
  MacAddress.broadcast.toBytes ++ (station 1).toBytes ++ [0x81, 0, 0, 2, 8, 0]

theorem broadcast_reaches_vlan_two :
    Interface.parseAll ["a[T:1]", "b[T:2]"] = .ok (strangers.ports.map (·.interface)) ∧
      ofInterfaces (strangers.ports.map (·.interface)) = .ok strangers ∧
      (2, TagChange.keep) ∈
        (after [.roster 1 (station 1)] (strangers, {})).1.floodPlan 0 broadcastInTwo ∧
      ∃ egress, (after [.roster 1 (station 1)] (strangers, {})).1.ports[1]? = some egress ∧
        egress.interface.mode.carries 2 = true := by
  have hp : Interface.parseAll ["a[T:1]", "b[T:2]"] = .ok (strangers.ports.map (·.interface)) := rfl
  have hs : ofInterfaces (strangers.ports.map (·.interface)) = .ok strangers := rfl
  have hq : (2, TagChange.keep) ∈
      (after [.roster 1 (station 1)] (strangers, {})).1.floodPlan 0 broadcastInTwo := by decide
  obtain ⟨_, egress, _, hegress, _, _, _, htagged⟩ := flood_stays_in_vlan hp hs rfl hq
  exact ⟨hp, hs, hq, egress, hegress, (htagged ⟨Tag.dot1q, 2⟩ (by decide)).2⟩

/-- A trunk lets in frames of a VLAN that is not on its list, and they are flooded. -/
theorem trunk_floods_vlan_of_others :
    ∃ ingress tag, Interface.parseAll ["a[T:1]", "b[T:2]"] = .ok (strangers.ports.map (·.interface)) ∧
      ofInterfaces (strangers.ports.map (·.interface)) = .ok strangers ∧
      (2, TagChange.keep) ∈ strangers.floodPlan 0 broadcastInTwo ∧
      strangers.ports[0]? = some ingress ∧ Frame.tag broadcastInTwo = some tag ∧
      ingress.interface.mode.carries tag.vlan = false :=
  ⟨⟨⟨1, "a", .trunk [1]⟩, none⟩, ⟨Tag.dot1q, 2⟩, rfl, rfl, by decide, rfl, by decide, by decide⟩

end

end EtherBench.Switch
