import EtherBench.Proofs.Hub.Echo
import EtherBench.Proofs.Switch.Delivery
import Mathlib.Data.List.Sort

/-!
# A flooding switch is a hub

Where all interfaces are access interfaces of one VLAN, every other interface
gets a frame that is flooded, and gets it as it is. These are the messages of a
hub, and they go out in the same order, so the two cannot be told apart by what
they write, nor by where a failing stream stops them.
-/

namespace EtherBench.Switch

/-- Interfaces are numbered by their places, and are access interfaces of one VLAN. -/
structure Undivided (vlan : UInt16) (s : Switch) : Prop where
  index : ∀ k p, s.ports[k]? = some p → p.interface.index.toNat = k + 1
  mode : ∀ p ∈ s.ports, p.interface.mode = .access vlan

def asHub (s : Switch) : Hub := ⟨s.count⟩

section
variable {s s₀ : Switch} {vlan ingress q : UInt16} {frame copy : Bytes}

theorem Undivided.of_interfaces (h : s₀.Undivided vlan)
    (hp : s.ports.map (·.interface) = s₀.ports.map (·.interface)) : s.Undivided vlan := by
  refine ⟨fun k p hk => ?_, fun p hmem => ?_⟩
  · obtain ⟨p₀, hk₀, he⟩ := exists_of_map_eq hp hk
    rw [he]
    exact h.index k p₀ hk₀
  · obtain ⟨k, hk⟩ := List.mem_iff_getElem?.mp hmem
    obtain ⟨p₀, hk₀, he⟩ := exists_of_map_eq hp hk
    rw [he]
    exact h.mode p₀ (List.mem_of_getElem? hk₀)

theorem Undivided.after (h : s.Undivided vlan) (events : List Event) (out : Sink) :
    (after events (s, out)).1.Undivided vlan :=
  h.of_interfaces (interfaces_after events out)

theorem ofCount_length_ports (s : Switch) : Hub.ofCount s.ports.length = .ok s.asHub := by
  rw [Hub.ofCount, checkedCount, if_neg (Nat.not_lt.mpr s.length_ports)]
  rfl

theorem gets_access_iff (ht : ¬ Frame.IsTagged frame) :
    Gets frame (.access vlan) (.access vlan) copy ↔ copy = frame := by
  constructor
  · intro h
    cases h
    rfl
  · rintro rfl
    exact .kept ht

theorem Undivided.mem_sentTo (h : s.Undivided vlan) (hlo : 1 ≤ ingress.toNat) (hlen : 14 ≤ frame.length)
    (ht : ¬ Frame.IsTagged frame) :
    ⟨q, copy⟩ ∈ (s.ports.eraseIdx (ingress.toNat - 1)).filterMap (sentTo (.access vlan) frame) ↔
      ⟨q, copy⟩ ∈ (s.asHub.others ingress).map (⟨·, frame⟩ : UInt16 → Message) := by
  have hcount : s.asHub.count.toNat = s.ports.length := s.toNat_count
  rw [mem_sentTo_iff h.index hlen, List.mem_map]
  constructor
  · rintro ⟨k, p, hk, hne, hq, hgets⟩
    rw [h.mode p (List.mem_of_getElem? hk), gets_access_iff ht] at hgets
    have hlt := (List.getElem?_eq_some_iff.mp hk).1
    refine ⟨q, Hub.mem_others.mpr ⟨?_, ?_, ?_⟩, by rw [hgets]⟩
    · rw [UInt16.le_iff_toNat_le, hq]
      exact Nat.le_add_left 1 k
    · rw [UInt16.le_iff_toNat_le, hcount, hq]
      exact hlt
    · rintro rfl
      omega
  · rintro ⟨i, hi, he⟩
    obtain ⟨rfl, rfl⟩ := Message.mk.inj he
    obtain ⟨hfirst, hlast, hne⟩ := Hub.mem_others.mp hi
    have hfirst : 1 ≤ i.toNat := hfirst
    rw [UInt16.le_iff_toNat_le, hcount] at hlast
    have hlt : i.toNat - 1 < s.ports.length := by omega
    refine ⟨i.toNat - 1, s.ports[i.toNat - 1], List.getElem?_eq_getElem hlt, ?_, by omega, ?_⟩
    · intro hsame
      refine hne (UInt16.toNat_inj.mp ?_)
      omega
    · rw [h.mode _ (List.getElem_mem hlt), gets_access_iff ht]

/-- **The copies of a flood are the messages of a hub.** -/
theorem Undivided.copies_floodPlan (h : s.Undivided vlan) (hlo : 1 ≤ ingress.toNat)
    (hhi : ingress.toNat ≤ s.ports.length) (hlen : 14 ≤ frame.length) (ht : ¬ Frame.IsTagged frame) :
    copies (s.floodPlan (ingress.toNat - 1) frame) frame = (s.asHub.others ingress).map (⟨·, frame⟩) := by
  have hlt : ingress.toNat - 1 < s.ports.length := by omega
  rw [Switch.copies_floodPlan (List.getElem?_eq_getElem hlt), h.mode _ (List.getElem_mem hlt)]
  -- both lists ascend, and a list that ascends is told by its members
  have hflood : ((s.ports.eraseIdx (ingress.toNat - 1)).filterMap (sentTo (.access vlan) frame)).Pairwise
      (·.kind < ·.kind) := pairwise_sentTo h.index hlen
  have hhub : ((s.asHub.others ingress).map (⟨·, frame⟩ : UInt16 → Message)).Pairwise (·.kind < ·.kind) :=
    List.pairwise_map.mpr (s.asHub.pairwise_others ingress)
  have : Std.Asymm fun m m' : Message => m.kind < m'.kind := ⟨fun _ _ => UInt16.lt_asymm⟩
  exact hflood.eq_of_mem_iff hhub fun m => h.mem_sentTo hlo hlen ht

/-- **Without VLANs a flooding switch is a hub.** Whatever it has been through, it writes a frame that it
floods to any stream as a hub with as many interfaces does, and with the same result: the frame as it is,
for every other interface, in ascending order. A stream that takes everything takes it all. -/
theorem flooding_switch_is_hub (h : s₀.Undivided vlan) {events : List Event} {out₀ : Sink}
    (hr : (after events (s₀, out₀)).1 = s) (hlo : 1 ≤ ingress)
    (hhi : ingress.toNat ≤ s₀.ports.length) (hlen : 14 ≤ frame.length)
    (hmax : frame.length ≤ Message.maxPayload) {src dst : MacAddress}
    (hsrc : Frame.source frame = some src) (hu : src.isUnicast)
    (htype : Frame.etherType frame ≠ some 0x8100) (hdst : Frame.destination frame = some dst)
    (hflood : dst.isMulticast ∨ ((s.table.getD .empty).learn src ingress).2.lookup dst = none) :
    ∃ hub s', ∃ egresses : List UInt16, Hub.ofCount s₀.ports.length = .ok hub ∧
      egresses.Pairwise (· < ·) ∧
      (∀ q, q ∈ egresses ↔ 1 ≤ q ∧ q.toNat ≤ s₀.ports.length ∧ q ≠ ingress) ∧
      ∀ out, ∃ result out',
        Tool.handler react (.frame ingress frame) (s, out) = (result, s', out') ∧
        Tool.handler Hub.react (.frame ingress frame) (hub, out) = (result, hub, out') ∧
        (out.Accepting → result = .ok () ∧ out'.data.toList =
          out.data.toList ++ (egresses.map (⟨·, frame⟩)).flatMap Message.toBytes) := by
  have hs : s.Undivided vlan := hr ▸ h.after events out₀
  have hports : s.ports.length = s₀.ports.length :=
    length_eq_of_map_eq (hr ▸ interfaces_after events out₀)
  have hcount : s.asHub.count.toNat = s.ports.length := s.toNat_count
  have hne : ingress ≠ 0 := by
    rintro rfl
    exact absurd hlo (by decide)
  have ht : ¬ Frame.IsTagged frame := mt (Frame.isTagged_iff hlen).mp htype
  have hflood : dst.isUnicast = false ∨ ((s.table.getD .empty).learn src ingress).2.lookup dst = none :=
    hflood.imp_left fun hgroup => by rw [MacAddress.isUnicast, hgroup]; rfl
  rw [← hports] at hhi ⊢
  obtain ⟨s', hswitch⟩ := react_frame ⟨hne, hhi⟩
  rw [route_of_unknown hlen hsrc hu hdst hflood, hs.copies_floodPlan hlo hhi hlen ht] at hswitch
  have hhub := Hub.react_frame (h := s.asHub) hlo (by rwa [UInt16.le_iff_toNat_le, hcount]) frame
  rw [if_neg (by rw [List.isEmpty_iff]; rintro rfl; cases hlen)] at hhub
  refine ⟨s.asHub, s', s.asHub.others ingress, s.ofCount_length_ports, s.asHub.pairwise_others ingress, ?_, ?_⟩
  · intro q
    rw [Hub.mem_others, UInt16.le_iff_toNat_le (b := s.asHub.count), hcount]
  · intro out
    refine ⟨_, _, Tool.handler_of_ok hswitch out, Tool.handler_of_ok hhub out, fun ho => ?_⟩
    exact ho.sendEach (Hub.fits_of_mem_relayed hmax _)

def trio : Switch :=
  { ports := [⟨.plain 1 "left", none⟩, ⟨.plain 2 "middle", none⟩, ⟨.plain 3 "right", none⟩],
    length_ports := by decide }

theorem undivided_trio : trio.Undivided 0 := by
  refine ⟨fun k p hk => ?_, by decide⟩
  match k, hk with
  | 0, hk | 1, hk | 2, hk =>
    cases hk
    rfl

theorem trio_is_hub :
    ∃ s', (∀ out, ∃ result out',
        Tool.handler react (.frame 1 (greet (station 9) (station 1)))
          ((after [.frame 2 (greet .broadcast (station 2))] (trio, {})).1, out) = (result, s', out') ∧
        Tool.handler Hub.react (.frame 1 (greet (station 9) (station 1))) (⟨3⟩, out) =
          (result, ⟨3⟩, out') ∧
        (out.Accepting → result = .ok ())) ∧
      (Tool.handler react (.frame 1 (greet (station 9) (station 1)))
          ((after [.frame 2 (greet .broadcast (station 2))] (trio, {})).1, {})).2.2.data.toList =
        Message.toBytes ⟨2, greet (station 9) (station 1)⟩ ++
          Message.toBytes ⟨3, greet (station 9) (station 1)⟩ := by
  have hr : (after [.frame 2 (greet .broadcast (station 2))] (trio, {})).1 = _ := rfl
  have hlo : (1 : UInt16) ≤ 1 := UInt16.le_refl 1
  have hsrc : Frame.source (greet (station 9) (station 1)) = some (station 1) := rfl
  have hdst : Frame.destination (greet (station 9) (station 1)) = some (station 9) := rfl
  obtain ⟨hub, s', _, hhub, _, _, hsame⟩ := flooding_switch_is_hub undivided_trio hr hlo (by decide)
    (by decide) (by decide) hsrc (by decide) (by decide) hdst (.inr (by decide))
  obtain rfl : ⟨3⟩ = hub := Except.ok.inj hhub
  refine ⟨s', fun out => ?_, rfl⟩
  obtain ⟨result, out', hswitch, hhub, hok⟩ := hsame out
  exact ⟨result, out', hswitch, hhub, fun ho => (hok ho).1⟩

end

end EtherBench.Switch
