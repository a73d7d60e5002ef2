import EtherBench.Proofs.Switch.Copies

/-!
# Who gets what of a frame that is flooded

What an interface gets is said here by the octets of the frame and by two modes,
that of the interface by which the frame came in and its own. A flood gives it to
every other interface, in their order, and gives nothing else.
-/

namespace EtherBench

namespace Frame

/-- The octets behind the addresses mark an 802.1Q tag. -/
def IsTagged (frame : Bytes) : Prop := (frame.drop 12).take 2 = [0x81, 0]

/-- The low twelve bits of the two octets behind the mark. -/
def vlanId (frame : Bytes) : Nat :=
  match frame.drop 14 with
  | a :: b :: _ => a.toNat % 16 * 256 + b.toNat
  | _ => 0

end Frame

namespace Switch

/-- The copy that an interface of the second mode gets of a frame that came in by one of the first. -/
inductive Gets (frame : Bytes) : PortMode → PortMode → Bytes → Prop
  | passed {vlans vlans' : List UInt16} {id : UInt16} (tagged : Frame.IsTagged frame)
      (long : 18 ≤ frame.length) (vlan : id.toNat = Frame.vlanId frame) (listed : id ∈ vlans') :
      Gets frame (.trunk vlans) (.trunk vlans') frame
  | stripped {vlans : List UInt16} {id : UInt16} (tagged : Frame.IsTagged frame)
      (long : 18 ≤ frame.length) (vlan : id.toNat = Frame.vlanId frame) :
      Gets frame (.trunk vlans) (.access id) (frame.take 12 ++ frame.drop 16)
  | kept {vlan : UInt16} (untagged : ¬ Frame.IsTagged frame) :
      Gets frame (.access vlan) (.access vlan) frame
  | inserted {vlan : UInt16} {vlans : List UInt16} (untagged : ¬ Frame.IsTagged frame) :
      Gets frame (.access vlan) (.trunk (vlan :: vlans)) (frame.take 12 ++ [0x81, 0, 0, 1] ++ frame.drop 12)

end Switch

section
variable {frame : Bytes}

theorem exists_drop_offset (h : 14 ≤ frame.length) : ∃ a b rest, frame.drop 12 = a :: b :: rest := by
  have hlen : 2 ≤ (frame.drop 12).length := by
    rw [List.length_drop]
    omega
  match hd : frame.drop 12 with
  | [] | [_] => simp [hd] at hlen
  | a :: b :: rest => exact ⟨a, b, rest, rfl⟩

theorem toWord_eq_dot1q_iff (a b : UInt8) : Bytes.toWord a b = Tag.dot1q ↔ a = 0x81 ∧ b = 0 := by
  constructor
  · intro h
    have hmark : Bytes.ofWord Tag.dot1q = [0x81, 0] := rfl
    have hbytes := Bytes.ofWord_toWord a b
    rw [h, hmark] at hbytes
    simpa [eq_comm] using hbytes
  · rintro ⟨rfl, rfl⟩
    rfl

theorem Frame.isTagged_iff (h : 14 ≤ frame.length) :
    Frame.IsTagged frame ↔ Frame.etherType frame = some Tag.dot1q := by
  obtain ⟨a, b, rest, hd⟩ := exists_drop_offset h
  have htype : Frame.etherType frame = some (Bytes.toWord a b) := by
    simp only [Frame.etherType, Tag.offset, hd]
  rw [htype, Option.some.injEq, toWord_eq_dot1q_iff, Frame.IsTagged, hd]
  simp

theorem toNat_vlan (t : Tag) : t.vlan.toNat = t.tci.toNat % 4096 := by
  rw [Tag.vlan, UInt16.toNat_and]
  exact Nat.and_two_pow_sub_one_eq_mod t.tci.toNat 12

theorem Frame.exists_tag (ht : Frame.IsTagged frame) (h : 18 ≤ frame.length) :
    ∃ t, Frame.tag frame = some t ∧ t.vlan.toNat = Frame.vlanId frame := by
  have hlen : 14 ≤ frame.length := by omega
  obtain ⟨a, b, rest, hd⟩ := exists_drop_offset hlen
  -- the number stands behind the mark
  have hrest : rest = frame.drop 14 := by
    rw [← List.drop_drop (i := 2) (j := 12), hd]
    rfl
  have hmark : Bytes.toWord a b = Tag.dot1q := by
    rw [Frame.IsTagged, hd] at ht
    simpa [toWord_eq_dot1q_iff] using ht
  have hmore : 4 ≤ rest.length := by
    rw [hrest, List.length_drop]
    omega
  match rest with
  | [] | [_] => simp at hmore
  | c :: d :: rest =>
    refine ⟨⟨Bytes.toWord a b, Bytes.toWord c d⟩, ?_, ?_⟩
    · simp only [Frame.tag, Tag.offset, hd]
      exact if_pos hmark
    · have hd : d.toNat < 256 := d.toNat_lt
      rw [toNat_vlan, Bytes.toNat_toWord, Frame.vlanId, ← hrest]
      simp only
      omega

end

namespace Switch

def planned (mode : PortMode) (frame : Bytes) (p : SwitchPort) : Option (UInt16 × TagChange) :=
  if Frame.etherType frame = some Tag.dot1q then
    match mode, Frame.tag frame with
    | .trunk _, some tag =>
      if frame.length < Frame.headerSize + Tag.size then none else taggedCopy tag.vlan p
    | _, _ => none
  else
    match mode with
    | .access native => untaggedCopy native p
    | .trunk _ => none

def sentTo (mode : PortMode) (frame : Bytes) (p : SwitchPort) : Option Message :=
  (planned mode frame p).bind fun (egress, change) => (change.apply frame).map (⟨egress, ·⟩)

section
variable {s : Switch} {slot : Nat} {p : SwitchPort} {frame copy : Bytes} {q : UInt16}
  {mode egress : PortMode}

theorem floodPlan_eq (h : s.ports[slot]? = some p) (frame : Bytes) :
    s.floodPlan slot frame = (s.ports.eraseIdx slot).filterMap (planned p.interface.mode frame) := by
  unfold floodPlan planned
  rw [h]
  simp only
  split
  · cases p.interface.mode with
    | access _ => simp
    | trunk _ =>
      cases Frame.tag frame with
      | none => simp
      | some tag =>
        simp only
        split
        · simp
        · rfl
  · cases p.interface.mode with
    | access _ => rfl
    | trunk _ => simp

theorem copies_floodPlan (h : s.ports[slot]? = some p) (frame : Bytes) :
    copies (s.floodPlan slot frame) frame =
      (s.ports.eraseIdx slot).filterMap (sentTo p.interface.mode frame) := by
  rw [floodPlan_eq h, copies, List.filterMap_filterMap]
  rfl

theorem planned_of_untagged (hlen : 14 ≤ frame.length) (h : ¬ Frame.IsTagged frame) (vlan : UInt16) :
    planned (.access vlan) frame p = untaggedCopy vlan p := by
  rw [Frame.isTagged_iff hlen] at h
  exact if_neg h

theorem planned_of_tagged (hlong : 18 ≤ frame.length) (h : Frame.IsTagged frame) (vlans : List UInt16) :
    ∃ vlan, vlan.toNat = Frame.vlanId frame ∧ planned (.trunk vlans) frame p = taggedCopy vlan p := by
  obtain ⟨t, ht, hvlan⟩ := Frame.exists_tag h hlong
  rw [Frame.isTagged_iff (by omega)] at h
  refine ⟨t.vlan, hvlan, ?_⟩
  simp only [planned, if_pos h, ht]
  exact if_neg (Nat.not_lt.mpr hlong)

theorem sentTo_of_gets (hlen : 14 ≤ frame.length) (hp : p.interface.mode = egress)
    (h : Gets frame mode egress copy) : sentTo mode frame p = some ⟨p.interface.index, copy⟩ := by
  cases h with
  | passed tagged long vlan listed =>
    obtain ⟨v, hv, hplanned⟩ := planned_of_tagged (p := p) long tagged _
    obtain rfl := UInt16.toNat_inj.mp (hv.trans vlan.symm)
    rw [sentTo, hplanned]
    simp [taggedCopy, hp, PortMode.carries, listed, TagChange.apply]
  | stripped tagged long vlan =>
    obtain ⟨v, hv, hplanned⟩ := planned_of_tagged (p := p) long tagged _
    obtain rfl := UInt16.toNat_inj.mp (hv.trans vlan.symm)
    rw [sentTo, hplanned]
    simp only [taggedCopy, hp, PortMode.carries, BEq.rfl, if_true, Option.bind_some, TagChange.apply,
      Frame.stripTag]
    rw [if_neg (by simp only [Tag.offset, Tag.size]; omega)]
    rfl
  | kept untagged =>
    rw [sentTo, planned_of_untagged hlen untagged]
    simp [untaggedCopy, hp, TagChange.apply]
  | inserted untagged =>
    rw [sentTo, planned_of_untagged hlen untagged]
    simp only [untaggedCopy, hp, List.head?_cons, if_true, Option.bind_some, TagChange.apply,
      Frame.insertTag]
    rw [if_neg (by simp only [Tag.offset]; omega)]
    rfl

theorem gets_of_taggedCopy {vlan : UInt16} {change : TagChange} (vlans : List UInt16)
    (ht : Frame.IsTagged frame) (hlong : 18 ≤ frame.length) (hvlan : vlan.toNat = Frame.vlanId frame)
    (h : taggedCopy vlan p = some (q, change)) (hcopy : change.apply frame = some copy) :
    Gets frame (.trunk vlans) p.interface.mode copy := by
  unfold taggedCopy at h
  split at h
  · rename_i hcarries
    cases hm : p.interface.mode with
    | trunk listed =>
      rw [hm] at h hcarries
      cases h
      cases hcopy
      exact .passed ht hlong hvlan (List.contains_iff_mem.mp hcarries)
    | access id =>
      rw [hm] at h hcarries
      cases h
      obtain rfl : id = vlan := beq_iff_eq.mp hcarries
      simp only [TagChange.apply, Frame.stripTag] at hcopy
      split at hcopy
      · cases hcopy
      · cases hcopy
        exact .stripped ht hlong hvlan
  · cases h

theorem gets_of_untaggedCopy {vlan : UInt16} {change : TagChange} (ht : ¬ Frame.IsTagged frame)
    (h : untaggedCopy vlan p = some (q, change)) (hcopy : change.apply frame = some copy) :
    Gets frame (.access vlan) p.interface.mode copy := by
  unfold untaggedCopy at h
  cases hm : p.interface.mode with
  | trunk listed =>
    rw [hm] at h
    simp only at h
    split at h
    · rename_i hhead
      cases h
      obtain ⟨rest, rfl⟩ := List.head?_eq_some_iff.mp hhead
      simp only [TagChange.apply, Frame.insertTag] at hcopy
      split at hcopy
      · cases hcopy
      · cases hcopy
        exact .inserted ht
    · cases h
  | access native =>
    rw [hm] at h
    simp only at h
    split at h
    · rename_i hnative
      cases h
      cases hcopy
      rw [hnative]
      exact .kept ht
    · cases h

theorem planned_of_short (h : Frame.IsTagged frame) (hlen : 14 ≤ frame.length) (hshort : frame.length < 18)
    (vlans : List UInt16) : planned (.trunk vlans) frame p = none := by
  rw [Frame.isTagged_iff hlen] at h
  unfold planned
  rw [if_pos h]
  cases Frame.tag frame with
  | none => rfl
  | some t => exact if_pos hshort

/-- **An interface is sent what it gets**, under its own number. -/
theorem gets_of_sentTo (hlen : 14 ≤ frame.length) (h : sentTo mode frame p = some ⟨q, copy⟩) :
    p.interface.index = q ∧ Gets frame mode p.interface.mode copy := by
  obtain ⟨⟨i, change⟩, hplanned, h⟩ := Option.bind_eq_some_iff.mp h
  obtain ⟨c, hcopy, hmessage⟩ := Option.map_eq_some_iff.mp h
  obtain ⟨rfl, rfl⟩ := Message.mk.inj hmessage
  have hmark := Frame.isTagged_iff hlen
  by_cases ht : Frame.IsTagged frame
  · -- tagged frames come in by trunks only
    cases mode with
    | access _ => simp [planned, hmark.mp ht] at hplanned
    | trunk vlans =>
      by_cases hlong : 18 ≤ frame.length
      · obtain ⟨vlan, hvlan, htagged⟩ := planned_of_tagged (p := p) hlong ht vlans
        rw [htagged] at hplanned
        exact ⟨(carries_of_taggedCopy hplanned).1, gets_of_taggedCopy vlans ht hlong hvlan hplanned hcopy⟩
      · rw [planned_of_short ht hlen (Nat.not_le.mp hlong)] at hplanned
        cases hplanned
  · -- and others by access interfaces only
    cases mode with
    | trunk _ => simp [planned, mt hmark.mpr ht] at hplanned
    | access vlan =>
      rw [planned_of_untagged hlen ht] at hplanned
      exact ⟨(carries_of_untaggedCopy hplanned).1, gets_of_untaggedCopy ht hplanned hcopy⟩

/-- Every copy gives the frame back: a tag that was put in is taken out again, or the frame's own is put
back in. -/
theorem Gets.recover (h : Gets frame mode egress copy) (hlen : 14 ≤ frame.length) :
    copy = frame ∨
      copy.length = frame.length + 4 ∧ copy.take 12 ++ copy.drop 16 = frame ∨
      copy.length + 4 = frame.length ∧
        copy.take 12 ++ (frame.drop 12).take 4 ++ copy.drop 12 = frame := by
  have haddresses : (frame.take 12).length = 12 := by
    rw [List.length_take]
    omega
  cases h with
  | passed => exact .inl rfl
  | kept => exact .inl rfl
  | stripped _ long _ =>
    -- the two pieces of the copy are those around the tag
    refine .inr (.inr ⟨?_, ?_⟩)
    · rw [List.length_append, haddresses, List.length_drop]
      omega
    · rw [List.take_left' haddresses, List.drop_left' haddresses, List.append_assoc,
        ← List.drop_drop (i := 4) (j := 12), List.take_append_drop, List.take_append_drop]
  | inserted _ =>
    have hfront : (frame.take 12 ++ [0x81, 0, 0, 1]).length = 16 := by
      rw [List.length_append, haddresses]
      rfl
    refine .inr (.inl ⟨?_, ?_⟩)
    · rw [List.length_append, hfront, List.length_drop]
      omega
    · rw [List.drop_left' hfront, List.append_assoc, List.take_left' haddresses, List.take_append_drop]

/-! ## The messages of a flood -/

theorem pairwise_sentTo (hindex : ∀ k p, s.ports[k]? = some p → p.interface.index.toNat = k + 1)
    (hlen : 14 ≤ frame.length) :
    ((s.ports.eraseIdx slot).filterMap (sentTo mode frame)).Pairwise (·.kind < ·.kind) := by
  have hports : s.ports.Pairwise fun p p' => p.interface.index < p'.interface.index := by
    refine List.pairwise_iff_getElem.mpr fun j k hj hk hjk => ?_
    rw [UInt16.lt_iff_toNat_lt, hindex j _ (List.getElem?_eq_getElem hj),
      hindex k _ (List.getElem?_eq_getElem hk)]
    omega
  refine (hports.eraseIdx slot).filterMap _ fun p p' hlt m hm m' hm' => ?_
  rw [← (gets_of_sentTo hlen hm).1, ← (gets_of_sentTo hlen hm').1]
  exact hlt

theorem mem_sentTo_iff (hindex : ∀ k p, s.ports[k]? = some p → p.interface.index.toNat = k + 1)
    (hlen : 14 ≤ frame.length) :
    ⟨q, copy⟩ ∈ (s.ports.eraseIdx slot).filterMap (sentTo mode frame) ↔
      ∃ k p, s.ports[k]? = some p ∧ k ≠ slot ∧ q.toNat = k + 1 ∧ Gets frame mode p.interface.mode copy := by
  constructor
  · intro h
    obtain ⟨p, hp, hsent⟩ := List.mem_filterMap.mp h
    obtain ⟨k, hne, hk⟩ := List.mem_eraseIdx_iff_getElem?.mp hp
    obtain ⟨rfl, hgets⟩ := gets_of_sentTo hlen hsent
    exact ⟨k, p, hk, hne, hindex k p hk, hgets⟩
  · rintro ⟨k, p, hk, hne, hq, hgets⟩
    obtain rfl : p.interface.index = q := UInt16.toNat_inj.mp ((hindex k p hk).trans hq.symm)
    exact List.mem_filterMap.mpr
      ⟨p, List.mem_eraseIdx_iff_getElem?.mpr ⟨k, hne, hk⟩, sentTo_of_gets hlen rfl hgets⟩

theorem route_of_unknown {ingress : UInt16} {src dst : MacAddress} (hlen : 14 ≤ frame.length)
    (hsrc : Frame.source frame = some src) (hu : src.isUnicast)
    (hdst : Frame.destination frame = some dst)
    (h : dst.isUnicast = false ∨ ((s.table.getD .empty).learn src ingress).2.lookup dst = none) :
    s.route ingress frame = s.floodPlan (ingress.toNat - 1) frame := by
  have hlesson : (Event.frame ingress frame).lesson = some ⟨src, ingress⟩ :=
    lesson_frame_eq_some_iff.mpr ⟨hlen, hsrc, hu, rfl⟩
  unfold route
  rw [hdst, hlesson]
  rcases h with h | h
  · simp [h]
  · simp [h]

/-- **A flood gives each interface its copy.** Whatever the switch has been through, a frame to a group,
or to an address that the switch does not know once it has learned the source, goes to every other
interface that is to get a copy of it, in the order of the interfaces, and the stream takes all these
copies. -/
theorem flood_gives_each_its_copy {args : List String} {interfaces : List Interface} {s₀ : Switch}
    (hp : Interface.parseAll args = .ok interfaces) (hs : ofInterfaces interfaces = .ok s₀)
    {events : List Event} {out o : Sink} (hr : after events (s₀, out) = (s, o)) (ho : out.Accepting)
    {i : Nat} {a : Interface} (ha : interfaces[i]? = some a) {ingress : UInt16}
    (hi : ingress.toNat = i + 1) (hlo : 14 ≤ frame.length)
    (hhi : frame.length ≤ Message.maxPayload - 4) {src dst : MacAddress}
    (hsrc : Frame.source frame = some src) (hu : src.isUnicast)
    (hdst : Frame.destination frame = some dst)
    (hflood : dst.isUnicast = false ∨ ((s.table.getD .empty).learn src ingress).2.lookup dst = none) :
    ∃ sent : List Message, ∃ s' o',
      Tool.handler react (.frame ingress frame) (s, o) = (.ok (), s', o') ∧
      (∀ m ∈ sent, m.encode = .ok m.toBytes) ∧
      o'.data.toList = o.data.toList ++ sent.flatMap Message.toBytes ∧
      sent.Pairwise (·.kind < ·.kind) ∧
      (∀ q copy, ⟨q, copy⟩ ∈ sent ↔ ∃ j b, interfaces[j]? = some b ∧ j ≠ i ∧ q.toNat = j + 1 ∧
        Gets frame a.mode b.mode copy) ∧
      ∀ m ∈ sent, m.kind ≠ ingress ∧ (m.payload = frame ∨
        m.payload.length = frame.length + 4 ∧ m.payload.take 12 ++ m.payload.drop 16 = frame ∨
        m.payload.length + 4 = frame.length ∧
          m.payload.take 12 ++ (frame.drop 12).take 4 ++ m.payload.drop 12 = frame) := by
  have hports : s.ports.map (·.interface) = interfaces := by
    rw [← ports_of_ofInterfaces hs, ← interfaces_after (s := s₀) events out, hr]
  have haccepting : o.Accepting := by
    have hst : (s₀, out).2.Accepting := ho
    have := accepting_after hst events
    rwa [hr] at this
  have hindex : ∀ k p, s.ports[k]? = some p → p.interface.index.toNat = k + 1 :=
    fun _ _ hk => (index_of_built hp hports hk).2
  obtain ⟨port, hport, rfl⟩ : ∃ port, s.ports[i]? = some port ∧ port.interface = a := by
    rw [← hports, List.getElem?_map] at ha
    exact Option.map_eq_some_iff.mp ha
  have hslot : ingress.toNat - 1 = i := by omega
  have hadmits : s.Admits (.frame ingress frame) := by
    have hlt := (List.getElem?_eq_some_iff.mp hport).1
    refine ⟨?_, by omega⟩
    rintro rfl
    cases hi
  obtain ⟨s', hreact⟩ := react_frame hadmits
  rw [route_of_unknown hlo hsrc hu hdst hflood, hslot] at hreact
  have hfits : ∀ m ∈ copies (s.floodPlan i frame) frame, m.Fits := by
    have hmax : Message.maxPayload = 65531 := rfl
    apply fits_of_mem_copies
    · omega
    · simp only [Tag.size]
      omega
  obtain ⟨hok, hdata⟩ := haccepting.sendEach hfits
  have hmem : ∀ q copy, ⟨q, copy⟩ ∈ copies (s.floodPlan i frame) frame ↔ ∃ k p, s.ports[k]? = some p ∧
      k ≠ i ∧ q.toNat = k + 1 ∧ Gets frame port.interface.mode p.interface.mode copy := by
    intro q copy
    rw [copies_floodPlan hport]
    exact mem_sentTo_iff hindex hlo
  refine ⟨_, s', _, by rw [Tool.handler_of_ok hreact, hok], fun m hm => Message.encode_of_fits (hfits m hm),
    hdata, ?_, ?_, ?_⟩
  · rw [copies_floodPlan hport]
    exact pairwise_sentTo hindex hlo
  · intro q copy
    rw [hmem]
    constructor
    · rintro ⟨j, p, hj, hne, hq, hgets⟩
      exact ⟨j, p.interface, (index_of_built hp hports hj).1, hne, hq, hgets⟩
    · rintro ⟨j, b, hj, hne, hq, hgets⟩
      rw [← hports, List.getElem?_map] at hj
      obtain ⟨p, hk, rfl⟩ := Option.map_eq_some_iff.mp hj
      exact ⟨j, p, hk, hne, hq, hgets⟩
  · intro m hm
    obtain ⟨j, p, _, hne, hq, hgets⟩ := (hmem m.kind m.payload).mp hm
    refine ⟨?_, hgets.recover hlo⟩
    intro hkind
    rw [hkind, hi] at hq
    omega

theorem broadcast_gives_each_its_copy :
    Interface.parseAll ["a[U:1]", "b[U:1]", "c[T:1]", "d[U:1]"] = .ok (mixed.ports.map (·.interface)) ∧
      ofInterfaces (mixed.ports.map (·.interface)) = .ok mixed ∧ ({} : Sink).Accepting ∧
      ∃ sent : List Message, ∃ s' o',
        Tool.handler react (.frame 1 (greet .broadcast (station 1)))
          (after [.frame 4 (greet (station 1) (station 4))] (mixed, {})) = (.ok (), s', o') ∧
        ⟨2, greet .broadcast (station 1)⟩ ∈ sent ∧
        ⟨3, (greet .broadcast (station 1)).take 12 ++ [0x81, 0, 0, 1, 8, 0]⟩ ∈ sent := by
  have hp : Interface.parseAll ["a[U:1]", "b[U:1]", "c[T:1]", "d[U:1]"] =
      .ok (mixed.ports.map (·.interface)) := rfl
  have hs : ofInterfaces (mixed.ports.map (·.interface)) = .ok mixed := rfl
  have ho : ({} : Sink).Accepting := ⟨rfl, rfl⟩
  have ha : (mixed.ports.map (·.interface))[0]? = some ⟨1, "a", .access 1⟩ := rfl
  have huntagged : ¬ Frame.IsTagged (greet .broadcast (station 1)) := by
    unfold Frame.IsTagged
    decide
  have hr : after [.frame 4 (greet (station 1) (station 4))] (mixed, {}) = (_, _) := rfl
  have hi : (1 : UInt16).toNat = 0 + 1 := rfl
  have hsrc : Frame.source (greet .broadcast (station 1)) = some (station 1) := rfl
  have hdst : Frame.destination (greet .broadcast (station 1)) = some .broadcast := rfl
  obtain ⟨sent, s', o', hhandler, _, _, _, hsent, _⟩ := flood_gives_each_its_copy hp hs hr ho ha hi
    (by decide) (by decide) hsrc (by decide) hdst (.inl (by decide))
  refine ⟨hp, hs, ho, sent, s', o', hhandler, ?_, ?_⟩
  · exact (hsent _ _).mpr ⟨1, _, rfl, by decide, rfl, .kept huntagged⟩
  · exact (hsent _ _).mpr ⟨2, _, rfl, by decide, rfl, .inserted huntagged⟩

end

end Switch

end EtherBench
