import EtherBench.Proofs.Switch.Egress
import Mathlib.Data.List.Forall2

/-!
# The copies of a frame

Every interface that a frame is for has its copy: a tag can always be put in or
taken out where the plan says so. A tag that is put in makes the copy longer than
the frame, though, and the frame may be as long as a message allows already. Then
the copy is refused, and so are all copies behind it.
-/

namespace EtherBench.Switch

/-- Where a frame is for, and how each copy differs from it: the interface where its destination was seen
last, once the source is learned, or all that it is flooded to. -/
def route (ingress : UInt16) (frame : Bytes) (s : Switch) : List (UInt16 × TagChange) :=
  match Frame.destination frame, (Event.frame ingress frame).lesson with
  | some dst, some e =>
    match if dst.isUnicast then ((s.table.getD .empty).learn e.address ingress).2.lookup dst else none with
    | some egress => [(egress, .keep)]
    | none => s.floodPlan (ingress.toNat - 1) frame
  | _, _ => []

section
variable {s : Switch} {ingress q : UInt16} {frame copy : Bytes} {change : TagChange}
  {plan : List (UInt16 × TagChange)}

theorem react_frame (ha : s.Admits (.frame ingress frame)) :
    ∃ s', react (.frame ingress frame) s = .ok (copies (s.route ingress frame) frame, s') := by
  cases hl : (Event.frame ingress frame).lesson with
  | none =>
    have hroute : s.route ingress frame = [] := by
      unfold route
      rw [hl]
      cases Frame.destination frame <;> rfl
    rw [hroute]
    exact ⟨_, forward_of_lesson_none hl ha.1 ha.2⟩
  | some e =>
    obtain ⟨dst, hd⟩ := exists_destination (lesson_frame_eq_some_iff.mp hl).1
    have hmessages : copies (s.route ingress frame) frame =
        (s.relay ingress (ingress.toNat - 1) frame dst e.address (s.table.getD .empty)).1 := by
      unfold Switch.relay route
      rw [hd, hl]
      simp only
      generalize (if dst.isUnicast = true then _ else _ : Option UInt16) = known
      cases known <;> rfl
    rw [hmessages]
    exact ⟨_, forward_of_lesson hl hd ha.1 ha.2⟩

/-- Only frames with a whole header have somewhere to go, and a tag is taken out only of frames that are
long enough to have one. -/
theorem length_of_mem_route (h : (q, change) ∈ s.route ingress frame) :
    Frame.headerSize ≤ frame.length ∧ (change = .strip → Frame.headerSize + Tag.size ≤ frame.length) := by
  unfold route at h
  split at h
  · rename_i dst e _ hl
    refine ⟨(lesson_frame_eq_some_iff.mp hl).1, ?_⟩
    rintro rfl
    split at h
    · cases List.mem_singleton.mp h
    · exact length_of_strip h
  · cases h

theorem exists_copy (h : (q, change) ∈ s.route ingress frame) : ∃ copy, change.apply frame = some copy := by
  obtain ⟨hlen, hstrip⟩ := length_of_mem_route h
  simp only [Frame.headerSize, Tag.size] at hlen hstrip
  cases change with
  | keep => exact ⟨frame, rfl⟩
  | insert => exact ⟨_, Frame.insertTag_of_le (Nat.le_trans (by decide) hlen) _⟩
  | strip => exact ⟨_, Frame.stripTag_of_le (Nat.le_trans (by decide) (hstrip rfl))⟩

theorem length_le_of_apply (hne : change ≠ .insert) (h : change.apply frame = some copy) :
    copy.length ≤ frame.length := by
  cases change with
  | keep =>
    cases h
    exact Nat.le_refl _
  | insert => exact absurd rfl hne
  | strip =>
    have := Frame.length_stripTag h
    omega

theorem copies_append (plan behind : List (UInt16 × TagChange)) (frame : Bytes) :
    copies (plan ++ behind) frame = copies plan frame ++ copies behind frame :=
  List.filterMap_append

theorem copies_cons (h : change.apply frame = some copy) (plan : List (UInt16 × TagChange)) :
    copies ((q, change) :: plan) frame = ⟨q, copy⟩ :: copies plan frame :=
  List.filterMap_cons_some (by simp only [h, Option.map_some])

theorem copies_forall₂ (h : ∀ e ∈ plan, ∃ copy, e.2.apply frame = some copy) :
    List.Forall₂ (fun e m => m.kind = e.1 ∧ e.2.apply frame = some m.payload) plan (copies plan frame) := by
  induction plan with
  | nil => exact .nil
  | cons e plan ih =>
    rw [List.forall_mem_cons] at h
    obtain ⟨copy, hcopy⟩ := h.1
    rw [copies_cons hcopy]
    exact .cons ⟨rfl, hcopy⟩ (ih h.2)

theorem fits_of_mem_copies (hframe : frame.length ≤ Message.maxPayload)
    (h : ∀ q, (q, .insert) ∈ plan → frame.length + Tag.size ≤ Message.maxPayload) :
    ∀ m ∈ copies plan frame, m.Fits := by
  intro m hm
  obtain ⟨⟨q, change⟩, hq, hm⟩ := List.mem_filterMap.mp hm
  obtain ⟨copy, hcopy, rfl⟩ := Option.map_eq_some_iff.mp hm
  by_cases hc : change = .insert
  · subst hc
    exact Nat.le_trans (Nat.le_of_eq (Frame.length_insertTag hcopy)) (h q hq)
  · exact Nat.le_trans (length_le_of_apply hc hcopy) hframe

/-- **Only a tag that is put in can make a frame fail.** Of a frame that a message holds there is a copy
for every interface that it is for. They all go out, unless one has a tag put in and is then too long for a
message. Then the first such copy is refused, those in front of it have gone out, and those behind it
have not. -/
theorem frame_fails_at_grown_copy (ha : s.Admits (.frame ingress frame))
    (hframe : frame.length ≤ Message.maxPayload) {out : Sink} (ho : out.Accepting) :
    ∃ s', react (.frame ingress frame) s = .ok (copies (s.route ingress frame) frame, s') ∧
      List.Forall₂ (fun e m => m.kind = e.1 ∧ e.2.apply frame = some m.payload)
        (s.route ingress frame) (copies (s.route ingress frame) frame) ∧
      ((∀ q, (q, .insert) ∈ s.route ingress frame → frame.length + Tag.size ≤ Message.maxPayload) →
        ∃ out', Tool.handler react (.frame ingress frame) (s, out) = (.ok (), s', out') ∧
          out'.data.toList =
            out.data.toList ++ (copies (s.route ingress frame) frame).flatMap Message.toBytes) ∧
      ∀ before q behind, s.route ingress frame = before ++ (q, .insert) :: behind →
        (∀ q, (q, .insert) ∉ before) → Message.maxPayload < frame.length + Tag.size →
        ∃ out', Tool.handler react (.frame ingress frame) (s, out) =
            (.error (.payloadTooLarge (frame.length + Tag.size) Message.maxPayload), s', out') ∧
          out'.data.toList = out.data.toList ++ (copies before frame).flatMap Message.toBytes := by
  obtain ⟨s', hr⟩ := react_frame ha
  have hcopies : ∀ e ∈ s.route ingress frame, ∃ copy, e.2.apply frame = some copy := fun _ => exists_copy
  refine ⟨s', hr, copies_forall₂ hcopies, fun hfit => ?_, fun before q behind hsplit hbefore hlarge => ?_⟩
  · obtain ⟨hok, hdata⟩ := ho.sendEach (fits_of_mem_copies hframe hfit)
    exact ⟨_, by rw [Tool.handler_of_ok hr, hok], hdata⟩
  · rw [hsplit] at hr hcopies
    obtain ⟨copy, hcopy⟩ := hcopies (q, .insert) (by simp)
    have hlen := Frame.length_insertTag hcopy
    have hfit : ∀ m ∈ copies before frame, m.Fits :=
      fits_of_mem_copies hframe fun q hq => absurd hq (hbefore q)
    have hnot : ¬ Message.Fits ⟨q, copy⟩ := Nat.not_le.mpr (hlen ▸ hlarge)
    obtain ⟨hfailed, hdata⟩ := ho.sendEach_of_large hfit hnot (copies behind frame)
    rw [copies_append, copies_cons hcopy] at hr
    rw [hlen] at hfailed
    exact ⟨_, by rw [Tool.handler_of_ok hr, hfailed], hdata⟩

def mixed : Switch :=
  { ports := [⟨⟨1, "a", .access 1⟩, none⟩, ⟨⟨2, "b", .access 1⟩, none⟩, ⟨⟨3, "c", .trunk [1]⟩, none⟩,
      ⟨⟨4, "d", .access 1⟩, none⟩], length_ports := by decide }

/-- A broadcast that a message holds, but not with a tag. -/
def longBroadcast : Bytes := greet .broadcast (station 1) ++ List.replicate 65514 0

theorem length_longBroadcast : longBroadcast.length = 65528 := by
  rw [longBroadcast, List.length_append, List.length_replicate]
  rfl

theorem route_mixed (rest : Bytes) : mixed.route 1 (greet .broadcast (station 1) ++ rest) =
    [(2, .keep), (3, .insert), (4, .keep)] := by
  have hlesson : (Event.frame 1 (greet .broadcast (station 1) ++ rest)).lesson = some ⟨station 1, 1⟩ := by
    refine lesson_frame_eq_some_iff.mpr ⟨?_, rfl, by decide, rfl⟩
    rw [List.length_append]
    exact Nat.le_add_right 14 _
  unfold route
  rw [hlesson]
  rfl

theorem route_longBroadcast : mixed.route 1 longBroadcast = [(2, .keep), (3, .insert), (4, .keep)] :=
  route_mixed _

theorem long_broadcast_stops_at_trunk :
    mixed.Admits (.frame 1 longBroadcast) ∧ longBroadcast.length ≤ Message.maxPayload ∧
      ({} : Sink).Accepting ∧
      ∃ s' out', Tool.handler react (.frame 1 longBroadcast) (mixed, {}) =
          (.error (.payloadTooLarge 65532 Message.maxPayload), s', out') ∧
        out'.data.toList = Message.toBytes ⟨2, longBroadcast⟩ := by
  have ha : mixed.Admits (.frame 1 longBroadcast) := ⟨by decide, by decide⟩
  have hframe : longBroadcast.length ≤ Message.maxPayload := by
    rw [length_longBroadcast]
    decide
  have ho : ({} : Sink).Accepting := ⟨rfl, rfl⟩
  obtain ⟨s', _, _, _, hfails⟩ := frame_fails_at_grown_copy ha hframe ho
  obtain ⟨out', hhandler, hdata⟩ := hfails [(2, .keep)] 3 [(4, .keep)] route_longBroadcast
    (by simp) (by rw [length_longBroadcast]; decide)
  rw [length_longBroadcast] at hhandler
  refine ⟨ha, hframe, ho, s', out', hhandler, ?_⟩
  rw [hdata]
  exact (List.nil_append _).trans (List.append_nil _)

/-- Interfaces that parse, and a frame that a message holds, are not enough for the frame to be passed on. -/
theorem grown_copy_is_refused :
    Interface.parseAll ["a[U:1]", "b[U:1]", "c[T:1]", "d[U:1]"] = .ok (mixed.ports.map (·.interface)) ∧
      ofInterfaces (mixed.ports.map (·.interface)) = .ok mixed ∧
      longBroadcast.length ≤ Message.maxPayload ∧ ({} : Sink).Accepting ∧
      (Tool.handler react (.frame 1 longBroadcast) (mixed, {})).1 =
        .error (.payloadTooLarge 65532 Message.maxPayload) := by
  have hframe : longBroadcast.length ≤ Message.maxPayload := by
    rw [length_longBroadcast]
    decide
  have ho : ({} : Sink).Accepting := ⟨rfl, rfl⟩
  refine ⟨rfl, rfl, hframe, ho, ?_⟩
  have ha : mixed.Admits (.frame 1 longBroadcast) := ⟨by decide, by decide⟩
  have hroute : (3, .insert) ∈ mixed.route 1 longBroadcast := by
    rw [route_longBroadcast]
    decide
  obtain ⟨s', hr⟩ := react_frame ha
  obtain ⟨copy, hcopy⟩ := exists_copy hroute
  have hlen : copy.length = 65532 := by rw [Frame.length_insertTag hcopy, length_longBroadcast]; rfl
  have hlarge : ¬ Message.Fits ⟨3, copy⟩ := by
    rw [Message.Fits, hlen]
    decide
  have hsent : copies (mixed.route 1 longBroadcast) longBroadcast =
      [⟨2, longBroadcast⟩] ++ ⟨3, copy⟩ :: copies [(4, .keep)] longBroadcast := by
    have hkeep : TagChange.keep.apply longBroadcast = some longBroadcast := rfl
    rw [route_longBroadcast, copies_cons hkeep, copies_cons hcopy, List.singleton_append]
  have hfirst : ∀ m ∈ [(⟨2, longBroadcast⟩ : Message)], m.Fits := List.forall_mem_singleton.mpr hframe
  have hfailed := (ho.sendEach_of_large hfirst hlarge (copies [(4, .keep)] longBroadcast)).1
  rw [hlen] at hfailed
  simp only [Tool.handler_of_ok hr, hsent, hfailed]

end

end EtherBench.Switch
