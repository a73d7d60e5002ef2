import EtherBench.Proofs.Message.Sending
import EtherBench.Proofs.Switch.Queue
import EtherBench.Proofs.Updates
import EtherBench.Switch.React

/-!
# Where frames go

A switch keeps nothing of its past but a queue of the addresses it has seen as
sources. Where a frame goes depends on that queue, with the frame's own source
already in it, and on the interfaces as they were configured.
-/

namespace EtherBench

/-- What a switch learns from an event: the source of a frame that has both addresses and a type,
unless it is a group address. -/
def Event.lesson : Event → Option Entry
  | .frame ingress b =>
    match Frame.source b with
    | some src => if Frame.headerSize ≤ b.length ∧ src.isUnicast then some ⟨src, ingress⟩ else none
    | none => none
  | _ => none

namespace Switch

def taught (events : List Event) : List Entry :=
  (events.filterMap Event.lesson).foldl LearningTable.enqueue []

def Admits (s : Switch) : Event → Prop
  | .control _ => True
  | .roster interface _ => interface ≠ 0 ∧ interface.toNat ≤ s.ports.length
  | .frame interface _ => interface ≠ 0 ∧ interface.toNat ≤ s.ports.length

/-- Switch and stream after some events, whatever became of the answers. -/
def after (events : List Event) (st : Switch × Sink) : Switch × Sink :=
  events.foldl (fun st e => (Tool.handler react e st).2) st

/-- The switch came from `s₀` and has learned from `events`. -/
structure Reached (s₀ s : Switch) (events : List Event) : Prop where
  interfaces : s.ports.map (·.interface) = s₀.ports.map (·.interface)
  table : (s.table.getD .empty).Holds (taught events)

section
variable {s₀ s s' : Switch} {events : List Event}

theorem taught_append (events : List Event) (e : Event) :
    taught (events ++ [e]) =
      match e.lesson with
      | some x => LearningTable.enqueue (taught events) x
      | none => taught events := by
  rw [taught, List.filterMap_append, List.foldl_append]
  cases h : e.lesson with
  | none => simp [h, taught]
  | some x => simp [h, taught]

theorem Reached.length (h : Reached s₀ s events) : s.ports.length = s₀.ports.length :=
  length_eq_of_map_eq h.interfaces

theorem toNat_count (s : Switch) : s.count.toNat = s.ports.length := by
  have hmax := s.length_ports
  simp only [Message.maxInterfaces, Message.maxPayload, Message.maxSize, Message.headerSize] at hmax
  rw [count, UInt16.toNat_ofNat']
  omega

theorem slot_of_admitted {i : UInt16} (h₀ : i ≠ 0) (h : i.toNat ≤ s.ports.length) :
    s.slot i = .ok (i.toNat - 1) := by
  have hlt : ¬ s.count < i := by
    rw [UInt16.lt_iff_toNat_lt, s.toNat_count]
    exact Nat.not_lt.mpr h
  rw [slot, if_neg (not_or.mpr ⟨h₀, hlt⟩)]

theorem enroll_of_admitted {i : UInt16} (address : MacAddress) (h₀ : i ≠ 0) (h : i.toNat ≤ s.ports.length) :
    ∃ s', s.enroll i address = .ok s' ∧ s'.ports.map (·.interface) = s.ports.map (·.interface) ∧
      s'.table = s.table := by
  unfold enroll
  rw [slot_of_admitted h₀ h]
  refine ⟨_, rfl, ?_, rfl⟩
  exact map_modify_of_eq (f := SwitchPort.interface) (g := fun p => { p with address := some address })
    (fun _ => rfl) s.ports _

/-- The plan looks at the interfaces alone, not at the addresses from the roster. -/
theorem floodPlan_congr (h : s'.ports.map (·.interface) = s.ports.map (·.interface)) (slot : Nat)
    (frame : Bytes) : s'.floodPlan slot frame = s.floodPlan slot frame := by
  have hothers : ∀ f : SwitchPort → Option (UInt16 × TagChange), (∀ p, f p = f ⟨p.interface, none⟩) →
      (s'.ports.eraseIdx slot).filterMap f = (s.ports.eraseIdx slot).filterMap f := by
    intro f hf
    have hmap : ∀ ports : List SwitchPort, (ports.eraseIdx slot).filterMap f =
        ((ports.map (·.interface)).eraseIdx slot).filterMap fun i => f ⟨i, none⟩ := by
      intro ports
      rw [List.eraseIdx_eq_take_drop_succ, List.eraseIdx_eq_take_drop_succ, ← List.map_take,
        ← List.map_drop, ← List.map_append, List.filterMap_map]
      exact congrArg (fun g => List.filterMap g _) (funext hf)
    rw [hmap, hmap, h]
  have htagged := fun vlan => hothers (taggedCopy vlan) fun _ => rfl
  have huntagged := fun vlan => hothers (untaggedCopy vlan) fun _ => rfl
  have hingress : (s'.ports[slot]?).map (·.interface) = (s.ports[slot]?).map (·.interface) := by
    rw [← List.getElem?_map, h, List.getElem?_map]
  unfold floodPlan
  cases hs : s.ports[slot]? with
  | none =>
    rw [hs] at hingress
    rw [Option.map_eq_none_iff.mp hingress]
  | some p =>
    rw [hs] at hingress
    obtain ⟨p', hp', he⟩ := Option.map_eq_some_iff.mp hingress
    rw [hp']
    simp only [he, htagged, huntagged]

/-! ## Frames -/

theorem lesson_frame_eq_some_iff {i : UInt16} {b : Bytes} {e : Entry} :
    (Event.frame i b).lesson = some e ↔
      Frame.headerSize ≤ b.length ∧ Frame.source b = some e.address ∧ e.address.isUnicast ∧
        e.interface = i := by
  rw [Event.lesson]
  constructor
  · intro h
    split at h
    · rename_i src hs
      split at h
      · rename_i hc
        injection h with h
        subst h
        exact ⟨hc.1, hs, hc.2, rfl⟩
      · cases h
    · cases h
  · rintro ⟨hlen, hs, hu, rfl⟩
    rw [hs]
    exact if_pos ⟨hlen, hu⟩

theorem exists_destination {b : Bytes} (h : Frame.headerSize ≤ b.length) :
    ∃ dst, Frame.destination b = some dst := by
  match b with
  | [] | [_] | [_, _] | [_, _, _] | [_, _, _, _] | [_, _, _, _, _] => simp [Frame.headerSize] at h
  | _ :: _ :: _ :: _ :: _ :: _ :: _ => exact ⟨_, rfl⟩

theorem forward_of_lesson_none {i : UInt16} {b : Bytes} (h : (Event.frame i b).lesson = none)
    (h₀ : i ≠ 0) (hi : i.toNat ≤ s.ports.length) :
    s.forward i b = .ok ([], { s with table := some (s.table.getD .empty) }) := by
  unfold forward
  rw [slot_of_admitted h₀ hi]
  simp only
  split
  · rename_i src _ hs
    split
    · rfl
    · rename_i hc
      obtain ⟨hlen, hu⟩ := not_or.mp hc
      have hsome : (Event.frame i b).lesson = some ⟨src, i⟩ := by
        refine lesson_frame_eq_some_iff.mpr ⟨Nat.not_lt.mp hlen, hs, ?_, rfl⟩
        simpa [MacAddress.isUnicast] using hu
      rw [hsome] at h
      cases h
  · rfl

theorem forward_of_lesson {i : UInt16} {b : Bytes} {e : Entry} {dst : MacAddress}
    (h : (Event.frame i b).lesson = some e) (hd : Frame.destination b = some dst) (h₀ : i ≠ 0)
    (hi : i.toNat ≤ s.ports.length) :
    s.forward i b = .ok (s.relay i (i.toNat - 1) b dst e.address (s.table.getD .empty)) := by
  obtain ⟨hlen, hs, hu, _⟩ := lesson_frame_eq_some_iff.mp h
  have hc : ¬(b.length < Frame.headerSize ∨ e.address.isMulticast = true) := by
    refine not_or.mpr ⟨Nat.not_lt.mpr hlen, ?_⟩
    simpa [MacAddress.isUnicast] using hu
  unfold forward
  rw [slot_of_admitted h₀ hi, hd, hs]
  simp only [if_neg hc]

theorem Reached.relay (h : Reached s₀ s events) {i : UInt16} {b : Bytes} {e : Entry}
    (he : (Event.frame i b).lesson = some e) (slot : Nat) (dst : MacAddress) :
    Reached s₀ (s.relay i slot b dst e.address (s.table.getD .empty)).2 (events ++ [.frame i b]) := by
  obtain ⟨_, _, _, hi⟩ := lesson_frame_eq_some_iff.mp he
  refine ⟨h.interfaces, ?_⟩
  rw [taught_append, he]
  have := h.table.learn e.address i
  rw [← hi] at this ⊢
  exact this

theorem Reached.react (h : Reached s₀ s events) {e : Event} (ha : s₀.Admits e) :
    ∃ ms s', Switch.react e s = .ok (ms, s') ∧ Reached s₀ s' (events ++ [e]) := by
  have hsame : e.lesson = none → ∀ s', s'.ports.map (·.interface) = s.ports.map (·.interface) →
      s'.table.getD .empty = s.table.getD .empty → Reached s₀ s' (events ++ [e]) := by
    intro hl s' hp ht
    refine ⟨hp.trans h.interfaces, ?_⟩
    rw [taught_append, hl, ht]
    exact h.table
  cases e with
  | control text => exact ⟨_, s, rfl, hsame rfl s rfl rfl⟩
  | roster i address =>
    have hi : i.toNat ≤ s.ports.length := h.length ▸ ha.2
    obtain ⟨s', he, hports, htable⟩ := enroll_of_admitted address ha.1 hi
    refine ⟨[], s', ?_, hsame rfl s' hports (by rw [htable])⟩
    show (s.enroll i address).map ([], ·) = _
    rw [he]
    rfl
  | frame i b =>
    have hi : i.toNat ≤ s.ports.length := h.length ▸ ha.2
    cases hl : (Event.frame i b).lesson with
    | none => exact ⟨_, _, forward_of_lesson_none hl ha.1 hi, hsame hl _ rfl rfl⟩
    | some e =>
      obtain ⟨dst, hd⟩ := exists_destination (lesson_frame_eq_some_iff.mp hl).1
      exact ⟨_, _, forward_of_lesson hl hd ha.1 hi, h.relay hl (i.toNat - 1) dst⟩

theorem handler_of_react {e : Event} {ms : List Message} (h : Switch.react e s = .ok (ms, s'))
    (out : Sink) : Tool.handler Switch.react e (s, out) = ((out.sendEach ms).1, s', (out.sendEach ms).2) :=
  Tool.handler_of_ok h out

theorem reached_after (hs : s₀.table = none) (hv : ∀ e ∈ events, s₀.Admits e) (out : Sink) :
    Reached s₀ (after events (s₀, out)).1 events := by
  -- the events are handled from the first one on, and the queue grows at its other end
  suffices h : ∀ seen s out, Reached s₀ s seen → Reached s₀ (after events (s, out)).1 (seen ++ events) by
    refine h [] s₀ out ⟨rfl, ?_⟩
    rw [hs]
    exact LearningTable.holds_empty
  induction events with
  | nil =>
    intro seen s out h
    rw [List.append_nil]
    exact h
  | cons e events ih =>
    intro seen s out h
    obtain ⟨ms, s', hr, hnext⟩ := h.react (hv e (List.mem_cons_self ..))
    have := ih (fun x hx => hv x (List.mem_cons_of_mem _ hx)) _ s' (out.sendEach ms).2 hnext
    rw [List.append_assoc] at this
    rw [after, List.foldl_cons, handler_of_react hr]
    exact this

theorem accepting_after {st : Switch × Sink} (h : st.2.Accepting) (events : List Event) :
    (after events st).2.Accepting := by
  induction events generalizing st with
  | nil => exact h
  | cons e events ih => exact ih (Tool.accepting_of_handler Switch.react e h)

theorem table_of_ofInterfaces {interfaces : List Interface} (h : ofInterfaces interfaces = .ok s₀) :
    s₀.table = none := by
  unfold ofInterfaces at h
  split at h
  · injection h with h
    rw [← h]
  · cases h

theorem Reached.messages_relay (h : Reached s₀ s events) {i : UInt16} {b : Bytes} {e : Entry}
    (he : (Event.frame i b).lesson = some e) (slot : Nat) (dst : MacAddress) {ms : List Message}
    (hms : (s.relay i slot b dst e.address (s.table.getD .empty)).1 = ms) :
    (∀ j, dst.isUnicast = true → LearningTable.find dst (taught (events ++ [.frame i b])) = some j →
      ms = [⟨j, b⟩]) ∧
    (dst.isUnicast = false ∨ LearningTable.find dst (taught (events ++ [.frame i b])) = none →
      ms = copies (s₀.floodPlan slot b) b) := by
  obtain ⟨_, _, _, hi⟩ := lesson_frame_eq_some_iff.mp he
  have hlearn := h.table.learn e.address i
  have htaught : taught (events ++ [.frame i b]) = LearningTable.enqueue (taught events) ⟨e.address, i⟩ := by
    rw [taught_append, he, ← hi]
  have hplan := floodPlan_congr h.interfaces slot b
  rw [htaught, ← hlearn.lookup_eq, ← hplan, ← hms]
  unfold Switch.relay
  constructor
  · intro j hu hj
    simp only [if_pos hu, hj]
  · rintro (hgroup | hunknown)
    · simp only [hgroup, Bool.false_eq_true, if_false]
    · simp only [hunknown, ite_self]

/-- **A frame goes where its history says.** Whatever the switch has been through, a frame with a
source to learn goes unchanged to the interface where its destination was last seen, if the queue
still has it, and is flooded if not; any other frame goes nowhere and teaches nothing. -/
theorem frame_follows_history {interfaces : List Interface} (hs : ofInterfaces interfaces = .ok s₀)
    (hv : ∀ e ∈ events, s₀.Admits e) {ingress : UInt16} {frame : Bytes}
    (hi : s₀.Admits (.frame ingress frame)) {out : Sink} (ho : out.Accepting) :
    ∃ sent s', Switch.react (.frame ingress frame) (after events (s₀, out)).1 = .ok (sent, s') ∧
      ((∀ m ∈ sent, m.Fits) → ∃ out',
        Tool.handler Switch.react (.frame ingress frame) (after events (s₀, out)) = (.ok (), s', out') ∧
          out'.data.toList = (after events (s₀, out)).2.data.toList ++ sent.flatMap Message.toBytes) ∧
      (∀ src dst, Frame.headerSize ≤ frame.length → Frame.source frame = some src →
        src.isUnicast = true → Frame.destination frame = some dst →
        (∀ j, dst.isUnicast = true →
          LearningTable.find dst (taught (events ++ [.frame ingress frame])) = some j →
            sent = [⟨j, frame⟩]) ∧
        (dst.isUnicast = false ∨
          LearningTable.find dst (taught (events ++ [.frame ingress frame])) = none →
            sent = copies (s₀.floodPlan (ingress.toNat - 1) frame) frame)) ∧
      (frame.length < Frame.headerSize ∨
          (∃ src, Frame.source frame = some src ∧ src.isUnicast = false) →
        sent = [] ∧ (s'.table.getD .empty).entries =
          ((after events (s₀, out)).1.table.getD .empty).entries) := by
  have hreached := reached_after (table_of_ofInterfaces hs) hv out
  have hout : (after events (s₀, out)).2.Accepting := accepting_after ho events
  generalize hst : after events (s₀, out) = st at hreached hout
  obtain ⟨s, o⟩ := st
  have hreached : s₀.Reached s events := hreached
  have hadmits : ingress.toNat ≤ s.ports.length := hreached.length ▸ hi.2
  have hsent : ∀ {sent s'}, Switch.react (.frame ingress frame) s = .ok (sent, s') →
      (∀ m ∈ sent, m.Fits) → ∃ out',
        Tool.handler Switch.react (.frame ingress frame) (s, o) = (.ok (), s', out') ∧
          out'.data.toList = o.data.toList ++ sent.flatMap Message.toBytes := by
    intro sent s' hr hfit
    obtain ⟨hok, hdata⟩ := hout.sendEach hfit
    exact ⟨_, by rw [handler_of_react hr, hok], hdata⟩
  cases hl : (Event.frame ingress frame).lesson with
  | none =>
    have hr := forward_of_lesson_none hl hi.1 hadmits
    refine ⟨[], _, hr, hsent hr, ?_, fun _ => ⟨rfl, rfl⟩⟩
    intro src dst hlen hsrc hu _
    have hsome : (Event.frame ingress frame).lesson = some ⟨src, ingress⟩ :=
      lesson_frame_eq_some_iff.mpr ⟨hlen, hsrc, hu, rfl⟩
    rw [hsome] at hl
    cases hl
  | some e =>
    obtain ⟨hlen, hsrc, hu, _⟩ := lesson_frame_eq_some_iff.mp hl
    obtain ⟨dst, hd⟩ := exists_destination hlen
    have hr := forward_of_lesson hl hd hi.1 hadmits
    obtain ⟨sent, s', hrelay⟩ : ∃ sent s', s.relay ingress (ingress.toNat - 1) frame dst e.address
        (s.table.getD .empty) = (sent, s') := ⟨_, _, rfl⟩
    have hmessages := hreached.messages_relay hl (ingress.toNat - 1) dst (congrArg Prod.fst hrelay)
    rw [hrelay] at hr
    refine ⟨sent, s', hr, hsent hr, ?_, ?_⟩
    · intro src dst' _ _ _ hd'
      rw [hd] at hd'
      injection hd' with hd'
      subst hd'
      exact hmessages
    · intro hdrop
      rcases hdrop with hshort | ⟨src, hs', hgroup⟩
      · exact absurd hlen (Nat.not_le.mpr hshort)
      · rw [hsrc] at hs'
        injection hs' with hs'
        subst hs'
        rw [hu] at hgroup
        cases hgroup

def couple : Switch :=
  { ports := [⟨.plain 1 "left", none⟩, ⟨.plain 2 "right", none⟩], length_ports := by decide }

def greet (dst src : MacAddress) : Bytes := dst.toBytes ++ src.toBytes ++ [8, 0]

def station (n : UInt8) : MacAddress := ⟨#v[2, 0, 0, 0, 0, n]⟩

theorem reply_follows_history :
    ofInterfaces [.plain 1 "left", .plain 2 "right"] = .ok couple ∧ ∃ s',
      Switch.react (.frame 1 (greet (station 2) (station 1)))
        (after [.roster 1 (station 1), .control [109, 97, 99], .frame 2 (greet .broadcast (station 2))]
          (couple, {})).1 = .ok ([⟨2, greet (station 2) (station 1)⟩], s') := by
  have hs : ofInterfaces [.plain 1 "left", .plain 2 "right"] = .ok couple := rfl
  have hv : ∀ e ∈ [Event.roster 1 (station 1), .control [109, 97, 99],
      .frame 2 (greet .broadcast (station 2))], couple.Admits e := by
    intro e he
    simp only [List.mem_cons, List.not_mem_nil, or_false] at he
    rcases he with rfl | rfl | rfl
    · exact ⟨by decide, by decide⟩
    · trivial
    · exact ⟨by decide, by decide⟩
  have hi : couple.Admits (.frame 1 (greet (station 2) (station 1))) := ⟨by decide, by decide⟩
  have ho : ({} : Sink).Accepting := ⟨rfl, rfl⟩
  obtain ⟨sent, s', hr, _, hsent, _⟩ := frame_follows_history hs hv hi ho
  have hknown := (hsent (station 1) (station 2) (by decide) (by decide) (by decide) (by decide)).1 2
    (by decide) (by decide)
  refine ⟨hs, s', ?_⟩
  rw [hr, hknown]

end

end Switch

end EtherBench
