import EtherBench.Multiplexer.Step
import EtherBench.Proofs.Message.Stream

/-!
# What a link receives

A receive takes the first arrival of its link. It ends the run, or leaves the
slot as it is, or puts the whole frame there as a message of the link. So every
arrival up to now is accounted for by frames that have left the slot and the
one that is still there.
-/

namespace EtherBench

/-- The frame that a receive hands over, its tag back in where both addresses are there. -/
def Arrival.content : Arrival → Option Bytes
  | .frame b tag =>
    let received := b.take Multiplexer.captureRoom
    match tag with
    | some t =>
      if Tag.offset ≤ received.length then
        some (received.take Tag.offset ++ t.toBytes ++ received.drop Tag.offset)
      else some received
    | none => some received
  | _ => none

def Arrival.ending (l : Link) : Arrival → Option Ending
  | .fault f => Multiplexer.stopAt "receive frame on link" f
  | .foreign _ => none
  | .frame b tag =>
    let limit := Link.frameLimit l.mtu
    let n := (((Arrival.frame b tag).content).getD []).length
    if (b.take Multiplexer.captureRoom).isEmpty then some (.failed (.linkClosed l.name))
    else if limit < n then some (.failed (.frameExceedsMtu l.name n limit))
    else none

def Link.held (l : Link) : List Bytes :=
  if l.slot.isEmpty then [] else [l.slot.drop Message.headerSize]

/-- What a link that was `l₀` has received makes up `frames`. Its last arrival is left out
where it ended the run. -/
structure Link.Took (l₀ l : Link) (e : Option Ending) (frames : List Bytes) : Prop where
  name : l.name = l₀.name
  mtu : l.mtu = l₀.mtu
  received : ∃ got last, l₀.arrivals = got ++ last ++ l.arrivals ∧
    (∀ a ∈ got, a.ending l₀ = none) ∧
    (last = [] ∨ ∃ a x, last = [a] ∧ a.ending l₀ = some x ∧ e = some x) ∧
    frames = got.filterMap Arrival.content

theorem Link.Took.ends {l₀ l : Link} {frames : List Bytes} (h : Link.Took l₀ l none frames)
    (e : Option Ending) : Link.Took l₀ l e frames := by
  obtain ⟨hn, hm, got, last, ha, hg, hl, hf⟩ := h
  refine ⟨hn, hm, got, last, ha, hg, ?_, hf⟩
  rcases hl with hl | ⟨_, _, _, _, he⟩
  · exact .inl hl
  · cases he

namespace Multiplexer

theorem content_frame (frame : Bytes) (tag : Option Tag) :
    (Arrival.frame frame tag).content = some (restoreTag (frame.take captureRoom) tag) := by
  cases tag with
  | none => rfl
  | some t =>
    simp only [Arrival.content, restoreTag, Frame.insertTag]
    by_cases h : Tag.offset ≤ (frame.take captureRoom).length
    · rw [if_pos h, if_neg (Nat.not_lt.mpr h)]
      rfl
    · rw [if_neg h, if_pos (Nat.lt_of_not_le h)]
      rfl

/-- With room for a tag left in the buffer, every frame makes a message. -/
theorem length_content {a : Arrival} {f : Bytes} (h : a.content = some f) :
    f.length ≤ Message.maxPayload := by
  cases a with
  | foreign _ => cases h
  | fault _ => cases h
  | frame frame tag =>
    have hroom : captureRoom + Tag.size = Message.maxPayload := rfl
    have hr : (frame.take captureRoom).length ≤ captureRoom := List.length_take_le ..
    rw [content_frame, Option.some.injEq] at h
    subst h
    generalize frame.take captureRoom = b at hr
    cases tag with
    | none =>
      simp only [restoreTag]
      omega
    | some t =>
      simp only [restoreTag, Frame.insertTag]
      split
      · simp only [Option.getD_none]
        omega
      · simp only [Option.getD_some, List.length_append, Tag.toBytes, Bytes.length_ofWord,
          List.length_take, List.length_drop, Tag.size] at hroom ⊢
        omega

/-- The slot of a link after an arrival that does not end the run. -/
def filled (i : Nat) (slot : Bytes) (a : Arrival) : Bytes :=
  match a.content with
  | some f => Message.toBytes ⟨UInt16.ofNat (i + 1), f⟩
  | none => slot

theorem receive_of_arrivals (i : Nat) {l : Link} {a : Arrival} {rest : List Arrival}
    (h : l.arrivals = a :: rest) :
    receive i l =
      ({ l with
          arrivals := rest
          slot := if (a.ending l).isNone then filled i l.slot a else l.slot }, a.ending l) := by
  unfold receive
  rw [h]
  cases a with
  | foreign _ => rfl
  | fault f => simp [Arrival.ending, filled, Arrival.content]
  | frame frame tag =>
    simp only [Arrival.ending, content_frame, Option.getD_some, filled]
    cases hb : frame.take captureRoom with
    | nil => rfl
    | cons x b =>
      simp only [List.isEmpty_cons, Bool.false_eq_true, if_false]
      split <;> rfl

theorem receive_of_no_arrivals (i : Nat) {l : Link} (h : l.arrivals = []) : receive i l = (l, none) := by
  unfold receive
  rw [h]

theorem slot_of_receive (i : Nat) {l : Link} (hs : l.slot = []) (hne : (receive i l).1.slot ≠ []) :
    ∃ s : Message, s.Fits ∧ s.kind = UInt16.ofNat (i + 1) ∧ (receive i l).1.slot = s.toBytes := by
  cases har : l.arrivals with
  | nil =>
    rw [receive_of_no_arrivals i har] at hne
    exact absurd hs hne
  | cons a rest =>
    rw [receive_of_arrivals i har] at hne ⊢
    simp only at hne ⊢
    by_cases he : (a.ending l).isNone
    · rw [if_pos he, filled] at hne ⊢
      cases hc : a.content with
      | none =>
        rw [hc] at hne
        exact absurd hs hne
      | some f => exact ⟨⟨UInt16.ofNat (i + 1), f⟩, length_content hc, rfl, rfl⟩
    · rw [if_neg he] at hne
      exact absurd hs hne

end Multiplexer

section
variable {l₀ l : Link} {frames : List Bytes}

theorem Link.held_of_empty (h : l.slot = []) : l.held = [] := by
  rw [Link.held, h]
  rfl

theorem Link.held_of_message {s : Message} (h : l.slot = s.toBytes) : l.held = [s.payload] := by
  have hne : s.toBytes.isEmpty = false := List.isEmpty_eq_false_iff.mpr s.toBytes_ne_nil
  rw [Link.held, h, hne, s.drop_toBytes]
  rfl

theorem Arrival.ending_congr (hname : l.name = l₀.name) (hmtu : l.mtu = l₀.mtu) (a : Arrival) :
    a.ending l = a.ending l₀ := by
  cases a with
  | frame b tag => simp only [Arrival.ending, hname, hmtu]
  | foreign _ => rfl
  | fault _ => rfl

/-- **A receive into an empty slot** takes one arrival, and its frame is held unless the run ends. -/
theorem Link.Took.receive (h : Link.Took l₀ l none frames) (hs : l.slot = []) (i : Nat) :
    Link.Took l₀ (Multiplexer.receive i l).1 (Multiplexer.receive i l).2
      (frames ++ (Multiplexer.receive i l).1.held) := by
  obtain ⟨hname, hmtu, got, last, ha, hg, hlast, hf⟩ := h
  rcases hlast with rfl | ⟨_, _, _, _, he⟩
  · rw [List.append_nil] at ha
    cases har : l.arrivals with
    | nil =>
      rw [Multiplexer.receive_of_no_arrivals i har, held_of_empty hs, List.append_nil]
      exact ⟨hname, hmtu, got, [], by rw [ha, List.append_nil], hg, .inl rfl, hf⟩
    | cons a rest =>
      have hend := Arrival.ending_congr hname hmtu a
      rw [Multiplexer.receive_of_arrivals i har, hend]
      cases he : a.ending l₀ with
      | some x =>
        refine ⟨hname, hmtu, got, [a], ?_, hg, .inr ⟨a, x, rfl, he, rfl⟩, ?_⟩
        · rw [ha, har, List.append_assoc]
          rfl
        · rw [held_of_empty (by exact hs), List.append_nil, hf]
      | none =>
        refine ⟨hname, hmtu, got ++ [a], [], ?_, ?_, .inl rfl, ?_⟩
        · rw [ha, har, List.append_nil, List.append_assoc]
          rfl
        · intro b hb
          rcases List.mem_append.mp hb with hb | hb
          · exact hg b hb
          · rw [List.mem_singleton.mp hb]
            exact he
        · rw [List.filterMap_append, ← hf]
          cases hc : a.content with
          | none =>
            have hslot : Multiplexer.filled i l.slot a = [] := by
              rw [Multiplexer.filled, hc, hs]
            rw [held_of_empty (by exact hslot)]
            simp [hc]
          | some f =>
            have hslot : Multiplexer.filled i l.slot a = Message.toBytes ⟨UInt16.ofNat (i + 1), f⟩ := by
              rw [Multiplexer.filled, hc]
            rw [held_of_message (by exact hslot)]
            simp [hc]
  · cases he

end

end EtherBench
