import EtherBench.Proofs.Multiplexer.Layout
import EtherBench.Proofs.Stream.Transfer

/-!
# Received in place

A transfer that has something to move has a result. A frame is received behind
the room for a header; its tag, if it had one, and the header are put in where it
lies.
-/

namespace EtherBench

open Multiplexer (bufferSize)

namespace Checked

section
variable {b : Bytes}

/-- Where there is room, a read that brings nothing has found the end of the stream. -/
theorem read_eq {room : Bytes} (h : room ≠ []) (s : Source) : read room s = some (s.read room.length) := by
  unfold read
  rw [if_neg (by simpa using h)]
  split
  · rename_i after hr
    have hover : s.isOver = true := by
      unfold Source.read at hr
      unfold Source.isOver
      split at hr
      · rename_i hs
        rw [hs]
      · cases hr
      · rename_i d rest hs
        rw [hs]
        split at hr
        · injection hr with hr _
          injection hr with hr
          rw [hr]
          rfl
        · rename_i left hleft
          injection hr with hr _
          injection hr with hr
          rcases List.take_eq_nil_iff.mp hr with hzero | hd
          · exact absurd (List.length_eq_zero_iff.mp hzero) h
          · rw [hd]
            rfl
    rw [if_pos hover, hr]
  · rfl

theorem write_eq (h : b ≠ []) (s : Sink) : write b s = some (s.write b) := by
  obtain ⟨ws, fs, data, flushed⟩ := s
  have hlen := List.length_pos_iff.mpr h
  unfold write
  rw [if_neg (by simpa using h)]
  split
  · rename_i after hw
    rw [hw]
    refine if_pos ?_
    cases ws with
    | nil =>
      injection hw with hw _
      injection hw with hw
      omega
    | cons w ws =>
      cases w with
      | accept k =>
        injection hw with hw _
        injection hw with hw
        obtain rfl : k = 0 := by omega
        rfl
      | fault f => cases hw
  · rfl

theorem send_eq (h : b ≠ []) (l : Link) : send b l = some (Multiplexer.sendOn b l) := by
  have hlen := List.length_pos_iff.mpr h
  unfold send
  rw [if_neg (by simpa using h)]
  split
  · rename_i after hs
    rw [hs]
    refine if_pos ?_
    unfold Multiplexer.sendOn at hs
    split at hs
    · injection hs with hs _
      injection hs with hs
      omega
    · rename_i hl
      rw [hl]
      rfl
    · rename_i k _ hk hl
      injection hs with hs _
      injection hs with hs
      have : k ≠ 0 := fun hk₀ => hk hk₀
      omega
    · cases hs
  · rfl

end

end Checked

/-! ## Slots -/

namespace Port

structure Sound (p : Port) : Prop where
  buffer : p.buffer.length = bufferSize
  filled : p.filled ≤ bufferSize

section
variable {p : Port} {buffer frame : Bytes} {i : Nat}

theorem Sound.length_slot (h : p.Sound) : p.view.slot.length = p.filled := by
  show (p.buffer.take p.filled).length = _
  rw [List.length_take, h.buffer]
  exact Nat.min_eq_left h.filled

theorem restoreTag_eq (hb : buffer.length = bufferSize) (hf : frame.length ≤ Multiplexer.captureRoom)
    (hfront : (buffer.drop Message.headerSize).take frame.length = frame) (tag : Option Tag) :
    ∃ buffer', restoreTag buffer frame.length tag =
        some ((Multiplexer.restoreTag frame tag).length, buffer') ∧
      buffer'.length = bufferSize ∧
      (buffer'.drop Message.headerSize).take (Multiplexer.restoreTag frame tag).length =
        Multiplexer.restoreTag frame tag := by
  cases tag with
  | none => exact ⟨buffer, rfl, hb, hfront⟩
  | some t =>
    have hroom : frame.length + Tag.size + Message.headerSize ≤ bufferSize := by
      simp only [Multiplexer.captureRoom, bufferSize, Message.maxSize, Tag.size, Message.headerSize] at hf ⊢
      omega
    have hplace : (buffer.drop Message.headerSize).length = bufferSize - Message.headerSize := by
      rw [List.length_drop, hb]
    unfold restoreTag Multiplexer.restoreTag
    rw [Checked.slice_to_end (by omega)]
    simp only [Option.bind_eq_bind, Option.bind_some, Checked.insertTag_eq]
    cases hin : Frame.insertTagIn (buffer.drop Message.headerSize) frame.length t with
    | none =>
      -- there is room, so the frame is too short
      have hshort := Frame.insertTagIn_eq_none_iff.mp hin
      have hnone : Frame.insertTag frame t = none := if_pos (by omega)
      rw [hnone]
      exact ⟨buffer, rfl, hb, hfront⟩
    | some r =>
      obtain ⟨m, placed⟩ := r
      obtain ⟨hcopy, hbehind⟩ := Frame.insertTag_of_insertTagIn hin
      rw [hfront] at hcopy
      have hm : m = frame.length + Tag.size := (Frame.insertTagIn_eq_some_iff.mp hin).2.1
      have hlen := Frame.length_insertTag hcopy
      have hplaced : placed.length = bufferSize - Message.headerSize := by
        have hrest := congrArg List.length hbehind
        rw [List.length_drop, List.length_drop, hplace] at hrest
        rw [List.length_take] at hlen
        omega
      have hwrite : Message.headerSize + placed.length ≤ buffer.length := by omega
      have hhead : (buffer.take Message.headerSize).length = Message.headerSize := by
        rw [List.length_take]
        omega
      simp only [hcopy, Option.getD_some]
      rw [Checked.overwrite_eq hwrite, Option.bind_some, hlen, ← hm]
      refine ⟨_, rfl, (Checked.length_overwritten hwrite).trans hb, ?_⟩
      rw [List.append_assoc, List.drop_left' hhead, List.take_append_of_le_length (by omega)]

theorem complete_eq (hb : p.buffer.length = bufferSize) (hmtu : p.link.mtu ≤ Link.maxMtu)
    (hi : i < Message.maxInterfaces)
    (hfront : (p.buffer.drop Message.headerSize).take frame.length = frame) :
    if Link.frameLimit p.link.mtu < frame.length then
      complete i frame.length p =
        some (p, some (.failed (.frameExceedsMtu p.link.name frame.length (Link.frameLimit p.link.mtu))))
    else
      ∃ buffer, complete i frame.length p =
          some ({ p with buffer, filled := Message.headerSize + frame.length }, none) ∧
        buffer.length = bufferSize ∧ buffer.take (Message.headerSize + frame.length) =
          (Message.Header.mk (UInt16.ofNat (Message.headerSize + frame.length)) (UInt16.ofNat (i + 1))).toBytes ++
            frame := by
  have hmax : Link.maxMtu = 65513 := rfl
  have hinterfaces : Message.maxInterfaces = 10921 := rfl
  have hheader : Message.headerSize = 4 := rfl
  have hframe : Frame.headerSize = 14 := rfl
  have htag : Tag.size = 4 := rfl
  have hword : UInt64.size = 18446744073709551616 := rfl
  have hhalf : UInt16.size = 65536 := rfl
  unfold complete
  rw [Link.frameLimit_eq hmtu, Checked.add_eq (by omega)]
  simp only [Option.bind_eq_bind, Option.bind_some]
  rw [Checked.add_eq (by omega), Option.bind_some]
  split
  · rfl
  · have hwrite : ∀ h : Message.Header, 0 + h.toBytes.length ≤ p.buffer.length := by
      intro h
      rw [h.length_toBytes, hb]
      decide
    rw [Checked.add_eq (by omega), Option.bind_some, Checked.half_eq (by omega), Option.bind_some,
      Checked.half_eq (by omega), Option.bind_some, Checked.overwrite_eq (hwrite _), Option.bind_some]
    refine ⟨_, rfl, (Checked.length_overwritten (hwrite _)).trans hb, ?_⟩
    rw [List.take_zero, List.nil_append, Nat.zero_add, Message.Header.length_toBytes, List.take_append,
      Message.Header.length_toBytes, Nat.add_sub_cancel_left, hfront, List.take_of_length_le]
    exact Nat.le_add_right ..

/-- **A receive into a buffer** does what a receive into an empty slot does. -/
theorem receive_eq (h : p.Sound) (hempty : p.filled = 0) (hmtu : p.link.mtu ≤ Link.maxMtu)
    (hi : i < Message.maxInterfaces) :
    ∃ p', p.receive i = some (p', (Multiplexer.receive i p.view).2) ∧
      p'.view = (Multiplexer.receive i p.view).1 ∧ p'.Sound := by
  have hb := h.buffer
  have hsize : bufferSize = 65535 := rfl
  have hheader : Message.headerSize = 4 := rfl
  have htag : Tag.size = 4 := rfl
  have hroom : ((p.buffer.take (bufferSize - Tag.size)).drop Message.headerSize).length =
      Multiplexer.captureRoom := by
    rw [List.length_drop, List.length_take, hb]
    rfl
  unfold receive Multiplexer.receive
  rw [hb, Checked.sub_eq (by decide)]
  simp only [Option.bind_eq_bind, Option.bind_some]
  rw [Checked.slice_eq (by decide) (by omega), Option.bind_some, if_neg, hroom]
  · have hview : p.view.arrivals = p.link.arrivals := rfl
    rw [hview]
    cases har : p.link.arrivals with
    | nil => exact ⟨p, rfl, rfl, h⟩
    | cons a arrivals =>
      cases a with
      | fault f => exact ⟨_, rfl, rfl, h.buffer, h.filled⟩
      | foreign _ => exact ⟨_, rfl, rfl, h.buffer, h.filled⟩
      | frame frame tag =>
        simp only
        cases hf : frame.take Multiplexer.captureRoom with
        | nil =>
          have hnil : frame = [] := (List.take_eq_nil_iff.mp hf).resolve_left (by decide)
          rw [hnil]
          exact ⟨_, rfl, rfl, h.buffer, h.filled⟩
        | cons x rest =>
          have hle : (x :: rest).length ≤ Multiplexer.captureRoom := hf ▸ List.length_take_le ..
          have hwrite : Message.headerSize + (x :: rest).length ≤ p.buffer.length := by
            simp only [Multiplexer.captureRoom] at hle
            omega
          simp only
          generalize x :: rest = got at hle hwrite ⊢
          rw [Checked.overwrite_eq hwrite, Option.bind_some]
          have hbuffer := (Checked.length_overwritten hwrite).trans hb
          have hhead : (p.buffer.take Message.headerSize).length = Message.headerSize := by
            rw [List.length_take]
            omega
          have hgot : ((p.buffer.take Message.headerSize ++ got ++
              p.buffer.drop (Message.headerSize + got.length)).drop Message.headerSize).take got.length = got := by
            rw [List.append_assoc, List.drop_left' hhead, List.take_left]
          obtain ⟨buffer, hrestored, hlen, hfront⟩ := restoreTag_eq hbuffer hle hgot tag
          rw [hrestored, Option.bind_some]
          have hcomplete := complete_eq (p := { p with link := { p.link with arrivals }, buffer }) hlen hmtu hi hfront
          have hmtu' : p.view.mtu = p.link.mtu := rfl
          simp only [hmtu'] at hcomplete ⊢
          split at hcomplete
          · rename_i hlimit
            rw [if_pos hlimit, hcomplete]
            refine ⟨_, rfl, ?_, hlen, h.filled⟩
            simp only [view, hempty, List.take_zero]
          · rename_i hlimit
            obtain ⟨buffer', hcomplete, hlen', hmessage⟩ := hcomplete
            rw [if_neg hlimit, hcomplete]
            refine ⟨_, rfl, ?_, hlen', ?_⟩
            · simp only [view, hmessage]
            · have hfilled := congrArg List.length hmessage
              rw [List.length_append, Message.Header.length_toBytes, List.length_take, hlen'] at hfilled
              show Message.headerSize + _ ≤ bufferSize
              omega
  · rw [List.isEmpty_iff]
    intro hnil
    rw [hnil] at hroom
    cases hroom

end

end Port

end EtherBench
