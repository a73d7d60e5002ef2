import EtherBench.Proofs.Multiplexer.Bounds
import EtherBench.Proofs.Multiplexer.InPlace

/-!
# Accesses on the way to the child

A step on the buffers mirrors a phase if it can be carried out and the filled
parts of the buffers then show what the phase does. The console and the child's
input do so as long as lengths and offsets are within their bounds.
-/

namespace EtherBench.Layout

open Multiplexer (bufferSize InBounds Phase)

/-- Every buffer has its size, is filled no further, and a line on its way has its header in front. -/
structure Sound (w : Layout) : Prop where
  ports : ∀ p ∈ w.ports, p.Sound
  childBuffer : w.childBuffer.length = bufferSize
  childFilled : w.childFilled ≤ bufferSize
  consoleBuffer : w.consoleBuffer.length = bufferSize
  consoleFilled : Message.headerSize ≤ w.consoleFilled ∧ w.consoleFilled ≤ bufferSize
  header : ∀ stop offset, w.inbound = some ⟨.console stop, offset⟩ →
    w.consoleBuffer.take Message.headerSize = (Message.Header.mk (UInt16.ofNat stop) Message.control).toBytes

/-- A result on the buffers shows what a phase comes to. -/
def Shows (r : Option (Layout × Option Ending)) (o : Multiplexer × Option Ending) : Prop :=
  ∃ w, r = some (w, o.2) ∧ w.view = o.1 ∧ w.Sound

/-- Where `P` holds, the step can be carried out and shows the phase. -/
def Mirrors (P : Multiplexer → Prop) (step : Step) (p : Phase) : Prop :=
  ∀ w : Layout, w.Sound → P w.view → Shows (step w) (p w.view)

section
variable {w : Layout} {i : Nat} {p : Port}

/-! ## What the buffers show -/

theorem Sound.consoleFilled_view (h : w.Sound) : w.view.consoleFilled = w.consoleFilled := by
  have := h.consoleFilled
  simp only [Multiplexer.consoleFilled, view, List.length_drop, List.length_take, h.consoleBuffer]
  omega

theorem Sound.length_childBuffer_view (h : w.Sound) : w.view.childBuffer.length = w.childFilled := by
  have := h.childFilled
  simp only [view, List.length_take, h.childBuffer]
  omega

theorem length_links_view (w : Layout) : w.view.links.length = w.ports.length := List.length_map ..

theorem link_view (hp : w.ports[i]? = some p) : w.view.links[i]? = some p.view := by
  simp only [view, List.getElem?_map, hp, Option.map_some]

theorem slot_view (hp : w.ports[i]? = some p) : w.view.slot i = p.buffer.take p.filled :=
  Multiplexer.slot_of_link (link_view hp)

theorem Sound.port (h : w.Sound) (hi : i < w.view.links.length) :
    ∃ p, w.ports[i]? = some p ∧ p ∈ w.ports ∧ p.Sound := by
  have hi' : i < w.ports.length := w.length_links_view ▸ hi
  have hp := List.getElem?_eq_getElem hi'
  have hmem := List.getElem_mem hi'
  exact ⟨_, hp, hmem, h.ports _ hmem⟩

theorem isEmpty_slot_view (h : p.Sound) (hp : w.ports[i]? = some p) :
    (w.view.slot i).isEmpty = (p.filled == 0) := by
  have hlen := h.length_slot
  have hslot : w.view.slot i = p.view.slot := slot_view hp
  rw [hslot, ← hlen]
  cases p.view.slot <;> rfl

/-- The streams, the counts and the frame on its way from the child are no part of the buffers. -/
theorem Sound.elsewhere (h : w.Sound) (console : Option Source) (childInput : Sink) (childOutput : Source)
    (display : Sink) (childEnded : Bool) (outbound : Option Outbound) (statistics : Statistics) :
    Sound { w with console, childInput, childOutput, display, childEnded, outbound, statistics } :=
  ⟨h.ports, h.childBuffer, h.childFilled, h.consoleBuffer, h.consoleFilled, h.header⟩

/-! ## The console -/

theorem readConsole_mirrors : Mirrors (·.consoleFilled < bufferSize) readConsole Multiplexer.readConsole := by
  intro w h hroom
  rw [h.consoleFilled_view] at hroom
  have hlen := h.consoleBuffer
  have hfilled := h.consoleFilled
  have hview : w.view.console = w.console := rfl
  unfold readConsole Multiplexer.readConsole
  rw [hview]
  cases hc : w.console with
  | none => exact ⟨w, rfl, rfl, h⟩
  | some source =>
    have hrest : (w.consoleBuffer.drop w.consoleFilled).length = bufferSize - w.view.consoleFilled := by
      rw [List.length_drop, hlen, h.consoleFilled_view]
    have hne : w.consoleBuffer.drop w.consoleFilled ≠ [] := by
      intro hnil
      rw [hnil, h.consoleFilled_view, List.length_nil] at hrest
      omega
    simp only
    rw [Checked.slice_to_end (by omega)]
    simp only [Option.bind_eq_bind, Option.bind_some]
    rw [Checked.read_eq hne, Option.bind_some, hrest]
    cases hr : source.read (bufferSize - w.view.consoleFilled) with
    | mk report after =>
      cases report with
      | error f =>
        exact ⟨_, rfl, rfl, h.elsewhere ..⟩
      | ok b =>
        cases b with
        | nil =>
          exact ⟨_, rfl, rfl, h.elsewhere ..⟩
        | cons x b =>
          have hread := Source.length_of_read hr
          rw [h.consoleFilled_view] at hread
          have hwrite : w.consoleFilled + (x :: b).length ≤ w.consoleBuffer.length := by omega
          simp only
          generalize x :: b = got at hread hwrite ⊢
          have hword : bufferSize < UInt64.size := by decide
          rw [Checked.overwrite_eq hwrite, Option.bind_some, Checked.add_eq (by omega), Option.bind_some]
          refine ⟨_, rfl, ?_, h.ports, h.childBuffer, h.childFilled,
            (Checked.length_overwritten hwrite).trans hlen, ?_, ?_⟩
          · simp only [view]
            rw [Checked.take_overwritten hwrite, List.drop_append_of_le_length]
            rw [List.length_take]
            omega
          · have hmore : w.consoleFilled + got.length ≤ bufferSize := by omega
            exact ⟨Nat.le_trans hfilled.1 (Nat.le_add_right ..), hmore⟩
          · intro stop offset hj
            rw [List.append_assoc, List.take_append_of_le_length, List.take_take, Nat.min_eq_left hfilled.1]
            · exact h.header stop offset hj
            · rw [List.length_take]
              omega

theorem lineEnd_eq (h : w.Sound) : w.lineEnd = some (Multiplexer.lineEnd w.view) := by
  have hlen := h.consoleBuffer
  have hfilled := h.consoleFilled
  have htyped : w.view.typed.length + Message.headerSize = w.consoleFilled := by
    rw [← h.consoleFilled_view]
    exact Nat.add_comm ..
  have hword : bufferSize < UInt64.size := by decide
  unfold lineEnd Multiplexer.lineEnd
  rw [Checked.slice_eq hfilled.1 (by omega)]
  simp only [Option.bind_eq_bind, Option.bind_some, h.consoleFilled_view, hlen]
  have hview : (w.consoleBuffer.take w.consoleFilled).drop Message.headerSize = w.view.typed := rfl
  rw [hview]
  cases hi : w.view.typed.idxOf? 10 with
  | none => rfl
  | some i =>
    obtain ⟨hlt, _⟩ := List.idxOf?_eq_some_iff.mp hi
    simp only
    rw [Checked.add_eq (by omega), Option.bind_some, Checked.add_eq (by omega), Option.bind_some]

theorem queueLine_mirrors : Mirrors (fun _ => True) queueLine Multiplexer.queueLine := by
  intro w h _
  have hlen := h.consoleBuffer
  have hfilled := h.consoleFilled
  have hinbound : w.view.inbound = w.inbound := rfl
  unfold queueLine Multiplexer.queueLine
  rw [hinbound, lineEnd_eq h]
  cases hj : w.inbound with
  | some job => exact ⟨w, rfl, rfl, h⟩
  | none =>
    simp only [Option.isSome_none, Bool.false_eq_true, if_false, Option.bind_eq_bind, Option.bind_some]
    cases hl : Multiplexer.lineEnd w.view with
    | none => exact ⟨w, rfl, rfl, h⟩
    | some stop =>
      obtain ⟨_, hstop⟩ := Multiplexer.lineEnd_holds hl
      rw [h.consoleFilled_view] at hstop
      have hhalf : bufferSize < UInt16.size := by decide
      have hwrite : ∀ header : Message.Header, 0 + header.toBytes.length ≤ w.consoleBuffer.length := by
        intro header
        rw [header.length_toBytes, hlen]
        decide
      simp only
      rw [Checked.half_eq (by omega), Option.bind_some, Checked.overwrite_eq (hwrite _), Option.bind_some]
      refine ⟨_, rfl, ?_, h.ports, h.childBuffer, h.childFilled,
        (Checked.length_overwritten (hwrite _)).trans hlen, hfilled, ?_⟩
      · -- the header stands in front of the typed text
        simp only [view, List.take_zero, List.nil_append, Nat.zero_add, Message.Header.length_toBytes,
          List.drop_take]
        rw [List.drop_left' (Message.Header.length_toBytes _)]
      · intro stop' offset hj'
        injection hj' with hj'
        injection hj' with ho
        injection ho with ho
        rw [List.take_zero, List.nil_append, List.take_left' (Message.Header.length_toBytes _), ho]

/-! ## The child's input -/

theorem pendingInput_eq (h : w.Sound) (hb : InBounds w.view) {job : Inbound} (hj : w.inbound = some job) :
    w.pendingInput job = some (w.view.pendingInput job) := by
  obtain ⟨o, offset⟩ := job
  cases o with
  | slot i =>
    obtain ⟨hi, hoffset⟩ := hb.frame i offset hj
    obtain ⟨p, hp, _, hport⟩ := h.port hi
    have hslot : w.view.slot i = p.buffer.take p.filled := slot_view hp
    have hfilled : p.filled ≤ p.buffer.length := hport.buffer.symm ▸ hport.filled
    rw [hslot, List.length_take, Nat.min_eq_left hfilled] at hoffset
    simp only [pendingInput, hp, Option.bind_eq_bind, Option.bind_some]
    rw [Checked.slice_eq (Nat.le_of_lt hoffset) hfilled, ← hslot]
    rfl
  | console stop =>
    obtain ⟨hoffset, _, hhi⟩ := hb.line stop offset hj
    rw [h.consoleFilled_view] at hhi
    have hfilled := h.consoleFilled
    have hlen := h.consoleBuffer
    simp only [pendingInput, Multiplexer.pendingInput]
    rw [Checked.slice_eq (Nat.le_of_lt hoffset) (by omega)]
    -- the header that the message starts with is the one in the buffer
    have hfront : w.consoleBuffer.take Message.headerSize =
        (w.consoleBuffer.take w.consoleFilled).take Message.headerSize := by
      rw [List.take_take, Nat.min_eq_left hfilled.1]
    have hmessage : w.view.message (.console stop) = w.consoleBuffer.take stop := by
      simp only [Multiplexer.message, Multiplexer.consoleBuffer, view]
      rw [← h.header stop offset hj, hfront, List.take_append_drop, List.take_take, Nat.min_eq_left hhi]
    rw [hmessage]

theorem Sound.deliverSlot (h : w.Sound) (i : Nat) (childInput : Sink) :
    ∃ w', delivered (.slot i) { w with childInput } = some w' ∧
      w'.view = Multiplexer.delivered (.slot i) { w.view with childInput } ∧ w'.Sound := by
  refine ⟨_, rfl, ?_, ?_, h.childBuffer, h.childFilled, h.consoleBuffer, h.consoleFilled, nofun⟩
  · simp only [view, Multiplexer.delivered]
    rw [map_modify (k := fun l : Link => { l with slot := [] }) fun _ => rfl]
  · intro p hp
    obtain ⟨j, hj, rfl⟩ := List.mem_iff_getElem.mp hp
    have hj' : j < w.ports.length := by simpa using hj
    have hport := h.ports _ (List.getElem_mem hj')
    rw [List.getElem_modify]
    split
    · exact ⟨hport.buffer, Nat.zero_le _⟩
    · exact hport

theorem Sound.deliverLine (h : w.Sound) {stop : Nat} (hlo : Message.headerSize ≤ stop)
    (hhi : stop ≤ w.consoleFilled) (childInput : Sink) :
    ∃ w', delivered (.console stop) { w with childInput } = some w' ∧
      w'.view = Multiplexer.delivered (.console stop) { w.view with childInput } ∧ w'.Sound := by
  have hfilled := h.consoleFilled
  obtain ⟨buffer, hcopy, hlen, _, hmoved⟩ :=
    Checked.copyWithin_eq (b := w.consoleBuffer) hlo hhi (h.consoleBuffer.symm ▸ hfilled.2)
  have hleft : w.consoleFilled - (stop - Message.headerSize) =
      Message.headerSize + (w.consoleFilled - stop) := by omega
  simp only [delivered, hcopy, Option.bind_eq_bind, Option.bind_some]
  rw [Checked.sub_eq hlo, Option.bind_some, Checked.sub_eq (by omega), Option.bind_some]
  refine ⟨_, rfl, ?_, h.ports, h.childBuffer, h.childFilled, hlen.trans h.consoleBuffer, ?_, nofun⟩
  · have hhead : (w.consoleBuffer.take Message.headerSize).length = Message.headerSize := by
      rw [List.length_take, h.consoleBuffer]
      decide
    simp only [view, Multiplexer.delivered]
    rw [hleft, hmoved, List.drop_left' hhead, List.drop_drop, Nat.add_sub_cancel' hlo]
  · show Message.headerSize ≤ w.consoleFilled - _ ∧ w.consoleFilled - _ ≤ bufferSize
    omega

theorem Sound.deliver (h : w.Sound) (hb : InBounds w.view) {job : Inbound} (hj : w.inbound = some job)
    (childInput : Sink) : ∃ w', delivered job.origin { w with childInput } = some w' ∧
      w'.view = Multiplexer.delivered job.origin { w.view with childInput } ∧ w'.Sound := by
  obtain ⟨o, offset⟩ := job
  cases o with
  | slot i => exact h.deliverSlot i childInput
  | console stop =>
    obtain ⟨_, hlo, hhi⟩ := hb.line stop offset hj
    rw [h.consoleFilled_view] at hhi
    exact h.deliverLine (Nat.le_of_lt hlo) hhi childInput

theorem writeInput_mirrors : Mirrors InBounds writeInput Multiplexer.writeInput := by
  intro w h hb
  have hinbound : w.view.inbound = w.inbound := rfl
  have hinput : w.view.childInput = w.childInput := rfl
  unfold writeInput Multiplexer.writeInput
  rw [hinbound, hinput]
  cases hj : w.inbound with
  | none => exact ⟨w, rfl, rfl, h⟩
  | some job =>
    obtain ⟨hne, hend⟩ := hb.pendingInput hj
    have hheader := h.header
    rw [hj] at hheader
    simp only [pendingInput_eq h hb hj, Option.bind_eq_bind, Option.bind_some]
    rw [Checked.write_eq hne, Option.bind_some]
    cases hw : w.childInput.write (w.view.pendingInput job) with
    | mk report after =>
      cases report with
      | error f =>
        exact ⟨_, rfl, by rw [← hj]; rfl, h.ports, h.childBuffer, h.childFilled, h.consoleBuffer, h.consoleFilled, hheader⟩
      | ok n =>
        cases n with
        | zero =>
          exact ⟨_, rfl, by rw [← hj]; rfl, h.ports, h.childBuffer, h.childFilled, h.consoleBuffer, h.consoleFilled,
            hheader⟩
        | succ n =>
          have hle := Sink.le_of_write hw
          have hword : bufferSize < UInt64.size := by decide
          simp only
          rw [Checked.add_eq (by omega), Option.bind_some]
          split
          · refine ⟨_, rfl, rfl, h.ports, h.childBuffer, h.childFilled, h.consoleBuffer, h.consoleFilled, ?_⟩
            intro stop offset hj'
            injection hj' with hj'
            injection hj' with ho
            obtain ⟨o, before⟩ := job
            simp only at ho
            subst ho
            exact h.header stop before hj
          · obtain ⟨w', hw', hview, hsound⟩ := h.deliver hb hj after
            rw [hj] at hw'
            rw [hw', Option.bind_some]
            refine ⟨w', rfl, hview.trans ?_, hsound⟩
            rw [← hj]
            rfl

end

end EtherBench.Layout
