import EtherBench.Proofs.Multiplexer.InputAccesses

/-!
# Accesses on the way from the child, and those of the links

Frames and texts are taken off the child's buffer where they lie, and what is
behind them moves to the front. With the links' own steps, every phase can be
carried out in the buffers, and so can every run.
-/

namespace EtherBench.Layout

open Multiplexer (bufferSize InBounds Phase)

section
variable {w : Layout} {i : Nat} {p : Port}

/-! ## The child's output -/

theorem Sound.consume (h : w.Sound) {size : Nat} (hs : size ≤ w.childFilled) :
    ∃ w', Layout.consume size w = some w' ∧
      w'.view = { w.view with childBuffer := w.view.childBuffer.drop size } ∧ w'.Sound ∧
      w'.childFilled = w.childFilled - size ∧ w'.ports = w.ports := by
  obtain ⟨buffer, hcopy, hlen, _, hmoved⟩ :=
    Checked.copyWithin_eq (b := w.childBuffer) (Nat.zero_le size) hs (h.childBuffer.symm ▸ h.childFilled)
  simp only [Layout.consume, hcopy, Option.bind_eq_bind, Option.bind_some]
  rw [Checked.sub_eq hs, Option.bind_some]
  refine ⟨_, rfl, ?_, ⟨h.ports, hlen.trans h.childBuffer, ?_, h.consoleBuffer, h.consoleFilled, h.header⟩,
    rfl, rfl⟩
  · rw [Nat.zero_add, List.take_zero, List.nil_append] at hmoved
    simp only [view, hmoved]
  · exact Nat.le_trans (Nat.sub_le ..) h.childFilled

theorem sendOn_view (frame : Bytes) (p : Port) : Multiplexer.sendOn frame p.view =
    ((Multiplexer.sendOn frame p.link).1, Port.view { p with link := (Multiplexer.sendOn frame p.link).2 }) := by
  have hsends : p.view.sends = p.link.sends := rfl
  unfold Multiplexer.sendOn
  rw [hsends]
  split <;> rfl

theorem Sound.setPort (h : w.Sound) {i : Nat} {p : Port} (hp : p.Sound) :
    Sound { w with ports := w.ports.set i p } := by
  refine ⟨?_, h.childBuffer, h.childFilled, h.consoleBuffer, h.consoleFilled, h.header⟩
  intro q hq
  rcases List.mem_or_eq_of_mem_set hq with hq | rfl
  · exact h.ports q hq
  · exact hp

theorem pendingFrame_eq {job : Outbound} (hstop : job.stop ≤ w.childFilled) :
    w.view.pendingFrame job = (w.childBuffer.take job.stop).drop job.offset := by
  simp only [Multiplexer.pendingFrame, view]
  rw [List.take_take, Nat.min_eq_left hstop]

theorem writeFrame_mirrors : Mirrors InBounds writeFrame Multiplexer.writeFrame := by
  intro w h hb
  have hout : w.view.outbound = w.outbound := rfl
  unfold writeFrame Multiplexer.writeFrame
  rw [hout]
  cases hj : w.outbound with
  | none => exact ⟨w, rfl, rfl, h⟩
  | some job =>
    obtain ⟨hlink, _, hlt, hstop⟩ := hb.outbound job hj
    rw [h.length_childBuffer_view] at hstop
    obtain ⟨p, hp, _, hport⟩ := h.port hlink
    have hfilled := h.childFilled
    have hlen := h.childBuffer
    have hframe := pendingFrame_eq hstop
    have hpending : (w.view.pendingFrame job).length = job.stop - job.offset := by
      rw [hframe, List.length_drop, List.length_take]
      omega
    have hne : w.view.pendingFrame job ≠ [] := by
      intro hnil
      rw [hnil, List.length_nil] at hpending
      omega
    simp only [hp, link_view hp, Option.bind_eq_bind, Option.bind_some]
    rw [Checked.slice_eq (Nat.le_of_lt hlt) (by omega), Option.bind_some, ← hframe, Checked.send_eq hne,
      Option.bind_some, sendOn_view]
    cases hs : Multiplexer.sendOn (w.view.pendingFrame job) p.link with
    | mk report l =>
      have hset := h.setPort (i := job.link) (p := { p with link := l }) ⟨hport.buffer, hport.filled⟩
      cases report with
      | error f => exact ⟨_, rfl, by simp only [view, List.map_set, hj], hset.elsewhere ..⟩
      | ok n =>
        cases n with
        | zero => exact ⟨_, rfl, by simp only [view, List.map_set, hj], hset.elsewhere ..⟩
        | succ n =>
          have hle := (Multiplexer.sent_of_sendOn hs).1
          have hword : bufferSize < UInt64.size := by decide
          simp only
          rw [Checked.add_eq (by omega), Option.bind_some]
          split
          · exact ⟨_, rfl, by simp only [view, List.map_set], hset.elsewhere ..⟩
          · obtain ⟨w', hw', hview, hsound, _⟩ := hset.consume hstop
            rw [hj] at hw'
            rw [hw', Option.bind_some]
            refine ⟨_, rfl, ?_, hsound.elsewhere ..⟩
            show ({ w'.view with
              outbound := none
              statistics := { w'.view.statistics with injected := w'.view.statistics.injected + 1 } } :
                Multiplexer) = _
            rw [hview]
            simp only [view, List.map_set]

theorem readChild_mirrors : Mirrors (·.childBuffer.length < bufferSize) readChild Multiplexer.readChild := by
  intro w h hroom
  rw [h.length_childBuffer_view] at hroom
  have hlen := h.childBuffer
  have houtput : w.view.childOutput = w.childOutput := rfl
  have hrest : (w.childBuffer.drop w.childFilled).length = bufferSize - w.view.childBuffer.length := by
    rw [List.length_drop, hlen, h.length_childBuffer_view]
  have hne : w.childBuffer.drop w.childFilled ≠ [] := by
    intro hnil
    rw [hnil, h.length_childBuffer_view, List.length_nil] at hrest
    omega
  unfold readChild Multiplexer.readChild
  rw [houtput, Checked.slice_to_end (by omega)]
  simp only [Option.bind_eq_bind, Option.bind_some]
  rw [Checked.read_eq hne, Option.bind_some, hrest]
  cases hr : w.childOutput.read (bufferSize - w.view.childBuffer.length) with
  | mk report after =>
    cases report with
    | error f =>
      exact ⟨_, rfl, rfl, h.elsewhere ..⟩
    | ok b =>
      cases b with
      | nil =>
        exact ⟨_, rfl, rfl, h.elsewhere ..⟩
      | cons x b =>
        have hread := Source.length_of_read hr
        rw [h.length_childBuffer_view] at hread
        have hwrite : w.childFilled + (x :: b).length ≤ w.childBuffer.length := by omega
        simp only
        generalize x :: b = got at hread hwrite ⊢
        have hword : bufferSize < UInt64.size := by decide
        have hmore : w.childFilled + got.length ≤ bufferSize := by omega
        rw [Checked.overwrite_eq hwrite, Option.bind_some, Checked.add_eq (by omega), Option.bind_some]
        refine ⟨_, rfl, ?_, h.ports, (Checked.length_overwritten hwrite).trans hlen, hmore, h.consoleBuffer,
          h.consoleFilled, h.header⟩
        simp only [view]
        rw [Checked.take_overwritten hwrite]

theorem print_mirrors {size : Nat} {text : Bytes} (h : w.Sound) (hlo : Message.headerSize ≤ size)
    (hhi : size ≤ w.childFilled) (htext : (w.childBuffer.take size).drop Message.headerSize = text) :
    ∃ w', print size w = some (w', (Multiplexer.print text w.view).2) ∧
      w'.view = (Multiplexer.print text w.view).1 ∧ w'.Sound ∧ w'.childFilled = w.childFilled ∧
      w'.childBuffer = w.childBuffer ∧ w'.ports = w.ports := by
  have hlen := h.childBuffer
  have hfilled := h.childFilled
  have hdisplay : w.view.display = w.display := rfl
  unfold print Multiplexer.print
  rw [Checked.slice_eq hlo (by omega), htext, hdisplay]
  simp only [Option.bind_eq_bind, Option.bind_some]
  cases w.display.writeAll text with
  | mk outcome display =>
    cases outcome with
    | failed f => exact ⟨_, rfl, rfl, h.elsewhere .., rfl, rfl, rfl⟩
    | refused => exact ⟨_, rfl, rfl, h.elsewhere .., rfl, rfl, rfl⟩
    | complete =>
      simp only
      cases display.flushOnce with
      | mk report after =>
        cases report with
        | error f => exact ⟨_, rfl, rfl, h.elsewhere .., rfl, rfl, rfl⟩
        | ok u => exact ⟨_, rfl, rfl, h.elsewhere .., rfl, rfl, rfl⟩

theorem andThen_of_none {first second : Step} {w' : Layout} (h : first w = some (w', none)) :
    first.andThen second w = second w' := by
  rw [Step.andThen, h]

theorem andThen_of_some {first second : Step} {w' : Layout} {e : Ending} (h : first w = some (w', some e)) :
    first.andThen second w = some (w', some e) := by
  rw [Step.andThen, h]

theorem takeMessages_of_outbound (n : Nat) (h : w.outbound.isSome) : takeMessages n w = some (w, none) := by
  cases n with
  | zero => rfl
  | succ n => rw [takeMessages, if_pos h]

def Advances (w : Layout) : Option (Layout × Option Ending) → Prop
  | none => False
  | some (w', some e) => Multiplexer.takeMessages w.view = (w'.view, some e) ∧ w'.Sound
  | some (w', none) =>
    Multiplexer.takeMessages w.view = Multiplexer.takeMessages w'.view ∧ w'.Sound ∧
      w'.ports.length = w.ports.length ∧ (w'.outbound.isSome ∨ w'.childFilled < w.childFilled)

section
variable {s : Message} {rest : Bytes}

theorem Sound.front (h : w.Sound) (hd : Message.decode w.view.childBuffer = .complete s rest) :
    Message.headerSize + s.payload.length ≤ w.childFilled ∧
      (w.childBuffer.take (Message.headerSize + s.payload.length)).drop Message.headerSize = s.payload ∧
      w.view.childBuffer.drop (Message.headerSize + s.payload.length) = rest := by
  obtain ⟨hb, _⟩ := Message.eq_of_decode hd
  have hle : Message.headerSize + s.payload.length ≤ w.childFilled := by
    rw [← h.length_childBuffer_view, Message.length_of_decode hd]
    exact Nat.le_add_right ..
  have hfront : w.childBuffer.take (Message.headerSize + s.payload.length) = s.toBytes := by
    have htake : w.view.childBuffer.take (Message.headerSize + s.payload.length) = s.toBytes := by
      rw [hb, List.take_left' s.length_toBytes]
    simpa only [view, List.take_take, Nat.min_eq_left hle] using htake
  refine ⟨hle, ?_, ?_⟩
  · rw [hfront, s.drop_toBytes]
  · rw [hb, List.drop_left' s.length_toBytes]

theorem Sound.consumeFront (h : w.Sound) (hd : Message.decode w.view.childBuffer = .complete s rest) :
    ∃ w', Layout.consume (Message.headerSize + s.payload.length) w = some w' ∧
      w'.view = { w.view with childBuffer := rest } ∧ w'.Sound ∧ w'.ports = w.ports ∧
      w'.childFilled < w.childFilled := by
  obtain ⟨hle, _, hrest⟩ := h.front hd
  obtain ⟨w', hconsume, hview, hsound, hfilled, hports⟩ := h.consume hle
  rw [hrest] at hview
  refine ⟨w', hconsume, hview, hsound, hports, ?_⟩
  have hheader : 0 < Message.headerSize := by decide
  omega

theorem half_ports (hN : w.ports.length ≤ Message.maxInterfaces) :
    Checked.half w.ports.length = some w.view.linkCount := by
  have hinterfaces : Message.maxInterfaces < UInt16.size := by decide
  rw [Checked.half_eq (by omega), Multiplexer.linkCount, length_links_view]

theorem takeMessage_of_control (h : w.Sound) (hN : w.ports.length ≤ Message.maxInterfaces)
    (hj : w.outbound = none) (hd : Message.decode w.view.childBuffer = .complete s rest)
    (hk : s.kind = Message.control) :
    Advances w (takeMessage (Message.headerSize + s.payload.length) s.kind w) := by
  obtain ⟨hle, htext, _⟩ := h.front hd
  obtain ⟨w', hprint, hview, hsound, hfilled, hbuffer, hports⟩ :=
    print_mirrors h (Nat.le_add_right ..) hle htext
  have htake := Multiplexer.takeMessages_of_complete (m := w.view) hj hd
  rw [if_pos hk] at htake
  simp only [takeMessage, half_ports hN, if_pos hk, hprint, Option.bind_eq_bind, Option.bind_some]
  cases hp : Multiplexer.print s.payload w.view with
  | mk m' e =>
    rw [hp] at hview htake
    subst hview
    cases e with
    | some e => exact ⟨htake, hsound⟩
    | none =>
      have hd' : Message.decode w'.view.childBuffer = .complete s rest := by
        rw [← hd]
        simp only [view, hbuffer, hfilled]
      obtain ⟨w'', hconsume, hview', hsound', hports', hless⟩ := hsound.consumeFront hd'
      simp only [hconsume, Option.bind_some]
      refine ⟨?_, hsound', ?_, .inr (hfilled ▸ hless)⟩
      · rw [htake, hview']
      · rw [hports', hports]

theorem takeMessage_of_frame (h : w.Sound) (hN : w.ports.length ≤ Message.maxInterfaces)
    (hj : w.outbound = none) (hd : Message.decode w.view.childBuffer = .complete s rest)
    (hk : s.kind ≠ Message.control) :
    Advances w (takeMessage (Message.headerSize + s.payload.length) s.kind w) := by
  have htake := Multiplexer.takeMessages_of_complete (m := w.view) hj hd
  rw [if_neg hk] at htake
  simp only [takeMessage, half_ports hN, if_neg hk, Option.bind_eq_bind, Option.bind_some]
  by_cases hunknown : w.view.linkCount < s.kind
  · rw [if_pos hunknown] at htake ⊢
    exact ⟨htake, h⟩
  · rw [if_neg hunknown] at htake ⊢
    by_cases hempty : s.payload = []
    · obtain ⟨w', hconsume, hview, hsound, hports, hless⟩ := h.consumeFront hd
      rw [hempty, List.isEmpty_nil, if_pos rfl] at htake
      have hsize : Message.headerSize + s.payload.length = Message.headerSize := by
        rw [hempty, List.length_nil, Nat.add_zero]
      rw [if_pos hsize, hconsume, Option.bind_some]
      refine ⟨?_, hsound, congrArg List.length hports, .inr hless⟩
      rw [htake, hview]
    · have hpos := List.length_pos_iff.mpr hempty
      have hkind : 1 ≤ s.kind.toNat := Nat.pos_of_ne_zero fun hzero => hk (UInt16.toNat_inj.mp hzero)
      rw [if_neg (by rwa [List.isEmpty_iff])] at htake
      rw [if_neg (by omega), Checked.sub_eq hkind, Option.bind_some]
      refine ⟨?_, h.elsewhere .., rfl, .inl rfl⟩
      rw [htake, Multiplexer.takeMessages_of_outbound rfl]
      rfl

end

/-- **Messages are taken off in place.** Each makes room, so that `n` are enough of them. -/
theorem takeMessages_mirrors (n : Nat) (h : w.Sound) (hN : w.ports.length ≤ Message.maxInterfaces)
    (hn : w.childFilled < n) : Shows (takeMessages n w) (Multiplexer.takeMessages w.view) := by
  induction n generalizing w with
  | zero => cases hn
  | succ n ih =>
    by_cases hout : w.outbound.isSome
    · rw [takeMessages_of_outbound _ hout, Multiplexer.takeMessages_of_outbound hout]
      exact ⟨w, rfl, rfl, h⟩
    · have hj : w.view.outbound = none := Option.not_isSome_iff_eq_none.mp hout
      have hslice : Checked.slice w.childBuffer 0 w.childFilled = some w.view.childBuffer :=
        Checked.slice_eq (Nat.zero_le _) (h.childBuffer.symm ▸ h.childFilled)
      rw [takeMessages, if_neg hout, hslice]
      simp only [Option.bind_eq_bind, Option.bind_some]
      cases hp : Message.Header.parse? w.view.childBuffer with
      | none =>
        have hd : Message.decode w.view.childBuffer = .incomplete := by rw [Message.decode, hp]
        rw [Multiplexer.takeMessages_of_incomplete hj hd]
        exact ⟨w, rfl, rfl, h⟩
      | some header =>
        have hd := Message.decode_of_header hp
        rw [h.length_childBuffer_view] at hd
        simp only
        split
        · rename_i hsmall
          rw [if_pos hsmall] at hd
          rw [Multiplexer.takeMessages_of_malformed hj hd]
          exact ⟨w, rfl, rfl, h⟩
        · rename_i hlo
          rw [if_neg hlo] at hd
          split
          · rename_i hlong
            rw [if_pos hlong] at hd
            rw [Multiplexer.takeMessages_of_incomplete hj hd]
            exact ⟨w, rfl, rfl, h⟩
          · rename_i hhi
            rw [if_neg hhi] at hd
            have hsize : header.size.toNat = Message.headerSize +
                ((w.view.childBuffer.take header.size.toNat).drop Message.headerSize).length := by
              rw [List.length_drop, List.length_take, h.length_childBuffer_view]
              omega
            have hstep : Advances w (takeMessage header.size.toNat header.kind w) := by
              rw [hsize]
              by_cases hk : header.kind = Message.control
              · exact takeMessage_of_control h hN hj hd hk
              · exact takeMessage_of_frame h hN hj hd hk
            cases htake : takeMessage header.size.toNat header.kind w with
            | none =>
              rw [htake] at hstep
              exact hstep.elim
            | some result =>
              obtain ⟨w', e⟩ := result
              rw [htake] at hstep
              cases e with
              | some e =>
                obtain ⟨htaken, hsound⟩ := hstep
                rw [andThen_of_some htake, htaken]
                exact ⟨w', rfl, rfl, hsound⟩
              | none =>
                obtain ⟨htaken, hsound, hports, hnext⟩ := hstep
                rw [andThen_of_none htake, htaken]
                rcases hnext with hout' | hless
                · rw [takeMessages_of_outbound n hout', Multiplexer.takeMessages_of_outbound hout']
                  exact ⟨w', rfl, rfl, hsound⟩
                · exact ih hsound (hports ▸ hN) (by omega)

theorem endOfChild_mirrors : Mirrors (fun _ => True) endOfChild Multiplexer.endOfChild := by
  intro w h _
  have hlen := h.length_childBuffer_view
  have hended : w.view.childEnded = w.childEnded := rfl
  have hout : w.view.outbound = w.outbound := rfl
  unfold endOfChild Multiplexer.endOfChild
  rw [hended, hout, ← hlen]
  split
  · cases hb : w.view.childBuffer with
    | nil => exact ⟨w, rfl, rfl, h⟩
    | cons x b => exact ⟨w, rfl, rfl, h⟩
  · exact ⟨w, rfl, rfl, h⟩

/-! ## The links -/

theorem captureIfReady_mirrors (ready : Readiness) (i : Nat) :
    Mirrors (fun m => InBounds m ∧ i < m.links.length) (captureIfReady ready i)
      (Multiplexer.captureIfReady ready i) := by
  rintro w h ⟨hb, hi⟩
  obtain ⟨p, hp, hmem, hport⟩ := h.port hi
  unfold captureIfReady Multiplexer.captureIfReady Phase.when
  rw [isEmpty_slot_view hport hp, hp]
  simp only [Option.bind_eq_bind, Option.bind_some]
  split
  · rename_i hc
    have hempty : p.filled = 0 := by
      rw [Bool.and_eq_true] at hc
      exact beq_iff_eq.mp hc.2
    have hmtu : p.view.mtu ≤ Link.maxMtu := hb.mtus _ (List.mem_map_of_mem hmem)
    obtain ⟨p', hreceive, hview, hsound⟩ := Port.receive_eq hport hempty hmtu (Nat.lt_of_lt_of_le hi hb.links)
    rw [hreceive, Option.bind_some]
    simp only [Multiplexer.capture, link_view hp]
    refine ⟨_, rfl, ?_, h.setPort hsound⟩
    simp only [view, List.map_set, hview]
  · exact ⟨w, rfl, rfl, h⟩

theorem queueSlot_mirrors (i : Nat) :
    Mirrors (fun m => i < m.links.length) (queueSlot i) (Multiplexer.queueSlot i) := by
  intro w h hi
  obtain ⟨p, hp, _, hport⟩ := h.port hi
  have hinbound : w.view.inbound = w.inbound := rfl
  unfold queueSlot Multiplexer.queueSlot
  rw [isEmpty_slot_view hport hp, hp, hinbound]
  simp only [Option.bind_eq_bind, Option.bind_some, bne]
  split
  · exact ⟨_, rfl, rfl, h.ports, h.childBuffer, h.childFilled, h.consoleBuffer, h.consoleFilled, nofun⟩
  · exact ⟨w, rfl, rfl, h⟩

/-! ## Turns -/

theorem interest_eq (h : w.Sound) (hb : InBounds w.view) : w.interest = some w.view.interest := by
  have hlinks : w.ports.map (·.filled == 0) = w.view.links.map (·.slot.isEmpty) := by
    simp only [view, List.map_map]
    refine List.map_congr_left fun p hp => ?_
    have hlen := (h.ports p hp).length_slot
    simp only [Function.comp, ← hlen]
    cases p.view.slot <;> rfl
  have hout : w.isSending = some w.view.outbound.isSome := by
    have hsame : w.view.outbound = w.outbound := rfl
    unfold isSending
    rw [hsame]
    cases hj : w.outbound with
    | none => rfl
    | some job =>
      obtain ⟨p, hp, _⟩ := h.port (hb.outbound job hj).1
      simp only [hp, Option.map_some, Option.isSome_some]
  simp only [interest, Multiplexer.interest, hout, ← hlinks, h.consoleFilled_view, h.length_childBuffer_view,
    h.consoleBuffer, h.childBuffer, Option.bind_eq_bind, Option.bind_some]
  rfl

end

end EtherBench.Layout
