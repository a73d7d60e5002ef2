import EtherBench.Proofs.Multiplexer.Statistics

/-!
# Where lengths and offsets stay

A buffer holds one largest message, and what is kept in it never outgrows it.
What is on its way lies within the filled part of its buffer, and something of
it is always left.
-/

namespace EtherBench

theorem Link.Took.ne_nil {l₀ l : Link} {e : Option Ending} {frames : List Bytes}
    (h : Link.Took l₀ l e frames) : ∀ f ∈ frames, f ≠ [] := by
  obtain ⟨_, _, got, _, _, hgot, _, rfl⟩ := h
  intro f hf hnil
  obtain ⟨a, ha, hc⟩ := List.mem_filterMap.mp hf
  have hend := hgot a ha
  cases a with
  | fault _ => cases hc
  | foreign _ => cases hc
  | frame b tag =>
    -- an empty frame would have ended the run
    have hempty : (b.take Multiplexer.captureRoom).isEmpty = false := by
      cases hb : (b.take Multiplexer.captureRoom).isEmpty with
      | false => rfl
      | true => simp [Arrival.ending, hb] at hend
    rw [Multiplexer.content_frame, Option.some.injEq, hnil] at hc
    cases tag with
    | none =>
      simp only [Multiplexer.restoreTag] at hc
      simp [hc] at hempty
    | some t =>
      simp only [Multiplexer.restoreTag, Frame.insertTag] at hc
      split at hc
      · simp only [Option.getD_none] at hc
        simp [hc] at hempty
      · simp [Tag.toBytes, Bytes.ofWord] at hc

namespace Multiplexer

/-- Lengths and offsets are where the buffers have room for them, and something is left of whatever
is on its way. -/
structure InBounds (m : Multiplexer) : Prop where
  links : m.links.length ≤ Message.maxInterfaces
  mtus : ∀ l ∈ m.links, l.mtu ≤ Link.maxMtu
  console : Message.headerSize ≤ m.consoleFilled ∧ m.consoleFilled ≤ bufferSize
  child : m.childBuffer.length ≤ bufferSize
  slots : ∀ i, m.slot i = [] ∨ Message.headerSize < (m.slot i).length ∧ (m.slot i).length ≤ bufferSize
  frame : ∀ i offset, m.inbound = some ⟨.slot i, offset⟩ →
    i < m.links.length ∧ offset < (m.slot i).length
  line : ∀ stop offset, m.inbound = some ⟨.console stop, offset⟩ →
    offset < stop ∧ Message.headerSize < stop ∧ stop ≤ m.consoleFilled
  outbound : ∀ job, m.outbound = some job → job.link < m.links.length ∧
    Message.headerSize ≤ job.offset ∧ job.offset < job.stop ∧ job.stop ≤ m.childBuffer.length

section
variable {m₀ m m₁ : Multiplexer} {e : Option Ending} {ms ms' : List Message}

theorem Fed.length_slot (h : Fed m₀ m e ms) {i : Nat} (hi : m.slot i ≠ []) :
    Message.headerSize < (m.slot i).length ∧ (m.slot i).length ≤ bufferSize := by
  obtain ⟨hfits, hslot⟩ := h.framed.slots i hi
  have hlt := lt_length_of_slot hi
  have hl := List.getElem?_eq_getElem hlt
  have hlt₀ : i < m₀.links.length := h.links ▸ hlt
  have ht := h.frames i _ _ (List.getElem?_eq_getElem hlt₀) hl
  have hheld : (m.waiting (.slot i)).payload ∈ m.links[i].held := by
    have hslot : m.links[i].slot = (m.waiting (.slot i)).toBytes := (slot_of_link hl).symm.trans hslot
    rw [Link.held_of_message hslot]
    exact List.mem_singleton_self _
  have hpos := List.length_pos_iff.mpr (ht.ne_nil _ (List.mem_append_right _ hheld))
  rw [hslot, Message.length_toBytes]
  simp only [Message.Fits, Message.maxPayload, bufferSize] at hfits ⊢
  omega

theorem Fed.mtu_le (h : Fed m₀ m e ms) (hmtu : ∀ l ∈ m₀.links, l.mtu ≤ Link.maxMtu) :
    ∀ l ∈ m.links, l.mtu ≤ Link.maxMtu := by
  intro l hl
  obtain ⟨i, hi, rfl⟩ := List.mem_iff_getElem.mp hl
  have hi₀ : i < m₀.links.length := h.links ▸ hi
  rw [(h.frames i _ _ (List.getElem?_eq_getElem hi₀) (List.getElem?_eq_getElem hi)).mtu]
  exact hmtu _ (List.getElem_mem hi₀)

theorem length_message_console {stop : Nat} (h : m.Holds (.console stop)) :
    (m.message (.console stop)).length = stop := by
  obtain ⟨_, hle⟩ := h
  simp only [consoleFilled] at hle
  rw [message, consoleBuffer, List.length_take, List.length_append, Message.Header.length_toBytes]
  omega

/-- What is known of both directions puts everything within its bounds, whatever has become of the
display. -/
theorem inBounds_of_fed (hN : m₀.links.length ≤ Message.maxInterfaces)
    (hmtu : ∀ l ∈ m₀.links, l.mtu ≤ Link.maxMtu) (hf : Fed m₀ m e ms) {display : Sink}
    (hc : Carried m₀ { m with display } ms') : InBounds m := by
  refine ⟨hf.links ▸ hN, hf.mtu_le hmtu, ⟨Nat.le_add_right .., hf.framed.typed⟩, hc.room, ?_, ?_, ?_, ?_⟩
  · intro i
    by_cases hi : m.slot i = []
    · exact .inl hi
    · exact .inr (hf.length_slot hi)
  · intro i offset hj
    obtain ⟨hh, ho⟩ := hf.framed.inbound _ hj
    exact ⟨lt_length_of_slot hh, ho⟩
  · intro stop offset hj
    obtain ⟨hh, ho⟩ := hf.framed.inbound _ hj
    rw [length_message_console hh] at ho
    exact ⟨ho, hh⟩
  · intro job hj
    obtain ⟨s, rest, hd, _, hlink, hstop, hlo, hhi⟩ := hc.front job hj
    have hlen : m.childBuffer.length = _ := Message.length_of_decode hd
    refine ⟨hlink, hlo, hhi, ?_⟩
    rw [hlen, hstop]
    exact Nat.le_add_right ..

theorem InBounds.pendingInput (h : InBounds m) {job : Inbound} (hj : m.inbound = some job) :
    m.pendingInput job ≠ [] ∧ job.offset + (m.pendingInput job).length ≤ bufferSize := by
  have hmessage : job.offset < (m.message job.origin).length ∧ (m.message job.origin).length ≤ bufferSize := by
    obtain ⟨o, offset⟩ := job
    cases o with
    | slot i =>
      obtain ⟨_, hoffset⟩ := h.frame i offset hj
      rcases h.slots i with hempty | ⟨_, hle⟩
      · rw [hempty] at hoffset
        cases hoffset
      · exact ⟨hoffset, hle⟩
    | console stop =>
      obtain ⟨hoffset, hlo, hhi⟩ := h.line stop offset hj
      rw [length_message_console ⟨hlo, hhi⟩]
      exact ⟨hoffset, Nat.le_trans hhi h.console.2⟩
  have hlen : (m.pendingInput job).length = (m.message job.origin).length - job.offset := List.length_drop
  constructor
  · intro hnil
    rw [hnil, List.length_nil] at hlen
    omega
  · omega

theorem mtu_le_of_checkMtu {l : Link} (h : Link.checkMtu l.name l.mtu = .ok l.mtu) : l.mtu ≤ Link.maxMtu := by
  unfold Link.checkMtu at h
  split at h
  · rename_i hm
    exact hm.2
  · cases h

end

end Multiplexer

end EtherBench
