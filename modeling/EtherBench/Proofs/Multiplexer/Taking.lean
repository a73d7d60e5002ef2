import EtherBench.Proofs.Multiplexer.Carried

/-!
# Taking messages off the child's buffer

What a read brings goes behind what is buffered. Whole messages come off the
front and take effect, until a frame sets out or what is left is no whole
message. Only the display can cut one short.
-/

namespace EtherBench.Multiplexer

/-- The operator's console took less than it was given. -/
def DisplayFailed (e : Option Ending) : Prop := ∃ f, e = some (.failed (.fault "write console" f))

/-- The display has taken only a part of the text at the front of the buffer; else all is as after
the messages `ms`. -/
def CutShort (m₀ m : Multiplexer) (ms : List Message) : Prop :=
  ∃ display text rest part, Carried m₀ { m with display } ms ∧
    Message.decode m.childBuffer = .complete ⟨Message.control, text⟩ rest ∧ part <+: text ∧
    m.display.data.toList = display.data.toList ++ part ∧ m.display.flushed = display.flushed

def TookMore (m₀ m m' : Multiplexer) (e : Option Ending) (ms : List Message) : Prop :=
  ∃ more, Counted m m' more ∧
    (DisplayFailed e ∧ CutShort m₀ m' (ms ++ more) ∨ Carried m₀ m' (ms ++ more) ∧ Told m' e)

section
variable {m₀ m m' : Multiplexer} {ms : List Message}

/-! ## Reads -/

theorem readChild_told (m m' : Multiplexer) : Told m' (readChild m).2 := by
  unfold readChild
  split
  · exact told_stopAt ..
  · trivial
  · trivial

theorem readChild_counted (m : Multiplexer) : Counted m (readChild m).1 [] := by
  unfold readChild
  split <;> exact ⟨rfl, rfl, rfl⟩

theorem readChild_carried (h : Carried m₀ m ms) (hopen : m.childEnded = false)
    (hroom : m.childBuffer.length < bufferSize) : Carried m₀ (readChild m).1 ms := by
  have hstream := h.stream
  rw [hopen] at hstream
  unfold readChild
  split
  · rename_i f source hr
    refine ⟨h.whole, h.known, ?_, h.room, h.display, h.links, h.front, h.sent⟩
    rw [hopen, Source.stream_of_read_error hr]
    exact hstream
  · rename_i source hr
    refine ⟨h.whole, h.known, ?_, h.room, h.display, h.links, h.front, h.sent⟩
    rw [hstream, Source.stream_of_read_nil (Nat.sub_pos_of_lt hroom) hr]
    rfl
  · rename_i b source hb hr
    have hlen := Source.length_of_read hr
    refine ⟨h.whole, h.known, ?_, ?_, h.display, h.links, ?_, ?_⟩
    · have hne : b ≠ [] := fun hnil => hb hnil
      rw [hopen, hstream, Source.stream_of_read hr hne]
      simp only [List.append_assoc]
      rfl
    · rw [List.length_append]
      omega
    · intro job hj
      obtain ⟨s, rest, hd, hjob⟩ := h.front job hj
      exact ⟨s, rest ++ b, Message.decode_append_of_complete hd b, hjob⟩
    · intro i l hl
      have hbegun : ({ m with childOutput := source, childBuffer := m.childBuffer ++ b } : Multiplexer).begunOn i =
          m.begunOn i := by
        unfold begunOn
        cases hj : m.outbound with
        | none => rfl
        | some job =>
          obtain ⟨s, rest, hd, _, _, hstop, _, hhi⟩ := h.front job hj
          have := Message.length_of_decode hd
          simp only
          split
          · rw [List.drop_append_of_le_length (by omega), List.take_append_of_le_length]
            rw [List.length_drop]
            omega
          · rfl
      rw [hbegun]
      exact h.sent i l hl

/-! ## Messages -/

theorem Carried.consume (h : Carried m₀ m ms) (hN : m₀.links.length ≤ Message.maxInterfaces)
    (hj : m.outbound = none) {s : Message} {rest : Bytes} (hd : Message.decode m.childBuffer = .complete s rest)
    (hk : s.kind.toNat ≤ m₀.links.length) {display : Sink} {statistics : Statistics}
    (hs : s.kind = Message.control ∧ display.data.toList = m.display.data.toList ++ s.payload ∨
      s.kind ≠ Message.control ∧ s.payload = [] ∧ display = m.display) :
    Carried m₀ { m with display, statistics, childBuffer := rest } (ms ++ [s]) := by
  obtain ⟨hb, hfits⟩ := Message.eq_of_decode hd
  refine ⟨?_, ?_, ?_, ?_, ?_, h.links, ?_, ?_⟩
  · exact List.forall_mem_append.mpr ⟨h.whole, List.forall_mem_singleton.mpr hfits⟩
  · exact List.forall_mem_append.mpr ⟨h.known, List.forall_mem_singleton.mpr hk⟩
  · rw [h.stream, hb, List.flatMap_append, List.flatMap_singleton]
    simp only [List.append_assoc]
  · have := h.room
    rw [hb, List.length_append] at this
    exact Nat.le_trans (Nat.le_add_left ..) this
  · rw [Message.payloadsOf_append, List.flatten_append, ← h.display]
    rcases hs with ⟨hc, hs⟩ | ⟨hc, _, hs⟩
    · rw [Message.payloadsOf_self hc, hs]
      exact congrArg _ (List.append_nil _).symm
    · rw [Message.payloadsOf_other hc, hs]
      exact (List.append_nil _).symm
  · intro job hjob
    have hjob : m.outbound = some job := hjob
    rw [hj] at hjob
    cases hjob
  · intro i l hl
    have hi : i < Message.maxInterfaces := h.lt_max hN hl
    have hnone : framesFor i [s] = [] := by
      rcases hs with ⟨hc, _⟩ | ⟨_, hp, _⟩
      · refine framesFor_other ?_
        rw [hc]
        exact Message.control_ne_kind hi
      · exact framesFor_empty hp
    rw [framesFor_append, hnone, List.append_nil]
    have := h.sent i l hl
    simp only [begunOn, hj] at this ⊢
    exact this

theorem Carried.start (h : Carried m₀ m ms) (hj : m.outbound = none) {s : Message} {rest : Bytes}
    (hd : Message.decode m.childBuffer = .complete s rest) (hc : s.kind ≠ Message.control)
    (hk : s.kind.toNat ≤ m₀.links.length) (hp : s.payload ≠ []) :
    Carried m₀ { m with
      outbound :=
        some ⟨s.kind.toNat - 1, Message.headerSize, Message.headerSize + s.payload.length⟩ } ms := by
  have hpos : 0 < s.kind.toNat := by
    refine Nat.pos_of_ne_zero fun h₀ => hc ?_
    exact UInt16.toNat_inj.mp h₀
  refine ⟨h.whole, h.known, h.stream, h.room, h.display, h.links, ?_, ?_⟩
  · intro job hjob
    injection hjob with hjob
    subst hjob
    refine ⟨s, rest, hd, ?_, ?_, rfl, Nat.le_refl _, ?_⟩
    · rw [Nat.sub_add_cancel hpos, UInt16.ofNat_toNat]
    · have := h.links
      show s.kind.toNat - 1 < m.links.length
      omega
    · exact Nat.lt_add_of_pos_right (List.length_pos_iff.mpr hp)
  · intro i l hl
    have := h.sent i l hl
    simp only [begunOn, hj, Nat.sub_self, List.take_zero, ite_self] at this ⊢
    exact this

theorem displayFailed_of_print {text : Bytes} {e : Ending} (h : print text m = (m', some e)) :
    DisplayFailed (some e) ∧ ∃ display part, m' = { m with display } ∧ part <+: text ∧
      display.data.toList = m.display.data.toList ++ part ∧ display.flushed = m.display.flushed := by
  obtain ⟨part, hpart, hdata, hflushed⟩ := Sink.exists_part_of_writeAll m.display text
  unfold print at h
  split at h
  · rename_i f display hw
    injection h with h he
    rw [hw] at hdata hflushed
    exact ⟨⟨f, he.symm⟩, display, part, h.symm, hpart, hdata, hflushed⟩
  · rename_i display hw
    injection h with h he
    rw [hw] at hdata hflushed
    exact ⟨⟨Fault.incompleteWrite, he.symm⟩, display, part, h.symm, hpart, hdata, hflushed⟩
  · rename_i display hw
    rw [hw] at hdata hflushed
    split at h
    · -- all of the text is there, but the flush behind it has failed
      rename_i f display' hf
      injection h with h he
      have hflush := Sink.data_of_flushOnce (s := display)
      have hcount := Sink.flushed_of_flushOnce (s := display)
      rw [hf] at hflush hcount
      refine ⟨⟨f, he.symm⟩, display', part, h.symm, hpart, ?_, hcount.trans hflushed⟩
      rw [hflush]
      exact hdata
    · cases h

theorem display_of_print {text : Bytes} (h : print text m = (m', none)) :
    ∃ display statistics, m' = { m with display, statistics } ∧
      display.data.toList = m.display.data.toList ++ text ∧
      display.flushed = m.display.flushed + 1 ∧
      statistics = { m.statistics with consoleMessages := m.statistics.consoleMessages + 1 } := by
  obtain ⟨_, _, _, hflushed⟩ := Sink.exists_part_of_writeAll m.display text
  unfold print at h
  split at h
  · cases h
  · cases h
  · rename_i display hw
    rw [hw] at hflushed
    split at h
    · cases h
    · rename_i display' hf
      injection h with h _
      subst h
      have hflush := Sink.data_of_flushOnce (s := display)
      have hcount := Sink.flushed_of_flushOnce (s := display)
      rw [hf] at hflush hcount
      refine ⟨_, _, rfl, ?_, ?_, rfl⟩
      · rw [hflush]
        exact Sink.data_of_writeAll hw
      · rw [hcount, hflushed]
        rfl

theorem kind_le_of_not_lt (hl : m.links.length = m₀.links.length) {kind : UInt16}
    (h : ¬ m.linkCount < kind) : kind.toNat ≤ m₀.links.length := by
  have hle : kind.toNat ≤ m.linkCount.toNat := UInt16.not_lt.mp h
  rw [linkCount, UInt16.toNat_ofNat', hl] at hle
  exact Nat.le_trans hle (Nat.mod_le ..)

theorem takeMessages_of_outbound (h : m.outbound.isSome) : takeMessages m = (m, none) := by
  rw [takeMessages, if_pos h]

theorem takeMessages_of_incomplete (hj : m.outbound = none) (hd : Message.decode m.childBuffer = .incomplete) :
    takeMessages m = (m, none) := by
  rw [takeMessages, hj, if_neg (by simp)]
  split <;> simp_all

theorem takeMessages_of_malformed {size : Nat} (hj : m.outbound = none)
    (hd : Message.decode m.childBuffer = .malformed size) :
    takeMessages m = (m, some (.failed (.sizeBelowHeader size))) := by
  rw [takeMessages, hj, if_neg (by simp)]
  split <;> simp_all

theorem takeMessages_of_complete {s : Message} {rest : Bytes} (hj : m.outbound = none)
    (hd : Message.decode m.childBuffer = .complete s rest) :
    takeMessages m =
      if s.kind = Message.control then
        match print s.payload m with
        | (m', some e) => (m', some e)
        | (m', none) => takeMessages { m' with childBuffer := rest }
      else if m.linkCount < s.kind then (m, some (.failed (.unknownInterface s.kind m.linkCount)))
      else if s.payload.isEmpty then takeMessages { m with childBuffer := rest }
      else
        ({ m with
            outbound := some
              ⟨s.kind.toNat - 1, Message.headerSize, Message.headerSize + s.payload.length⟩ }, none) := by
  rw [takeMessages, hj, if_neg (by simp)]
  split
  · simp_all
  · simp_all
  · rename_i h
    rw [hd] at h
    injection h with hs hrest
    subst hs hrest
    rfl

theorem decode_of_takeMessages (m : Multiplexer) (he : (takeMessages m).2 = none)
    (hn : (takeMessages m).1.outbound = none) :
    Message.decode (takeMessages m).1.childBuffer = .incomplete := by
  fun_induction takeMessages m with
  | case1 m hsome =>
    rw [hn] at hsome
    cases hsome
  | case2 m _ hd => exact hd
  | case3 => cases he
  | case4 => cases he
  | case5 _ _ _ _ _ _ _ ih => exact ih he hn
  | case6 => cases he
  | case7 _ _ _ _ _ _ _ _ _ ih => exact ih he hn
  | case8 => cases hn

theorem Carried.took_none {e : Option Ending} (h : Carried m₀ m' ms) (hc : Counted m m' [])
    (ht : Told m' e) : TookMore m₀ m m' e ms := by
  refine ⟨[], hc, .inr ⟨?_, ht⟩⟩
  rwa [List.append_nil]

theorem TookMore.after {m'' : Multiplexer} {e : Option Ending} {s : Message}
    (h : TookMore m₀ m' m'' e (ms ++ [s])) (hc : Counted m m' [s]) : TookMore m₀ m m'' e ms := by
  obtain ⟨more, hmore, hends⟩ := h
  rw [List.append_assoc] at hends
  exact ⟨_, hc.trans hmore, hends⟩

/-- **Messages take effect in order, and are counted,** until a frame sets out or no whole message is
left. -/
theorem takeMessages_took (hN : m₀.links.length ≤ Message.maxInterfaces) (h : Carried m₀ m ms) :
    TookMore m₀ m (takeMessages m).1 (takeMessages m).2 ms := by
  -- each message taken joins `ms`, which is why it is not fixed
  fun_induction takeMessages m generalizing ms with
  | case1 m => exact h.took_none (.refl m) trivial
  | case2 m => exact h.took_none (.refl m) trivial
  | case3 m hnone size hd =>
    have hnone := Option.not_isSome_iff_eq_none.mp hnone
    exact h.took_none (.refl m) ⟨hnone, hd⟩
  | case4 m _ text rest m' e hp hd =>
    obtain ⟨hfailed, display, part, rfl, hpart, hdata, hflushed⟩ := displayFailed_of_print hp
    refine ⟨[], ⟨rfl, rfl, hflushed⟩, .inl ⟨hfailed, m.display, text, rest, part, ?_, hd, hpart, hdata,
      hflushed⟩⟩
    rw [List.append_nil]
    exact h
  | case5 m hnone text rest m' hp hd ih =>
    have hnone := Option.not_isSome_iff_eq_none.mp hnone
    obtain ⟨display, statistics, rfl, hs, hflushed, rfl⟩ := display_of_print hp
    refine (ih (h.consume hN hnone hd (Nat.zero_le _) (.inl ⟨rfl, hs⟩))).after ?_
    exact ⟨rfl, rfl, hflushed⟩
  | case6 m hnone kind payload rest hd hc hlt =>
    have hnone := Option.not_isSome_iff_eq_none.mp hnone
    exact h.took_none (.refl m) ⟨hnone, rfl, hlt, payload, rest, hd⟩
  | case7 m hnone kind payload rest hd hc hlt hempty ih =>
    have hnone := Option.not_isSome_iff_eq_none.mp hnone
    have hp := List.isEmpty_iff.mp hempty
    refine (ih (h.consume hN hnone hd (kind_le_of_not_lt h.links hlt) (.inr ⟨hc, hp, rfl⟩))).after ?_
    refine ⟨?_, ?_, ?_⟩
    · simp [frameCount, hp]
    · simp [textCount, hc]
    · simp [textCount, hc]
  | case8 m hnone kind payload rest hd hc hlt hne =>
    have hnone := Option.not_isSome_iff_eq_none.mp hnone
    have hstart := h.start hnone hd hc (kind_le_of_not_lt h.links hlt)
      (fun hp => hne (List.isEmpty_iff.mpr hp))
    exact hstart.took_none ⟨rfl, rfl, rfl⟩ trivial

theorem endOfChild_told (h : m.outbound = none → Message.decode m.childBuffer = .incomplete) :
    (endOfChild m).1 = m ∧ Told m (endOfChild m).2 := by
  unfold endOfChild
  split
  · rename_i hc
    rw [Bool.and_eq_true, Option.isNone_iff_eq_none] at hc
    obtain ⟨hended, hnone⟩ := hc
    split
    · rename_i hb
      exact ⟨rfl, hended, hnone, hb⟩
    · rename_i b hb
      refine ⟨rfl, hended, hnone, h hnone, rfl, ?_⟩
      exact List.length_pos_iff.mpr hb
  · exact ⟨rfl, trivial⟩

end

end EtherBench.Multiplexer
