import EtherBench.Proofs.Multiplexer.Directions
import EtherBench.Proofs.Multiplexer.Points

/-!
# What has been carried from the child

Of the messages that the child writes some have taken effect: texts are shown,
frames are with their links. One more frame may be on its way. It stays at the
front of the buffer until its link has taken all of it, in as many pieces as the
link takes.
-/

namespace EtherBench

/-- A link has sent `frames`, each in one or more pieces, and then `begun` of one more. -/
def Link.Sent (l : Link) (frames : List Bytes) (begun : Bytes) : Prop :=
  ∃ (whole : List (List Bytes)) (part : List Bytes),
    l.sent.toList = whole.flatten ++ part ∧ whole.map List.flatten = frames ∧
    part.flatten = begun ∧ (begun = [] → part = [])

section
variable {l l' : Link} {frames : List Bytes} {begun piece : Bytes}

theorem Link.Sent.of_eq (h : l.Sent frames begun) (hs : l'.sent = l.sent) : l'.Sent frames begun := by
  unfold Link.Sent
  rw [hs]
  exact h

theorem Link.Sent.more (h : l.Sent frames begun) (hs : l'.sent.toList = l.sent.toList ++ [piece])
    (hp : piece ≠ []) : l'.Sent frames (begun ++ piece) := by
  obtain ⟨whole, part, ha, hw, hb, _⟩ := h
  refine ⟨whole, part ++ [piece], ?_, hw, ?_, ?_⟩
  · rw [hs, ha, List.append_assoc]
  · rw [List.flatten_append, hb]
    exact congrArg _ (List.append_nil _)
  · intro hn
    exact absurd (List.append_eq_nil_iff.mp hn).2 hp

theorem Link.Sent.finish (h : l.Sent frames begun) : l.Sent (frames ++ [begun]) [] := by
  obtain ⟨whole, part, ha, hw, hb, _⟩ := h
  refine ⟨whole ++ [part], [], ?_, ?_, rfl, fun _ => rfl⟩
  · rw [ha, List.flatten_append, List.append_nil]
    exact congrArg _ (List.append_nil _).symm
  · rw [List.map_append, hw, ← hb]
    rfl

end

namespace Multiplexer

def begunOn (i : Nat) (m : Multiplexer) : Bytes :=
  match m.outbound with
  | none => []
  | some job =>
    if job.link = i then (m.childBuffer.drop Message.headerSize).take (job.offset - Message.headerSize)
    else []

def framesFor (i : Nat) (ms : List Message) : List Bytes :=
  (Message.payloadsOf (UInt16.ofNat (i + 1)) ms).filter (!·.isEmpty)

/-- The messages `ms` of the child's have taken effect in a run from `m₀`, and nothing else has but
what was sent of the frame at the front of the buffer. -/
structure Carried (m₀ m : Multiplexer) (ms : List Message) : Prop where
  whole : ∀ s ∈ ms, s.Fits
  known : ∀ s ∈ ms, s.kind.toNat ≤ m₀.links.length
  stream : m₀.childOutput.stream = ms.flatMap Message.toBytes ++ m.childBuffer ++
    if m.childEnded then [] else m.childOutput.stream
  room : m.childBuffer.length ≤ bufferSize
  display : m.display.data.toList = (Message.payloadsOf Message.control ms).flatten
  links : m.links.length = m₀.links.length
  front : ∀ job, m.outbound = some job → ∃ s rest, Message.decode m.childBuffer = .complete s rest ∧
    s.kind = UInt16.ofNat (job.link + 1) ∧ job.link < m.links.length ∧
    job.stop = Message.headerSize + s.payload.length ∧ Message.headerSize ≤ job.offset ∧
    job.offset < job.stop
  sent : ∀ i (l : Link), m.links[i]? = some l → l.Sent (framesFor i ms) (m.begunOn i)

def Told (m : Multiplexer) : Option Ending → Prop
  | some .childClosed => m.childEnded = true ∧ m.outbound = none ∧ m.childBuffer = []
  | some (.failed (.childClosedMidMessage n)) =>
    m.childEnded = true ∧ m.outbound = none ∧ Message.decode m.childBuffer = .incomplete ∧
      m.childBuffer.length = n ∧ 0 < n
  | some (.failed (.sizeBelowHeader size)) =>
    m.outbound = none ∧ Message.decode m.childBuffer = .malformed size
  | some (.failed (.unknownInterface kind count)) =>
    m.outbound = none ∧ count = m.linkCount ∧ count < kind ∧
      ∃ payload rest, Message.decode m.childBuffer = .complete ⟨kind, payload⟩ rest
  | _ => True

def frameCount (ms : List Message) : Nat :=
  ms.countP fun s => s.kind ≠ Message.control ∧ s.payload ≠ []

def textCount (ms : List Message) : Nat := ms.countP (·.kind = Message.control)

structure Counted (m m' : Multiplexer) (more : List Message) : Prop where
  injected : m'.statistics.injected = m.statistics.injected + frameCount more
  consoleMessages : m'.statistics.consoleMessages = m.statistics.consoleMessages + textCount more
  flushed : m'.display.flushed = m.display.flushed + textCount more

section
variable {m₀ m m' : Multiplexer} {ms : List Message}

theorem framesFor_append (i : Nat) (ms ms' : List Message) :
    framesFor i (ms ++ ms') = framesFor i ms ++ framesFor i ms' := by
  rw [framesFor, Message.payloadsOf_append, List.filter_append]
  rfl

theorem framesFor_other {i : Nat} {s : Message} (h : s.kind ≠ UInt16.ofNat (i + 1)) :
    framesFor i [s] = [] := by
  rw [framesFor, Message.payloadsOf_other h]
  rfl

theorem framesFor_empty {i : Nat} {s : Message} (h : s.payload = []) : framesFor i [s] = [] := by
  by_cases hk : s.kind = UInt16.ofNat (i + 1)
  · rw [framesFor, Message.payloadsOf_self hk, h]
    rfl
  · exact framesFor_other hk

theorem framesFor_self {i : Nat} {s : Message} (h : s.kind = UInt16.ofNat (i + 1)) (hp : s.payload ≠ []) :
    framesFor i [s] = [s.payload] := by
  rw [framesFor, Message.payloadsOf_self h, List.filter_cons_of_pos (by simpa using hp)]
  rfl

theorem frameCount_append (ms ms' : List Message) :
    frameCount (ms ++ ms') = frameCount ms + frameCount ms' := List.countP_append

theorem textCount_append (ms ms' : List Message) :
    textCount (ms ++ ms') = textCount ms + textCount ms' := List.countP_append

theorem Counted.refl (m : Multiplexer) : Counted m m [] := ⟨rfl, rfl, rfl⟩

theorem Counted.trans {m'' : Multiplexer} {more more' : List Message} (h : Counted m m' more)
    (h' : Counted m' m'' more') : Counted m m'' (more ++ more') := by
  refine ⟨?_, ?_, ?_⟩
  · rw [h'.injected, h.injected, frameCount_append, Nat.add_assoc]
  · rw [h'.consoleMessages, h.consoleMessages, textCount_append, Nat.add_assoc]
  · rw [h'.flushed, h.flushed, textCount_append, Nat.add_assoc]

theorem Counted.of_outward (h : SameOutward m m') : Counted m m' [] :=
  ⟨h.injected, h.consoleMessages, congrArg Sink.flushed h.display⟩

theorem begunOn_of_outward (h : SameOutward m m') (i : Nat) : m'.begunOn i = m.begunOn i := by
  rw [begunOn, begunOn, h.outbound, h.childBuffer]

theorem Carried.of_outward (h : Carried m₀ m ms) (hs : SameOutward m m') : Carried m₀ m' ms := by
  have hlen := length_eq_of_map_eq hs.links
  refine ⟨h.whole, h.known, ?_, ?_, ?_, hlen.trans h.links, ?_, ?_⟩
  · rw [hs.childBuffer, hs.childEnded, hs.childOutput]
    exact h.stream
  · rw [hs.childBuffer]
    exact h.room
  · rw [hs.display]
    exact h.display
  · rw [hs.outbound, hs.childBuffer, hlen]
    exact h.front
  · intro i l' hl'
    obtain ⟨l, hl, he⟩ := exists_of_map_eq hs.links hl'
    have hsent : l'.outward.sent = l.outward.sent := congrArg Link.sent he
    rw [begunOn_of_outward hs]
    exact (h.sent i l hl).of_eq hsent

theorem told_stopAt (m : Multiplexer) (activity : String) (f : Fault) : Told m (stopAt activity f) := by
  unfold stopAt
  split <;> trivial

/-! ## Frames -/

theorem sent_of_sendOn {frame : Bytes} {l l' : Link} {n : Nat} (h : sendOn frame l = (.ok n, l')) :
    n ≤ frame.length ∧
      (0 < n → l'.sent.toList = l.sent.toList ++ [frame.take n]) ∧
      (n = 0 → frame ≠ [] → l'.sent = l.sent) := by
  unfold sendOn at h
  split at h
  · injection h with h₁ h₂
    injection h₁ with h₁
    subst h₁ h₂
    refine ⟨Nat.le_refl _, ?_, ?_⟩
    · intro _
      simp
    · intro h₀ hne
      exact absurd (List.length_eq_zero_iff.mp h₀) hne
  · injection h with h₁ h₂
    injection h₁ with h₁
    subst h₁ h₂
    refine ⟨Nat.zero_le _, fun h => absurd h (Nat.lt_irrefl 0), fun _ _ => rfl⟩
  · rename_i k _ hk _
    injection h with h₁ h₂
    injection h₁ with h₁
    subst h₁ h₂
    refine ⟨Nat.min_le_right .., ?_, ?_⟩
    · intro _
      rw [List.take_eq_take_min]
      simp
    · intro h₀ hne
      have hpos := List.length_pos_iff.mpr hne
      have hk₀ : k ≠ 0 := by
        intro hk₀
        exact hk hk₀
      omega
  · cases h

theorem sent_of_sendOn_error {frame : Bytes} {l l' : Link} {f : Fault}
    (h : sendOn frame l = (.error f, l')) : l'.sent = l.sent := by
  unfold sendOn at h
  split at h
  · cases h
  · cases h
  · cases h
  · injection h with _ h
    rw [← h]

theorem Carried.lt_max (h : Carried m₀ m ms) (hN : m₀.links.length ≤ Message.maxInterfaces) {i : Nat}
    {l : Link} (hl : m.links[i]? = some l) : i < Message.maxInterfaces := by
  have hi := (List.getElem?_eq_some_iff.mp hl).1
  have := h.links
  omega

theorem Carried.unsent (h : Carried m₀ m ms) {i : Nat} {l l' : Link} (hl : m.links[i]? = some l)
    (hs : l'.sent = l.sent) : Carried m₀ { m with links := m.links.set i l' } ms := by
  have hlen : (m.links.set i l').length = m.links.length := List.length_set
  refine ⟨h.whole, h.known, h.stream, h.room, h.display, hlen.trans h.links, ?_, ?_⟩
  · intro job hj
    show ∃ s rest, _ ∧ _ ∧ job.link < (m.links.set i l').length ∧ _
    rw [hlen]
    exact h.front job hj
  · intro j x hx
    show x.Sent _ (m.begunOn j)
    by_cases hij : i = j
    · subst hij
      rw [List.getElem?_set_self (List.getElem?_eq_some_iff.mp hl).1] at hx
      injection hx with hx
      subst hx
      exact (h.sent i l hl).of_eq hs
    · rw [List.getElem?_set_ne hij] at hx
      exact h.sent j x hx

theorem take_add_pendingFrame {job : Outbound} {n : Nat} (hlo : Message.headerSize ≤ job.offset)
    (hn : job.offset + n ≤ job.stop) :
    (m.childBuffer.drop Message.headerSize).take (job.offset + n - Message.headerSize) =
      (m.childBuffer.drop Message.headerSize).take (job.offset - Message.headerSize) ++
        (m.pendingFrame job).take n := by
  have hsub : job.offset + n - Message.headerSize = job.offset - Message.headerSize + n := by omega
  have hoff : Message.headerSize + (job.offset - Message.headerSize) = job.offset := by omega
  have hmin : min n (job.stop - job.offset) = n := by omega
  rw [hsub, List.take_add, List.drop_drop, hoff, pendingFrame, List.drop_take, List.take_take, hmin]

theorem Carried.length_pendingFrame (h : Carried m₀ m ms) {job : Outbound} (hj : m.outbound = some job) :
    (m.pendingFrame job).length = job.stop - job.offset ∧ job.offset < job.stop := by
  obtain ⟨s, rest, hd, _, _, hstop, _, hhi⟩ := h.front job hj
  have hlen := Message.length_of_decode hd
  refine ⟨?_, hhi⟩
  rw [pendingFrame, List.length_drop, List.length_take, Nat.min_eq_left]
  omega

theorem Carried.pendingFrame_ne_nil (h : Carried m₀ m ms) {job : Outbound} (hj : m.outbound = some job) :
    m.pendingFrame job ≠ [] := by
  have hp := h.length_pendingFrame hj
  intro hnil
  rw [hnil, List.length_nil] at hp
  omega

theorem Carried.advance (h : Carried m₀ m ms) {job : Outbound} (hj : m.outbound = some job)
    {l l' : Link} (hl : m.links[job.link]? = some l) {n : Nat} (hn : 0 < n)
    (hs : l'.sent.toList = l.sent.toList ++ [(m.pendingFrame job).take n])
    (hlt : job.offset + n < job.stop) :
    Carried m₀ { m with
      links := m.links.set job.link l'
      outbound := some { job with offset := job.offset + n } } ms := by
  have hlen : (m.links.set job.link l').length = m.links.length := List.length_set
  obtain ⟨s, rest, hd, hk, hlink, hstop, hlo, hhi⟩ := h.front job hj
  refine ⟨h.whole, h.known, h.stream, h.room, h.display, hlen.trans h.links, ?_, ?_⟩
  · intro job' hjob
    injection hjob with hjob
    subst hjob
    refine ⟨s, rest, hd, hk, ?_, hstop, Nat.le_trans hlo (Nat.le_add_right ..), hlt⟩
    show job.link < (m.links.set job.link l').length
    rwa [hlen]
  · intro j x hx
    by_cases hij : job.link = j
    · subst hij
      rw [List.getElem?_set_self hlink] at hx
      injection hx with hx
      subst hx
      have hne : (m.pendingFrame job).take n ≠ [] := by
        intro hnil
        rcases List.take_eq_nil_iff.mp hnil with hzero | hpend
        · exact Nat.ne_of_gt hn hzero
        · exact h.pendingFrame_ne_nil hj hpend
      have := (h.sent job.link l hl).more hs hne
      simp only [begunOn, hj, if_true] at this ⊢
      rwa [take_add_pendingFrame hlo (Nat.le_of_lt hlt)]
    · rw [List.getElem?_set_ne hij] at hx
      have := h.sent j x hx
      simp only [begunOn, hj, if_neg hij] at this ⊢
      exact this

/-- The last piece of a frame takes its message off the buffer. -/
theorem Carried.finish (h : Carried m₀ m ms) (hN : m₀.links.length ≤ Message.maxInterfaces)
    {job : Outbound} (hj : m.outbound = some job) {l l' : Link} (hl : m.links[job.link]? = some l)
    (hs : l'.sent.toList = l.sent.toList ++ [m.pendingFrame job]) (statistics : Statistics) :
    ∃ s, frameCount [s] = 1 ∧ textCount [s] = 0 ∧ Carried m₀ { m with
      links := m.links.set job.link l'
      childBuffer := m.childBuffer.drop job.stop
      outbound := none
      statistics } (ms ++ [s]) := by
  have hlen : (m.links.set job.link l').length = m.links.length := List.length_set
  obtain ⟨s, rest, hd, hk, hlink, hstop, hlo, hhi⟩ := h.front job hj
  obtain ⟨hb, hfits⟩ := Message.eq_of_decode hd
  have hpos : s.payload ≠ [] := by
    intro hp
    rw [hp, List.length_nil] at hstop
    omega
  have hi := h.lt_max hN hl
  have hcontrol : s.kind ≠ Message.control := by
    rw [hk]
    exact (Message.control_ne_kind hi).symm
  have hrest : m.childBuffer.drop job.stop = rest := by
    rw [hstop, ← s.length_toBytes, hb, List.drop_left]
  refine ⟨s, by simp [frameCount, hcontrol, hpos], by simp [textCount, hcontrol], ?_, ?_, ?_, ?_, ?_,
    hlen.trans h.links, fun _ h => (nomatch h), ?_⟩
  · exact List.forall_mem_append.mpr ⟨h.whole, List.forall_mem_singleton.mpr hfits⟩
  · have hle : s.kind.toNat ≤ m₀.links.length := by
      have := h.links
      rw [hk, UInt16.toNat_ofNat']
      omega
    exact List.forall_mem_append.mpr ⟨h.known, List.forall_mem_singleton.mpr hle⟩
  · show _ = _ ++ m.childBuffer.drop job.stop ++ _
    rw [hrest, h.stream, hb, List.flatMap_append, List.flatMap_singleton]
    simp only [List.append_assoc]
  · have := h.room
    show (m.childBuffer.drop job.stop).length ≤ _
    rw [List.length_drop]
    omega
  · rw [Message.payloadsOf_append, Message.payloadsOf_other hcontrol, List.append_nil]
    exact h.display
  · intro j x hx
    rw [framesFor_append]
    by_cases hij : job.link = j
    · -- what was begun and the last piece are the whole frame
      subst hij
      rw [List.getElem?_set_self hlink] at hx
      injection hx with hx
      subst hx
      have hall : m.begunOn job.link ++ m.pendingFrame job = s.payload := by
        have hn : job.offset + (m.pendingFrame job).length = job.stop := by
          have := h.length_pendingFrame hj
          omega
        have hadd := take_add_pendingFrame (m := m) hlo (Nat.le_of_eq hn)
        rw [hn, List.take_length] at hadd
        simp only [begunOn, hj, if_true]
        rw [← hadd, hstop, Nat.add_sub_cancel_left, hb, List.drop_append_of_le_length, s.drop_toBytes,
          List.take_left]
        rw [s.length_toBytes]
        exact Nat.le_add_right ..
      have := ((h.sent job.link l hl).more hs (h.pendingFrame_ne_nil hj)).finish
      rw [hall] at this
      rw [framesFor_self hk hpos]
      exact this
    · rw [List.getElem?_set_ne hij] at hx
      have hother : s.kind ≠ UInt16.ofNat (j + 1) := by
        rw [hk]
        exact Message.kind_ne hi (h.lt_max hN hx) hij
      have := h.sent j x hx
      simp only [begunOn, hj, if_neg hij] at this
      rw [framesFor_other hother, List.append_nil]
      exact this

theorem writeFrame_told (m m' : Multiplexer) : Told m' (writeFrame m).2 := by
  unfold writeFrame
  split
  · trivial
  · split
    · trivial
    · simp only
      split
      · exact told_stopAt ..
      · trivial
      · split <;> trivial

theorem writeFrame_carried (h : Carried m₀ m ms) (hN : m₀.links.length ≤ Message.maxInterfaces) :
    ∃ more, Carried m₀ (writeFrame m).1 (ms ++ more) ∧ Counted m (writeFrame m).1 more := by
  have same : ∀ {m' : Multiplexer}, Carried m₀ m' ms → Counted m m' [] →
      ∃ more, Carried m₀ m' (ms ++ more) ∧ Counted m m' more :=
    fun hc hcounted => ⟨[], by rwa [List.append_nil], hcounted⟩
  unfold writeFrame
  split
  · exact same h (.refl m)
  · rename_i job hj
    split
    · exact same h (.refl m)
    · rename_i l hl
      have hp := h.length_pendingFrame hj
      simp only
      cases hsend : sendOn (m.pendingFrame job) l with
      | mk result l' =>
        cases result with
        | error f => exact same (h.unsent hl (sent_of_sendOn_error hsend)) ⟨rfl, rfl, rfl⟩
        | ok n =>
          obtain ⟨hn, hsome, hnone⟩ := sent_of_sendOn hsend
          cases n with
          | zero => exact same (h.unsent hl (hnone rfl (h.pendingFrame_ne_nil hj))) ⟨rfl, rfl, rfl⟩
          | succ n =>
            have hs := hsome (Nat.succ_pos n)
            simp only
            split
            · rename_i hlt
              exact same (h.advance hj hl (Nat.succ_pos n) hs hlt) ⟨rfl, rfl, rfl⟩
            · rename_i hge
              rw [List.take_of_length_le (by omega)] at hs
              obtain ⟨s, hframe, htext, hc⟩ := h.finish hN hj hl hs
                { m.statistics with injected := m.statistics.injected + 1 }
              refine ⟨[s], hc, ?_, ?_, ?_⟩
              · rw [hframe]
              · rw [htext]
                rfl
              · rw [htext]
                rfl

theorem writeFrame_buffer (m : Multiplexer) : (writeFrame m).1.childEnded = m.childEnded ∧
    (writeFrame m).1.childBuffer.length ≤ m.childBuffer.length := by
  unfold writeFrame
  split
  · exact ⟨rfl, Nat.le_refl _⟩
  · split
    · exact ⟨rfl, Nat.le_refl _⟩
    · simp only
      split
      · exact ⟨rfl, Nat.le_refl _⟩
      · exact ⟨rfl, Nat.le_refl _⟩
      · split
        · exact ⟨rfl, Nat.le_refl _⟩
        · refine ⟨rfl, ?_⟩
          rw [List.length_drop]
          exact Nat.sub_le ..

end

end Multiplexer

end EtherBench
