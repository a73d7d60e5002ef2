import EtherBench.Proofs.Multiplexer.ChildInput

/-!
# Command lines

What is typed reaches the child in segments: a line with its newline, or as many
octets as one message holds where no newline comes in time. The segments are a
matter of the text alone. When it was read, in which pieces, and what else went
to the child in between, does not show in them.
-/

namespace EtherBench

namespace Multiplexer

/-- Where typed text is cut: behind the first newline within the octets that one message holds, or
behind all of these, and nowhere as long as there are fewer and no newline among them. -/
def cutPoint (b : Bytes) : Option Nat :=
  match (b.take Message.maxPayload).idxOf? 10 with
  | some i => some (i + 1)
  | none => if Message.maxPayload ≤ b.length then some Message.maxPayload else none

section
variable {b p : Bytes} {n : Nat}

theorem cutPoint_pos (h : cutPoint b = some n) : 0 < n := by
  unfold cutPoint at h
  split at h
  · injection h with h
    omega
  · split at h
    · injection h with h
      rw [← h]
      decide
    · cases h

theorem cutPoint_le (h : cutPoint b = some n) : n ≤ b.length := by
  unfold cutPoint at h
  split at h
  · rename_i i hi
    obtain ⟨hlt, _⟩ := List.idxOf?_eq_some_iff.mp hi
    injection h with h
    rw [List.length_take] at hlt
    omega
  · split at h
    · rename_i hle
      injection h with h
      exact h ▸ hle
    · cases h

theorem cutPoint_append (h : cutPoint b = some n) (c : Bytes) : cutPoint (b ++ c) = some n := by
  unfold cutPoint at h ⊢
  rw [List.take_append]
  split at h
  · rename_i i hi
    rw [List.idxOf?, List.findIdx?_append, ← List.idxOf?, hi]
    exact h
  · rename_i hi
    split at h
    · -- there is enough text already, none of `c` is looked at
      rename_i hle
      rw [Nat.sub_eq_zero_of_le hle, List.take_zero, List.append_nil, hi, List.length_append]
      rw [if_pos (Nat.le_trans hle (Nat.le_add_right ..))]
      exact h
    · cases h

theorem cutPoint_take (h : cutPoint b = some n) : cutPoint (b.take n) = some n := by
  unfold cutPoint at h ⊢
  split at h
  · rename_i i hi
    injection h with h
    subst h
    have hcut : ((b.take (i + 1)).take Message.maxPayload).idxOf? 10 = some i := by
      rw [List.take_take, Nat.min_comm, ← List.take_take, List.idxOf?, List.findIdx?_take,
        ← List.idxOf?, hi]
      simp
    rw [hcut]
  · rename_i hi
    split at h
    · rename_i hle
      injection h with h
      subst h
      rw [List.take_take, Nat.min_self, hi, List.length_take, Nat.min_eq_left hle]
      simp
    · cases h

def segments (b : Bytes) : List Bytes :=
  match _h : cutPoint b with
  | none => []
  | some n => b.take n :: segments (b.drop n)
termination_by b.length
decreasing_by
  have := cutPoint_pos _h
  have := cutPoint_le _h
  rw [List.length_drop]
  omega

theorem segments_of_cutPoint (h : cutPoint b = some n) :
    segments b = b.take n :: segments (b.drop n) := by
  rw [segments]
  split
  · rename_i hn
    rw [h] at hn
    cases hn
  · rename_i n' hn
    rw [h] at hn
    injection hn with hn
    rw [hn]

def IsSegment (p : Bytes) : Prop := cutPoint p = some p.length

theorem isSegment_take (h : cutPoint b = some n) : IsSegment (b.take n) := by
  rw [IsSegment, List.length_take, Nat.min_eq_left (cutPoint_le h)]
  exact cutPoint_take h

/-- **Segments come apart again** when they are put together, whatever follows. -/
theorem segments_flatten_append {ps : List Bytes} (h : ∀ p ∈ ps, IsSegment p) (b : Bytes) :
    segments (ps.flatten ++ b) = ps ++ segments b := by
  induction ps with
  | nil => rfl
  | cons p ps ih =>
    have hp : IsSegment p := h p (List.mem_cons_self ..)
    rw [List.flatten_cons, List.append_assoc, segments_of_cutPoint (cutPoint_append hp _),
      List.take_left', List.drop_left', ih fun q hq => h q (List.mem_cons_of_mem _ hq)]
    · rfl
    · rfl
    · rfl

example : segments [97, 98, 10, 10, 99] = [[97, 98, 10], [10]] := by decide +kernel

end

def unread (m : Multiplexer) : Bytes := (m.console.map Source.bytes).getD []

def underWay (m : Multiplexer) : Option Bytes :=
  match m.inbound with
  | some ⟨.console stop, _⟩ => some (m.typed.take (stop - Message.headerSize))
  | _ => none

def behind (m : Multiplexer) : Bytes :=
  match m.inbound with
  | some ⟨.console stop, _⟩ => m.typed.drop (stop - Message.headerSize)
  | _ => m.typed

/-- The control messages among `ms` are segments of what has been typed since `m₀`, and what waits
in the console buffer comes next. -/
structure Lined (m₀ m : Multiplexer) (ms : List Message) : Prop where
  text : m₀.unread = (Message.payloadsOf Message.control ms).flatten ++ m.typed ++ m.unread
  segments : ∀ p ∈ Message.payloadsOf Message.control ms, IsSegment p
  cut : ∀ stop offset, m.inbound = some ⟨.console stop, offset⟩ →
    cutPoint m.typed = some (stop - Message.headerSize)

section
variable {m₀ m m' : Multiplexer} {e : Option Ending} {ms : List Message}

theorem cutPoint_of_lineEnd {stop : Nat} (h : lineEnd m = some stop) (ht : m.consoleFilled ≤ bufferSize) :
    cutPoint m.typed = some (stop - Message.headerSize) := by
  simp only [consoleFilled, bufferSize] at ht
  have hall : m.typed.take Message.maxPayload = m.typed := by
    refine List.take_of_length_le ?_
    simp only [Message.maxPayload]
    omega
  unfold lineEnd at h
  split at h
  · rename_i i hi
    injection h with h
    rw [cutPoint, hall, hi, ← h, Nat.add_assoc, Nat.add_sub_cancel_left]
  · rename_i hi
    split at h
    · rename_i hf
      injection h with h
      simp only [consoleFilled, bufferSize] at hf h
      have hle : Message.maxPayload ≤ m.typed.length := by
        simp only [Message.maxPayload]
        omega
      rw [cutPoint, hall, hi, ← h, hf]
      exact if_pos hle
    · cases h

/-! ## Phases -/

theorem unread_congr (h : m'.console = m.console) : m'.unread = m.unread := by
  rw [unread, unread, h]

theorem unread_of_console {s : Source} (h : m.console = some s) : m.unread = s.bytes := by
  rw [unread, h]
  rfl

theorem Lined.congr (h : Lined m₀ m ms) (ht : m'.typed = m.typed) (hc : m'.console = m.console)
    (hi : ∀ stop offset, m'.inbound = some ⟨.console stop, offset⟩ →
      ∃ offset', m.inbound = some ⟨.console stop, offset'⟩) : Lined m₀ m' ms := by
  refine ⟨?_, h.segments, ?_⟩
  · rw [ht, unread_congr hc]
    exact h.text
  · intro stop offset hj
    obtain ⟨offset', hj'⟩ := hi stop offset hj
    rw [ht]
    exact h.cut stop offset' hj'

theorem Lined.of_inward (h : Lined m₀ m ms) (hs : SameInward m m') : Lined m₀ m' ms :=
  h.congr hs.typed hs.console fun _ offset hj => ⟨offset, hs.inbound ▸ hj⟩

theorem Lined.read (h : Lined m₀ m ms) {s t : Source} {o : Except Fault Bytes} {room : Nat}
    (hc : m.console = some s) (hr : s.read room = (o, t)) :
    Lined m₀ { m with console := some t, typed := m.typed ++ Source.brought o } ms := by
  refine ⟨?_, h.segments, ?_⟩
  · rw [h.text, unread_of_console hc, Source.bytes_of_read hr]
    simp [unread]
  · intro stop offset hj
    exact cutPoint_append (h.cut stop offset hj) _

theorem readConsole_lined (h : Lined m₀ m ms) : Lined m₀ (readConsole m).1 ms := by
  unfold readConsole
  split
  · exact h
  · rename_i s hc
    split
    · rename_i f t hr
      have := h.read hc hr
      rwa [Source.brought, List.append_nil] at this
    · rename_i t hr
      have := h.read hc hr
      rwa [Source.brought, List.append_nil] at this
    · rename_i b t _ hr
      exact h.read hc hr

theorem queueLine_lined (h : Lined m₀ m ms) (ht : m.consoleFilled ≤ bufferSize) :
    Lined m₀ (queueLine m).1 ms := by
  unfold queueLine
  split
  · rename_i stop hj hl
    refine ⟨h.text, h.segments, ?_⟩
    intro stop' offset hjob
    injection hjob with hjob
    injection hjob with hstop
    injection hstop with hstop
    subst hstop
    exact cutPoint_of_lineEnd hl ht
  · exact h

theorem queueSlot_lined (i : Nat) (h : Lined m₀ m ms) : Lined m₀ (queueSlot i m).1 ms := by
  unfold queueSlot
  split
  · exact h.congr rfl rfl fun _ _ hj => nomatch hj
  · exact h

theorem captureIfReady_lined (ready : Readiness) (i : Nat) (h : Lined m₀ m ms) :
    Lined m₀ (captureIfReady ready i m).1 ms := by
  rcases captureIfReady_eq ready i m with he | ⟨l, he⟩
  · rwa [he]
  · rw [he]
    exact h.congr rfl rfl fun _ offset hj => ⟨offset, hj⟩

theorem Lined.deliver (h : Lined m₀ m ms) (hf : Fed m₀ m none ms)
    (hN : m₀.links.length ≤ Message.maxInterfaces) {job : Inbound} (hj : m.inbound = some job)
    (s : Sink) :
    Lined m₀ (delivered job.origin { m with childInput := s }) (ms ++ [m.waiting job.origin]) := by
  obtain ⟨ho, _⟩ := hf.framed.inbound job hj
  obtain ⟨o, offset⟩ := job
  cases o with
  | slot i =>
    have hkind : (m.waiting (.slot i)).kind ≠ Message.control :=
      (Message.control_ne_kind (hf.lt_max hN ho)).symm
    have hp : Message.payloadsOf Message.control (ms ++ [m.waiting (.slot i)]) =
        Message.payloadsOf Message.control ms := by
      rw [Message.payloadsOf_append, Message.payloadsOf_other hkind, List.append_nil]
    refine ⟨?_, ?_, fun _ _ h => nomatch h⟩
    · rw [hp]
      exact h.text
    · rw [hp]
      exact h.segments
  | console stop =>
    have hcut := h.cut stop offset hj
    -- the text moves from the front of the buffer to the end of the control messages
    have hkind : (m.waiting (.console stop)).kind = Message.control := rfl
    have hp : Message.payloadsOf Message.control (ms ++ [m.waiting (.console stop)]) =
        Message.payloadsOf Message.control ms ++ [m.typed.take (stop - Message.headerSize)] := by
      rw [Message.payloadsOf_append, Message.payloadsOf_self hkind]
      rfl
    refine ⟨?_, ?_, fun _ _ h => nomatch h⟩
    · rw [hp, h.text]
      simp [delivered, unread]
    · rw [hp]
      exact List.forall_mem_append.mpr
        ⟨h.segments, List.forall_mem_singleton.mpr (isSegment_take hcut)⟩

abbrev FedLines (m₀ m : Multiplexer) (e : Option Ending) (ms : List Message) : Prop :=
  Fed m₀ m e ms ∧ Lined m₀ m ms

theorem writeInput_extends (h : FedLines m₀ m none ms) (hN : m₀.links.length ≤ Message.maxInterfaces) :
    ∃ more, FedLines m₀ (writeInput m).1 (writeInput m).2 (ms ++ more) ∧
      ∀ s ∈ more, ∃ job, m.inbound = some job ∧ s = m.waiting job.origin := by
  obtain ⟨hf, hl⟩ := h
  rcases writeInput_cases m with ⟨s, e, hw, hs⟩ | ⟨job, s, n, hj, hn, hs, hw⟩ | ⟨job, s, hj, hs, hw⟩
  · rw [hw]
    refine ⟨[], ?_, by simp⟩
    rw [List.append_nil]
    exact ⟨hf.unwritten hs e, hl.congr rfl rfl fun _ offset hj => ⟨offset, hj⟩⟩
  · rw [hw]
    refine ⟨[], ?_, by simp⟩
    rw [List.append_nil]
    refine ⟨hf.advance hj hs hn, hl.congr rfl rfl fun stop offset hjob => ⟨job.offset, ?_⟩⟩
    injection hjob with hjob
    injection hjob with ho
    rw [hj, ← ho]
  · rw [hw]
    exact ⟨[m.waiting job.origin], ⟨hf.deliver hN hj hs, hl.deliver hf hN hj s⟩,
      List.forall_mem_singleton.mpr ⟨job, hj, rfl⟩⟩

/-- What holds of every message on its way holds of all that are delivered. -/
theorem fedLines_keeps_of {K : Message → Prop} (hN : m₀.links.length ≤ Message.maxInterfaces)
    (hK : ∀ m ms job, FedLines m₀ m none ms → m.inbound = some job → K (m.waiting job.origin))
    (awake : Readiness) (m : Multiplexer) :
    ∀ p ∈ phases awake m, Phase.Keeps (fun m e => ∃ ms, FedLines m₀ m e ms ∧ ∀ s ∈ ms, K s) p := by
  refine keeps_of_inward ?_ ?_ ?_ ?_ ?_ ?_ awake m
  · exact fun _ _ e ⟨ms, ⟨hf, hl⟩, hk⟩ hs => ⟨ms, ⟨hf.of_inward hs e, hl.of_inward hs⟩, hk⟩
  · exact fun _ ⟨ms, ⟨hf, hl⟩, hk⟩ => ⟨ms, ⟨readConsole_fed hf, readConsole_lined hl⟩, hk⟩
  · rintro m ⟨ms, h, hk⟩
    obtain ⟨more, hmore, hwaiting⟩ := writeInput_extends h hN
    refine ⟨ms ++ more, hmore, List.forall_mem_append.mpr ⟨hk, fun s hs => ?_⟩⟩
    obtain ⟨job, hj, rfl⟩ := hwaiting s hs
    exact hK m ms job h hj
  · exact fun _ ⟨ms, ⟨hf, hl⟩, hk⟩ =>
      ⟨ms, ⟨queueLine_fed hf, queueLine_lined hl hf.framed.typed⟩, hk⟩
  · exact fun ready i _ ⟨ms, ⟨hf, hl⟩, hk⟩ =>
      ⟨ms, ⟨captureIfReady_fed ready i hf, captureIfReady_lined ready i hl⟩, hk⟩
  · exact fun i _ ⟨ms, ⟨hf, hl⟩, hk⟩ => ⟨ms, ⟨queueSlot_fed i hf, queueSlot_lined i hl⟩, hk⟩

theorem fedLines_keeps (hN : m₀.links.length ≤ Message.maxInterfaces) (awake : Readiness)
    (m : Multiplexer) :
    ∀ p ∈ phases awake m, Phase.Keeps (fun m e => ∃ ms, FedLines m₀ m e ms) p := by
  have h := fedLines_keeps_of (K := fun _ => True) hN (fun _ _ _ _ _ => trivial) awake m
  simpa using h

/-! ## Runs -/

theorem underWay_append_behind (m : Multiplexer) : m.underWay.getD [] ++ m.behind = m.typed := by
  unfold underWay behind
  split
  · exact List.take_append_drop ..
  · rfl

theorem Lined.isSegment_underWay (h : Lined m₀ m ms) {p : Bytes} (hp : m.underWay = some p) :
    IsSegment p := by
  unfold underWay at hp
  split at hp
  · rename_i stop offset hj
    injection hp with hp
    exact hp ▸ isSegment_take (h.cut stop offset hj)
  · cases hp

theorem lined_of_fresh (h : m₀.Fresh) (hr : sendRoster m₀ = (m, none)) : Lined m₀ m [] := by
  have ho := h.opened hr
  refine ⟨?_, fun _ hp => (nomatch hp), ?_⟩
  · rw [ho.typed, unread_congr ho.console]
    rfl
  · intro stop offset hj
    rw [ho.inbound] at hj
    cases hj

theorem Framed.begun_underWay (h : m.Framed) {p : Bytes} (hp : m.underWay = some p) :
    ∃ left, left ≠ [] ∧ Message.encode ⟨Message.control, p⟩ = .ok (m.begun ++ left) := by
  unfold underWay at hp
  split at hp
  · rename_i stop offset hj
    injection hp with hp
    obtain ⟨hh, ho⟩ := h.inbound _ hj
    obtain ⟨hb, hf⟩ := h.message_eq hh
    refine ⟨(m.message (.console stop)).drop offset, ?_, ?_⟩
    · exact fun hnil => Nat.not_le.mpr ho (List.drop_eq_nil_iff.mp hnil)
    · rw [begun, hj]
      simp only
      rw [List.take_append_drop, hb, ← hp]
      exact Message.encode_of_fits hf
  · cases hp

/-- **The child's command lines are the segments of what was typed**, at every point of every run:
those that it has been given, the one on its way, and the text behind it make up what has been read,
and whatever is typed later they come first. A read leaves the one on its way as it is. -/
theorem command_lines_are_segments {schedule : List Readiness} {awake : Readiness} {k : Nat}
    {m₁ : Multiplexer} (hm : m₀.Fresh) (hr : sendRoster m₀ = (m₁, none))
    (hu : upTo schedule awake k m₁ = (m, e)) :
    ∃ roster ms part text,
      Message.encode ⟨Message.control, m₀.links.flatMap fun l => l.address.toBytes⟩ = .ok roster ∧
      (∀ s ∈ ms, s.encode = .ok s.toBytes) ∧
      m.childInput.data.toList = roster ++ ms.flatMap Message.toBytes ++ part ∧
      (∀ p, m.underWay = some p →
        ∃ left, left ≠ [] ∧ Message.encode ⟨Message.control, p⟩ = .ok (part ++ left)) ∧
      m₀.unread = text ++ m.unread ∧
      text = (Message.payloadsOf Message.control ms).flatten ++ m.underWay.getD [] ++ m.behind ∧
      (∀ later, Message.payloadsOf Message.control ms ++ m.underWay.toList <+:
        segments (text ++ later)) ∧
      ∀ job, m.inbound = some job → (readConsole m).1.inbound = some job ∧
        (readConsole m).1.message job.origin = m.message job.origin := by
  have h := upTo_keeps (fedLines_keeps hm.links.2) schedule awake k m₁
    ⟨[], fed_of_fresh hm hr, lined_of_fresh hm hr⟩
  rw [hu] at h
  obtain ⟨ms, hf, hl⟩ := h
  refine ⟨m₀.roster.toBytes, ms, m.begun, _, Message.encode_of_fits hm.roster_fits, ?_, hf.data,
    fun p hp => hf.framed.begun_underWay hp, hl.text, ?_, ?_,
    fun job hj => readConsole_message hf.framed hj⟩
  · exact fun s hs => Message.encode_of_fits (hf.fits s hs)
  · rw [List.append_assoc, underWay_append_behind]
  · intro later
    have hsegments : ∀ p ∈ Message.payloadsOf Message.control ms ++ m.underWay.toList, IsSegment p :=
      List.forall_mem_append.mpr
        ⟨hl.segments, fun p hp => hl.isSegment_underWay (Option.mem_toList.mp hp)⟩
    have htext : (Message.payloadsOf Message.control ms).flatten ++ m.typed ++ later =
        (Message.payloadsOf Message.control ms ++ m.underWay.toList).flatten ++ (m.behind ++ later) := by
      rw [← underWay_append_behind m]
      cases m.underWay <;> simp
    rw [htext, segments_flatten_append hsegments]
    exact List.prefix_append ..

/-- Two lines and a half, typed in pieces while a frame is on its way. -/
def typist : Multiplexer :=
  { links :=
      [{ name := "left", address := ⟨Vector.replicate 6 2⟩, mtu := 1500,
         arrivals := [.frame (List.replicate 14 7) none] }]
    childInput := { writes := [.accept 10, .accept 3, .accept 20, .accept 2] }
    console := some ⟨[.data [97], .fault ⟨.wouldBlock, "again"⟩, .data [98, 10, 99], .data [10, 100]]⟩ }

def consoleReady : Readiness := ⟨true, true, false, false, [true]⟩

theorem fresh_typist : typist.Fresh := by
  have h : ofLinks typist.links typist.console =
      .ok { links := typist.links, console := typist.console } := rfl
  exact fresh_of_ofLinks h (by decide) typist.childInput {} {} rfl rfl

theorem typist_lines_are_segments :
    typist.Fresh ∧ sendRoster typist = ((sendRoster typist).1, none) ∧ ∃ m ms,
      upTo (List.replicate 4 consoleReady) consoleReady 0 (sendRoster typist).1 = (m, none) ∧
        m.underWay = some [97, 98, 10] ∧
        Message.payloadsOf Message.control ms ++ m.underWay.toList <+: segments typist.unread := by
  have hm := fresh_typist
  have hr : sendRoster typist = ((sendRoster typist).1, none) := Prod.ext rfl (by decide)
  have hu : upTo (List.replicate 4 consoleReady) consoleReady 0 (sendRoster typist).1 =
      ((upTo (List.replicate 4 consoleReady) consoleReady 0 (sendRoster typist).1).1, none) :=
    Prod.ext rfl (by decide +kernel)
  obtain ⟨_, ms, _, _, _, _, _, _, htext, _, hs, _⟩ := command_lines_are_segments hm hr hu
  refine ⟨hm, hr, _, ms, hu, by decide +kernel, ?_⟩
  rw [htext]
  exact hs _

end

end Multiplexer

end EtherBench
