import EtherBench.Proofs.Multiplexer.Capture
import EtherBench.Proofs.Multiplexer.Directions
import EtherBench.Proofs.Multiplexer.Points
import EtherBench.Proofs.Stream.Transfer

/-!
# What the child reads

The child reads the roster, then whole messages one after the other, then the
front of the message that is on its way. Of each link it reads what the link
received, in order, with nothing lost: a frame leaves its slot only when its
last octet is written, and a slot takes a frame only when it is empty.
-/

namespace EtherBench

namespace Multiplexer

def waiting (o : Origin) (m : Multiplexer) : Message :=
  match o with
  | .slot i => ⟨UInt16.ofNat (i + 1), (m.slot i).drop Message.headerSize⟩
  | .console stop => ⟨Message.control, m.typed.take (stop - Message.headerSize)⟩

def Holds (o : Origin) (m : Multiplexer) : Prop :=
  match o with
  | .slot i => m.slot i ≠ []
  | .console stop => Message.headerSize < stop ∧ stop ≤ m.consoleFilled

def begun (m : Multiplexer) : Bytes :=
  match m.inbound with
  | none => []
  | some job => (m.message job.origin).take job.offset

/-- Slots and console buffer hold whole messages, and the one on its way is not yet written whole. -/
structure Framed (m : Multiplexer) : Prop where
  typed : m.consoleFilled ≤ bufferSize
  slots : ∀ i, m.slot i ≠ [] → (m.waiting (.slot i)).Fits ∧ m.slot i = (m.waiting (.slot i)).toBytes
  inbound : ∀ job, m.inbound = some job →
    m.Holds job.origin ∧ job.offset < (m.message job.origin).length

/-- The child of a run from `m₀` has been given the messages `ms` and the front of one more, and
every link is accounted for. -/
structure Fed (m₀ m : Multiplexer) (e : Option Ending) (ms : List Message) : Prop where
  framed : m.Framed
  fits : ∀ s ∈ ms, s.Fits
  data : m.childInput.data.toList = m₀.roster.toBytes ++ ms.flatMap Message.toBytes ++ m.begun
  links : m.links.length = m₀.links.length
  frames : ∀ i (l₀ l : Link), m₀.links[i]? = some l₀ → m.links[i]? = some l →
    l₀.Took l e (Message.payloadsOf (UInt16.ofNat (i + 1)) ms ++ l.held)

section
variable {m : Multiplexer}

theorem slot_of_link {i : Nat} {l : Link} (h : m.links[i]? = some l) : m.slot i = l.slot := by
  simp [slot, h]

theorem lt_length_of_slot {i : Nat} (h : m.slot i ≠ []) : i < m.links.length := by
  refine Nat.lt_of_not_le fun hle => h ?_
  simp [slot, List.getElem?_eq_none hle]

theorem slot_set_self {i : Nat} {l : Link} (h : i < m.links.length) :
    ({ m with links := m.links.set i l } : Multiplexer).slot i = l.slot := by
  simp [slot, h]

theorem slot_set_ne {i j : Nat} (h : i ≠ j) (l : Link) :
    ({ m with links := m.links.set i l } : Multiplexer).slot j = m.slot j := by
  simp [slot, h]

theorem slot_delivered (i j : Nat) :
    (delivered (.slot i) m).slot j = if i = j then [] else m.slot j := by
  simp only [slot, delivered, List.getElem?_modify]
  cases m.links[j]? with
  | none => simp
  | some l =>
    by_cases hij : i = j
    · simp [hij]
    · simp [hij]

theorem message_console {stop : Nat} (h : m.Holds (.console stop)) (ht : m.consoleFilled ≤ bufferSize) :
    m.message (.console stop) = (m.waiting (.console stop)).toBytes ∧
      (m.waiting (.console stop)).Fits := by
  obtain ⟨hlo, hhi⟩ := h
  simp only [consoleFilled, bufferSize] at hhi ht
  have hlen : (m.typed.take (stop - Message.headerSize)).length = stop - Message.headerSize := by
    rw [List.length_take]
    omega
  constructor
  · simp only [message, consoleBuffer, waiting, Message.toBytes, hlen]
    rw [List.take_append, Message.Header.length_toBytes, Nat.add_sub_cancel' (Nat.le_of_lt hlo),
      List.take_of_length_le (Nat.le_of_lt hlo)]
  · simp only [waiting, Message.Fits, hlen, Message.maxPayload]
    omega

theorem Framed.message_eq (h : m.Framed) {o : Origin} (ho : m.Holds o) :
    m.message o = (m.waiting o).toBytes ∧ (m.waiting o).Fits := by
  cases o with
  | slot i => exact (h.slots i ho).symm
  | console stop => exact message_console ho h.typed

end

section
variable {m₀ m m' : Multiplexer} {e : Option Ending} {ms : List Message}

theorem Framed.of_inward (h : m.Framed) (hs : SameInward m m') : m'.Framed := by
  have hw : ∀ i, m'.waiting (.slot i) = m.waiting (.slot i) := by
    intro i
    simp only [waiting, hs.slot]
  refine ⟨?_, ?_, ?_⟩
  · simpa only [consoleFilled, hs.typed] using h.typed
  · intro i hi
    rw [hs.slot] at hi
    rw [hw, hs.slot]
    exact h.slots i hi
  · intro job hj
    rw [hs.inbound] at hj
    obtain ⟨hh, ho⟩ := h.inbound job hj
    rw [hs.message]
    refine ⟨?_, ho⟩
    cases hjo : job.origin with
    | slot i =>
      rw [hjo] at hh
      simpa only [Holds, hs.slot] using hh
    | console stop =>
      rw [hjo] at hh
      simpa only [Holds, consoleFilled, hs.typed] using hh

theorem begun_congr (hi : m'.inbound = m.inbound)
    (hm : ∀ job, m.inbound = some job → m'.message job.origin = m.message job.origin) :
    m'.begun = m.begun := by
  unfold begun
  rw [hi]
  split
  · rfl
  · rename_i job hj
    rw [hm job hj]

theorem begun_of_inward (hs : SameInward m m') : m'.begun = m.begun :=
  begun_congr hs.inbound fun job _ => hs.message job.origin

theorem Fed.of_inward (h : Fed m₀ m none ms) (hs : SameInward m m') (e : Option Ending) :
    Fed m₀ m' e ms := by
  refine ⟨h.framed.of_inward hs, h.fits, ?_, ?_, ?_⟩
  · rw [hs.childInput, begun_of_inward hs]
    exact h.data
  · rw [length_eq_of_map_eq hs.links]
    exact h.links
  · intro i l₀ l' hl₀ hl'
    obtain ⟨l, hl, he⟩ := exists_of_map_eq hs.links hl'
    have ht := (h.frames i l₀ l hl₀ hl).ends e
    simp only [Link.inward, Link.mk.injEq, true_and] at he
    obtain ⟨hname, _, hmtu, harr, hslot⟩ := he
    refine ⟨hname.trans ht.name, hmtu.trans ht.mtu, ?_⟩
    rw [harr, Link.held, hslot]
    exact ht.received

/-! ## Phases -/

theorem message_of_typed {o : Origin} (ho : m.Holds o) (console : Option Source) (b : Bytes) :
    ({ m with console, typed := m.typed ++ b } : Multiplexer).message o = m.message o := by
  cases o with
  | slot i => rfl
  | console stop =>
    have hle := ho.2
    simp only [consoleFilled] at hle
    simp only [message, consoleBuffer]
    rw [← List.append_assoc, List.take_append_of_le_length]
    rw [List.length_append, Message.Header.length_toBytes]
    exact hle

theorem readConsole_message (h : m.Framed) {job : Inbound} (hj : m.inbound = some job) :
    (readConsole m).1.inbound = some job ∧
      (readConsole m).1.message job.origin = m.message job.origin := by
  obtain ⟨ho, _⟩ := h.inbound job hj
  unfold readConsole
  split
  · exact ⟨hj, rfl⟩
  · split
    · exact ⟨hj, by cases job.origin <;> rfl⟩
    · exact ⟨hj, by cases job.origin <;> rfl⟩
    · exact ⟨hj, message_of_typed ho _ _⟩

theorem readConsole_fed (h : Fed m₀ m none ms) :
    Fed m₀ (readConsole m).1 (readConsole m).2 ms := by
  have hends : ∀ e, ∀ i (l₀ l : Link), m₀.links[i]? = some l₀ → m.links[i]? = some l →
      Link.Took l₀ l e (Message.payloadsOf (UInt16.ofNat (i + 1)) ms ++ l.held) :=
    fun e i l₀ l hl₀ hl => (h.frames i l₀ l hl₀ hl).ends e
  unfold readConsole
  split
  · exact h
  · rename_i source hc
    split
    · exact ⟨⟨h.framed.typed, h.framed.slots, h.framed.inbound⟩, h.fits, h.data, h.links, hends _⟩
    · exact ⟨⟨h.framed.typed, h.framed.slots, h.framed.inbound⟩, h.fits, h.data, h.links, hends _⟩
    · rename_i b source' _ hr
      have hroom := Source.length_of_read hr
      have hmsg : ∀ job, m.inbound = some job →
          ({ m with console := some source', typed := m.typed ++ b } : Multiplexer).message
            job.origin = m.message job.origin :=
        fun job hj => message_of_typed (h.framed.inbound job hj).1 _ b
      refine ⟨⟨?_, h.framed.slots, ?_⟩, h.fits, ?_, h.links, h.frames⟩
      · have := h.framed.typed
        simp only [consoleFilled, List.length_append] at this hroom ⊢
        omega
      · intro job hj
        rw [hmsg job hj]
        obtain ⟨hh, ho⟩ := h.framed.inbound job hj
        refine ⟨?_, ho⟩
        cases hjo : job.origin with
        | slot i =>
          rw [hjo] at hh
          exact hh
        | console stop =>
          rw [hjo] at hh
          refine ⟨hh.1, Nat.le_trans hh.2 ?_⟩
          simp only [consoleFilled, List.length_append]
          omega
      · have hb : ({ m with console := some source', typed := m.typed ++ b } : Multiplexer).begun =
            m.begun := begun_congr rfl hmsg
        exact h.data.trans (congrArg _ hb.symm)

theorem lineEnd_holds {stop : Nat} (h : lineEnd m = some stop) : m.Holds (.console stop) := by
  unfold lineEnd at h
  split at h
  · rename_i i hi
    obtain ⟨hlt, _⟩ := List.idxOf?_eq_some_iff.mp hi
    injection h with h
    simp only [Holds, consoleFilled]
    omega
  · split at h
    · rename_i hf
      injection h with h
      subst h
      refine ⟨?_, Nat.le_refl _⟩
      rw [hf]
      decide
    · cases h

theorem begun_of_start {o : Origin} (h : m.inbound = none) :
    ({ m with inbound := some ⟨o, 0⟩ } : Multiplexer).begun = m.begun := by
  unfold begun
  rw [h]
  exact List.take_zero

theorem Fed.start (h : Fed m₀ m none ms) {o : Origin} (hj : m.inbound = none) (ho : m.Holds o)
    (statistics : Statistics) :
    Fed m₀ { m with inbound := some ⟨o, 0⟩, statistics } none ms := by
  have hb := begun_of_start (m := m) (o := o) hj
  refine ⟨⟨h.framed.typed, h.framed.slots, ?_⟩, h.fits, ?_, h.links, h.frames⟩
  · intro job hjob
    injection hjob with hjob
    subst hjob
    refine ⟨ho, ?_⟩
    have hm : m.message o = (m.waiting o).toBytes := (h.framed.message_eq ho).1
    show 0 < (m.message o).length
    rw [hm, Message.length_toBytes]
    exact Nat.lt_of_lt_of_le (by decide) (Nat.le_add_right _ _)
  · exact h.data.trans (congrArg _ hb.symm)

theorem queueLine_fed (h : Fed m₀ m none ms) :
    Fed m₀ (queueLine m).1 (queueLine m).2 ms := by
  unfold queueLine
  split
  · rename_i stop hj hl
    exact h.start hj (lineEnd_holds hl) _
  · exact h

theorem queueSlot_fed (i : Nat) (h : Fed m₀ m none ms) :
    Fed m₀ (queueSlot i m).1 (queueSlot i m).2 ms := by
  unfold queueSlot
  split
  · rename_i hi
    simp only [Bool.and_eq_true, Option.isNone_iff_eq_none, Bool.not_eq_true',
      List.isEmpty_eq_false_iff] at hi
    exact h.start hi.1 (show m.Holds (.slot i) from hi.2) m.statistics
  · exact h

theorem Fed.advance (h : Fed m₀ m none ms) {job : Inbound} (hj : m.inbound = some job) {s : Sink}
    {n : Nat} (hs : s.data.toList = m.childInput.data.toList ++ (m.pendingInput job).take n)
    (hn : n < (m.pendingInput job).length) :
    Fed m₀ { m with childInput := s, inbound := some { job with offset := job.offset + n } } none ms := by
  obtain ⟨hh, ho⟩ := h.framed.inbound job hj
  refine ⟨⟨h.framed.typed, h.framed.slots, ?_⟩, h.fits, ?_, h.links, h.frames⟩
  · intro job' hjob
    injection hjob with hjob
    subst hjob
    refine ⟨hh, ?_⟩
    simp only [pendingInput, List.length_drop] at hn
    show job.offset + n < (m.message job.origin).length
    omega
  · have hb : m.begun = (m.message job.origin).take job.offset := by simp only [begun, hj]
    have hb' : (m.message job.origin).take (job.offset + n) = m.begun ++ (m.pendingInput job).take n := by
      rw [hb, pendingInput, List.take_add]
    show s.data.toList = _ ++ (m.message job.origin).take (job.offset + n)
    rw [hb', hs, h.data, List.append_assoc]

theorem Fed.lt_max (h : Fed m₀ m e ms) (hN : m₀.links.length ≤ Message.maxInterfaces) {i : Nat}
    (hi : m.slot i ≠ []) : i < Message.maxInterfaces := by
  have := lt_length_of_slot hi
  have := h.links
  omega

theorem Fed.frames_delivered (h : Fed m₀ m none ms) (hN : m₀.links.length ≤ Message.maxInterfaces)
    {i : Nat} (hi : m.slot i ≠ []) :
    ∀ j (l₀ l : Link), m₀.links[j]? = some l₀ →
      (m.links.modify i fun l => { l with slot := [] })[j]? = some l →
      Link.Took l₀ l none
        (Message.payloadsOf (UInt16.ofNat (j + 1)) (ms ++ [m.waiting (.slot i)]) ++ l.held) := by
  intro j l₀ l' hl₀ hl'
  rw [List.getElem?_modify] at hl'
  obtain ⟨l, hl, rfl⟩ := Option.map_eq_some_iff.mp hl'
  have ht := h.frames j l₀ l hl₀ hl
  have hj : j < Message.maxInterfaces :=
    Nat.lt_of_lt_of_le (List.getElem?_eq_some_iff.mp hl₀).1 hN
  rw [Message.payloadsOf_append]
  by_cases hij : i = j
  · -- the frame that waited is now the payload of the last message
    subst hij
    have hslot : l.slot ≠ [] := slot_of_link hl ▸ hi
    have hheld : l.held = [(m.slot i).drop Message.headerSize] := by
      simp [Link.held, slot_of_link hl, hslot]
    have hkind : (m.waiting (.slot i)).kind = UInt16.ofNat (i + 1) := rfl
    rw [if_pos rfl, Message.payloadsOf_self hkind]
    obtain ⟨hname, hmtu, got, last, ha, hg, hlast, hf⟩ := ht
    rw [hheld] at hf
    refine ⟨hname, hmtu, got, last, ha, hg, hlast, ?_⟩
    rw [← hf]
    exact List.append_nil _
  · have hi' := h.lt_max hN hi
    rw [if_neg hij, Message.payloadsOf_other (Message.kind_ne hi' hj hij), List.append_nil]
    exact ht

/-- The last octet of a message frees the place where it waited. -/
theorem Fed.deliver (h : Fed m₀ m none ms) (hN : m₀.links.length ≤ Message.maxInterfaces)
    {job : Inbound} (hj : m.inbound = some job) {s : Sink}
    (hs : s.data.toList = m.childInput.data.toList ++ m.pendingInput job) :
    Fed m₀ (delivered job.origin { m with childInput := s }) none (ms ++ [m.waiting job.origin]) := by
  obtain ⟨hh, ho⟩ := h.framed.inbound job hj
  obtain ⟨hmsg, hfit⟩ := h.framed.message_eq hh
  have hfits : ∀ x ∈ ms ++ [m.waiting job.origin], x.Fits :=
    List.forall_mem_append.mpr ⟨h.fits, List.forall_mem_singleton.mpr hfit⟩
  have hdata : s.data.toList =
      m₀.roster.toBytes ++ (ms ++ [m.waiting job.origin]).flatMap Message.toBytes ++ [] := by
    have hb : m.begun = (m.message job.origin).take job.offset := by simp only [begun, hj]
    rw [hs, h.data, hb, pendingInput, List.append_assoc, List.take_append_drop, hmsg]
    simp
  cases hjo : job.origin with
  | slot i =>
    rw [hjo] at hh hfits hdata
    have hslot : ∀ j, (delivered (.slot i) { m with childInput := s }).slot j =
        if i = j then [] else m.slot j := fun j => slot_delivered i j
    refine ⟨⟨h.framed.typed, ?_, fun _ h => nomatch h⟩, hfits, hdata, ?_, ?_⟩
    · intro j hne
      rw [hslot] at hne
      split at hne
      · exact absurd rfl hne
      · rename_i hij
        have hw : (delivered (.slot i) { m with childInput := s }).waiting (.slot j) =
            m.waiting (.slot j) := by
          simp only [waiting, hslot, if_neg hij]
        rw [hw, hslot, if_neg hij]
        exact h.framed.slots j hne
    · show (m.links.modify i _).length = _
      rw [List.length_modify]
      exact h.links
    · exact h.frames_delivered hN hh
  | console stop =>
    rw [hjo] at hfits hdata
    refine ⟨⟨?_, h.framed.slots, fun _ h => nomatch h⟩, hfits, hdata, h.links, ?_⟩
    · have := h.framed.typed
      simp only [consoleFilled, delivered, List.length_drop] at this ⊢
      omega
    · intro j l₀ l hl₀ hl
      have hj : j < Message.maxInterfaces :=
        Nat.lt_of_lt_of_le (List.getElem?_eq_some_iff.mp hl₀).1 hN
      rw [Message.payloadsOf_append, Message.payloadsOf_other (Message.control_ne_kind hj), List.append_nil]
      exact h.frames j l₀ l hl₀ hl

theorem Fed.unwritten (h : Fed m₀ m none ms) {s : Sink} (hs : s.data.toList = m.childInput.data.toList)
    (e : Option Ending) : Fed m₀ { m with childInput := s } e ms := by
  refine ⟨⟨h.framed.typed, h.framed.slots, h.framed.inbound⟩, h.fits, hs.trans h.data, h.links, ?_⟩
  intro i l₀ l hl₀ hl
  exact (h.frames i l₀ l hl₀ hl).ends e

/-- What one write to the child comes to: nothing, a piece of the message on its way, or all that is
left of it. -/
theorem writeInput_cases (m : Multiplexer) :
    (∃ s e, writeInput m = ({ m with childInput := s }, e) ∧
      s.data.toList = m.childInput.data.toList) ∨
    (∃ job s n, m.inbound = some job ∧ n < (m.pendingInput job).length ∧
      s.data.toList = m.childInput.data.toList ++ (m.pendingInput job).take n ∧
      writeInput m =
        ({ m with childInput := s, inbound := some { job with offset := job.offset + n } }, none)) ∨
    (∃ job s, m.inbound = some job ∧
      s.data.toList = m.childInput.data.toList ++ m.pendingInput job ∧
      writeInput m = (delivered job.origin { m with childInput := s }, none)) := by
  unfold writeInput
  split
  · exact .inl ⟨m.childInput, none, rfl, rfl⟩
  · rename_i job hj
    simp only
    split
    · rename_i f s hw
      exact .inl ⟨s, _, rfl, congrArg Array.toList (Sink.data_of_write_error hw)⟩
    · rename_i s hw
      refine .inl ⟨s, _, rfl, ?_⟩
      rw [Sink.data_of_write hw, List.take_zero, List.append_nil]
    · rename_i n s _ hw
      have hs := Sink.data_of_write hw
      split
      · rename_i hn
        exact .inr (.inl ⟨job, s, n, hj, hn, hs, rfl⟩)
      · rename_i hn
        rw [List.take_of_length_le (Nat.not_lt.mp hn)] at hs
        exact .inr (.inr ⟨job, s, hj, hs, rfl⟩)

theorem writeInput_fed (h : Fed m₀ m none ms) (hN : m₀.links.length ≤ Message.maxInterfaces) :
    ∃ ms', Fed m₀ (writeInput m).1 (writeInput m).2 ms' := by
  rcases writeInput_cases m with ⟨s, e, hw, hs⟩ | ⟨job, s, n, hj, hn, hs, hw⟩ | ⟨job, s, hj, hs, hw⟩
  · rw [hw]
    exact ⟨ms, h.unwritten hs e⟩
  · rw [hw]
    exact ⟨ms, h.advance hj hs hn⟩
  · rw [hw]
    exact ⟨ms ++ [m.waiting job.origin], h.deliver hN hj hs⟩

theorem Framed.message_set (h : m.Framed) {i : Nat} (hs : m.slot i = []) (l : Link) {job : Inbound}
    (hj : m.inbound = some job) : job.origin ≠ .slot i ∧
      ({ m with links := m.links.set i l } : Multiplexer).message job.origin = m.message job.origin := by
  obtain ⟨hh, _⟩ := h.inbound job hj
  have hne : job.origin ≠ .slot i := by
    intro ho
    rw [ho] at hh
    exact hh hs
  refine ⟨hne, ?_⟩
  cases ho : job.origin with
  | slot j => exact slot_set_ne (fun hij => hne (by rw [ho, hij])) l
  | console stop => rfl

theorem Framed.set_link (h : m.Framed) {i : Nat} {l : Link} (hlt : i < m.links.length)
    (hs : m.slot i = [])
    (hm : l.slot ≠ [] → ∃ s : Message, s.Fits ∧ s.kind = UInt16.ofNat (i + 1) ∧ l.slot = s.toBytes) :
    Framed { m with links := m.links.set i l } := by
  have hself : ({ m with links := m.links.set i l } : Multiplexer).slot i = l.slot := slot_set_self hlt
  have hother : ∀ j, i ≠ j → ({ m with links := m.links.set i l } : Multiplexer).slot j = m.slot j :=
    fun _ hij => slot_set_ne hij l
  refine ⟨h.typed, ?_, ?_⟩
  · intro j hne
    by_cases hij : i = j
    · subst hij
      rw [hself] at hne
      obtain ⟨s, hf, hk, hb⟩ := hm hne
      have hw : ({ m with links := m.links.set i l } : Multiplexer).waiting (.slot i) = s := by
        rw [waiting, hself, hb, s.drop_toBytes, ← hk]
      rw [hw, hself]
      exact ⟨hf, hb⟩
    · rw [hother j hij] at hne
      have hw : ({ m with links := m.links.set i l } : Multiplexer).waiting (.slot j) =
          m.waiting (.slot j) := by
        rw [waiting, hother j hij]
        rfl
      rw [hw, hother j hij]
      exact h.slots j hne
  · intro job hj
    obtain ⟨hh, ho⟩ := h.inbound job hj
    obtain ⟨hne, hmsg⟩ := h.message_set hs l hj
    rw [hmsg]
    refine ⟨?_, ho⟩
    cases hjo : job.origin with
    | slot j =>
      rw [hjo] at hh hne
      have hij : i ≠ j := fun hij => hne (by rw [hij])
      show ({ m with links := m.links.set i l } : Multiplexer).slot j ≠ []
      rw [hother j hij]
      exact hh
    | console stop =>
      rw [hjo] at hh
      exact hh

theorem Fed.set_link (h : Fed m₀ m none ms) {i : Nat} {l l' : Link} (hl : m.links[i]? = some l)
    (hs : l.slot = []) {e : Option Ending}
    (hm : l'.slot ≠ [] → ∃ s : Message, s.Fits ∧ s.kind = UInt16.ofNat (i + 1) ∧ l'.slot = s.toBytes)
    (ht : ∀ l₀ frames, Link.Took l₀ l none frames → Link.Took l₀ l' e (frames ++ l'.held)) :
    Fed m₀ { m with links := m.links.set i l' } e ms := by
  have hlt : i < m.links.length := (List.getElem?_eq_some_iff.mp hl).1
  have hslot : m.slot i = [] := (slot_of_link hl).trans hs
  have hbegun : ({ m with links := m.links.set i l' } : Multiplexer).begun = m.begun :=
    begun_congr rfl fun _ hj => (h.framed.message_set hslot l' hj).2
  refine ⟨h.framed.set_link hlt hslot hm, h.fits, ?_, ?_, ?_⟩
  · rw [hbegun]
    exact h.data
  · show (m.links.set i l').length = _
    rw [List.length_set]
    exact h.links
  · intro j l₀ l'' hl₀ hl''
    by_cases hij : i = j
    · subst hij
      rw [List.getElem?_set_self hlt] at hl''
      injection hl'' with hl''
      subst hl''
      have := h.frames i l₀ l hl₀ hl
      rw [Link.held_of_empty hs, List.append_nil] at this
      exact ht l₀ _ this
    · rw [List.getElem?_set_ne hij] at hl''
      exact (h.frames j l₀ l'' hl₀ hl'').ends e

theorem captureIfReady_eq (ready : Readiness) (i : Nat) (m : Multiplexer) :
    (captureIfReady ready i m).1 = m ∨
      ∃ l, (captureIfReady ready i m).1 = { m with links := m.links.set i l } := by
  unfold captureIfReady Phase.when capture
  split
  · split
    · exact .inl rfl
    · exact .inr ⟨_, rfl⟩
  · exact .inl rfl

theorem captureIfReady_fed (ready : Readiness) (i : Nat) (h : Fed m₀ m none ms) :
    Fed m₀ (captureIfReady ready i m).1 (captureIfReady ready i m).2 ms := by
  unfold captureIfReady Phase.when
  split
  · rename_i hr
    rw [Bool.and_eq_true, List.isEmpty_iff] at hr
    unfold capture
    cases hl : m.links[i]? with
    | none => exact h
    | some l =>
      have hs : l.slot = [] := slot_of_link hl ▸ hr.2
      exact h.set_link hl hs (slot_of_receive i hs) fun _ _ ht => ht.receive hs i
  · exact h

/-- What the child's own output cannot change is kept by every phase behind the console's if the
phases on the way to the child keep it. -/
theorem keeps_tail_of_inward {I : Multiplexer → Option Ending → Prop}
    (hs : ∀ m m' e, I m none → SameInward m m' → I m' e)
    (hwrite : writeInput.Keeps I) (hline : queueLine.Keeps I)
    (hcapture : ∀ ready i, (captureIfReady ready i).Keeps I) (hslot : ∀ i, (queueSlot i).Keeps I)
    (awake : Readiness) (m : Multiplexer) : ∀ p ∈ (phases awake m).tail, p.Keeps I := by
  refine forall_mem_tail_phases ?_ ?_ ?_ ?_ ?_ ?_ ?_ ?_ awake m
  · exact fun b => hwrite.when b
  · exact fun b => .when b fun m h => hs m _ _ h (writeFrame_inward m)
  · exact hline
  · exact fun b => .when b fun m h => hs m _ _ h (readChild_inward m)
  · exact fun m h => hs m _ _ h (takeMessages_inward m)
  · exact fun m h => hs m _ _ h (endOfChild_inward m)
  · exact hcapture
  · exact hslot

theorem keeps_of_inward {I : Multiplexer → Option Ending → Prop}
    (hs : ∀ m m' e, I m none → SameInward m m' → I m' e) (hread : readConsole.Keeps I)
    (hwrite : writeInput.Keeps I) (hline : queueLine.Keeps I)
    (hcapture : ∀ ready i, (captureIfReady ready i).Keeps I) (hslot : ∀ i, (queueSlot i).Keeps I)
    (awake : Readiness) (m : Multiplexer) : ∀ p ∈ phases awake m, p.Keeps I := by
  intro p hp
  rcases List.mem_cons.mp hp with rfl | hp
  · exact hread.when _
  · exact keeps_tail_of_inward hs hwrite hline hcapture hslot awake m p hp

/-- **What the child has been given stays whole** through every phase of a turn. -/
theorem fed_keeps (hN : m₀.links.length ≤ Message.maxInterfaces) (awake : Readiness) (m : Multiplexer) :
    ∀ p ∈ phases awake m, Phase.Keeps (fun m e => ∃ ms, Fed m₀ m e ms) p := by
  refine keeps_of_inward ?_ ?_ ?_ ?_ ?_ ?_ awake m
  · exact fun _ _ e ⟨ms, h⟩ hs => ⟨ms, h.of_inward hs e⟩
  · exact fun _ ⟨ms, h⟩ => ⟨ms, readConsole_fed h⟩
  · exact fun _ ⟨_, h⟩ => writeInput_fed h hN
  · exact fun _ ⟨ms, h⟩ => ⟨ms, queueLine_fed h⟩
  · exact fun ready i _ ⟨ms, h⟩ => ⟨ms, captureIfReady_fed ready i h⟩
  · exact fun i _ ⟨ms, h⟩ => ⟨ms, queueSlot_fed i h⟩

theorem fed_of_fresh (h : m₀.Fresh) (hr : sendRoster m₀ = (m, none)) : Fed m₀ m none [] := by
  have ho := h.opened hr
  refine ⟨⟨?_, ?_, ?_⟩, fun _ hs => (nomatch hs), ?_, congrArg List.length ho.links, ?_⟩
  · rw [consoleFilled, ho.typed]
    decide
  · intro i hne
    have hslot : m.slot i = m₀.slot i := by
      rw [slot, slot, ho.links]
    rw [hslot, h.slot] at hne
    exact absurd rfl hne
  · intro job hj
    rw [ho.inbound] at hj
    cases hj
  · rw [ho.childInput, begun, ho.inbound]
    simp
  · intro i l₀ l hl₀ hl
    rw [ho.links, hl₀] at hl
    injection hl with hl
    subst hl
    refine ⟨rfl, rfl, [], [], rfl, ?_, .inl rfl, ?_⟩
    · intro a ha
      cases ha
    · rw [Link.held_of_empty (h.untouched l₀ (List.mem_of_getElem? hl₀)).1]
      rfl

/-- **The child reads the roster, whole messages, and the front of the one that is on its way**, at
every point of every run. The messages of a link, with the frame that waits in its slot, are what
the link has received, one message for each frame and in the same order. -/
theorem child_reads_whole_messages {schedule : List Readiness} {awake : Readiness} {k : Nat}
    {m₁ : Multiplexer} (hm : m₀.Fresh) (hr : sendRoster m₀ = (m₁, none))
    (hu : upTo schedule awake k m₁ = (m, e)) :
    ∃ roster ms part,
      Message.encode ⟨Message.control, m₀.links.flatMap fun l => l.address.toBytes⟩ = .ok roster ∧
      (∀ s ∈ ms, s.encode = .ok s.toBytes) ∧
      m.childInput.data.toList = roster ++ ms.flatMap Message.toBytes ++ part ∧
      (m.inbound = none → part = []) ∧
      (∀ job, m.inbound = some job → ∃ b, (m.waiting job.origin).encode = .ok b ∧
        part = b.take job.offset ∧ job.offset < b.length) ∧
      m.links.length = m₀.links.length ∧
      ∀ i (l₀ l : Link), m₀.links[i]? = some l₀ → m.links[i]? = some l →
        l₀.Took l e (Message.payloadsOf (UInt16.ofNat (i + 1)) ms ++ l.held) := by
  have h := upTo_keeps (fed_keeps hm.links.2) schedule awake k m₁ ⟨[], fed_of_fresh hm hr⟩
  rw [hu] at h
  obtain ⟨ms, h⟩ := h
  refine ⟨m₀.roster.toBytes, ms, m.begun, Message.encode_of_fits hm.roster_fits, ?_, h.data, ?_, ?_,
    h.links, h.frames⟩
  · exact fun s hs => Message.encode_of_fits (h.fits s hs)
  · intro hj
    rw [begun, hj]
  · intro job hj
    obtain ⟨hh, ho⟩ := h.framed.inbound job hj
    obtain ⟨hb, hf⟩ := h.framed.message_eq hh
    refine ⟨m.message job.origin, ?_, ?_, ho⟩
    · rw [hb]
      exact Message.encode_of_fits hf
    · rw [begun, hj]

/-- Two links: a tagged frame on the one comes at the second attempt, and the child takes its
message in pieces. -/
def pair : Multiplexer :=
  { links :=
      [{ name := "left", address := ⟨#v[2, 0, 0, 0, 0, 1]⟩, mtu := 1500,
         arrivals := [.fault ⟨.wouldBlock, "again"⟩, .frame (List.replicate 14 7) (some ⟨Tag.dot1q, 5⟩)] },
       { name := "right", address := ⟨#v[2, 0, 0, 0, 0, 2]⟩, mtu := 1500,
         arrivals := [.foreign 3, .frame [1] none] }]
    childInput := { writes := [.accept 20, .fault ⟨.interrupted, "interrupted"⟩, .accept 9] } }

def allReady : Readiness := ⟨true, true, true, true, [true, true]⟩

theorem fresh_pair : pair.Fresh := by
  have h : ofLinks pair.links none = .ok { links := pair.links } := rfl
  exact fresh_of_ofLinks h (by decide) pair.childInput {} {} rfl rfl

theorem child_of_pair_reads_whole_messages :
    pair.Fresh ∧ sendRoster pair = ((sendRoster pair).1, none) ∧
      ∃ roster, ∃ ms : List Message, ∃ part, pair.roster.encode = .ok roster ∧
        (upTo (List.replicate 4 allReady) allReady 2 (sendRoster pair).1).1.childInput.data.toList =
          roster ++ ms.flatMap Message.toBytes ++ part := by
  have hr : sendRoster pair = ((sendRoster pair).1, none) := Prod.ext rfl (by decide)
  have hu : upTo (List.replicate 4 allReady) allReady 2 (sendRoster pair).1 =
      ((upTo (List.replicate 4 allReady) allReady 2 (sendRoster pair).1).1,
        (upTo (List.replicate 4 allReady) allReady 2 (sendRoster pair).1).2) := rfl
  refine ⟨fresh_pair, hr, ?_⟩
  obtain ⟨roster, ms, part, h, _, hd, _⟩ := child_reads_whole_messages fresh_pair hr hu
  exact ⟨roster, ms, part, h, hd⟩

end

end Multiplexer

end EtherBench
