import EtherBench.Proofs.Multiplexer.CommandLines
import EtherBench.Proofs.Multiplexer.Waiting

/-!
# What the end of the console cuts off

A turn looks at the console first, and the end of the console is the end of the
run. The console buffer goes down with it: lines that were typed in time, but
were still on their way or behind another message, do not reach the child. With
nothing on its way the buffer holds no whole line, so none is lost then.
-/

namespace EtherBench.Multiplexer

section
variable {b : Bytes}

theorem segments_eq_nil_iff (h : b.length < Message.maxPayload) : segments b = [] ↔ 10 ∉ b := by
  have hcut : cutPoint b = none ↔ 10 ∉ b := by
    unfold cutPoint
    rw [List.take_of_length_le (Nat.le_of_lt h), if_neg (Nat.not_le.mpr h)]
    cases hi : b.idxOf? 10 with
    | none => simpa using hi
    | some i =>
      obtain ⟨hlt, he, _⟩ := List.idxOf?_eq_some_iff.mp hi
      simp [← he]
  rw [← hcut, segments]
  split
  · rename_i hn
    simp [hn]
  · rename_i n hn
    simp [hn]

end

section
variable {m₀ m m' m₁ : Multiplexer} {e : Option Ending} {text : Bytes}

/-! ## What leaves the console alone -/

theorem stopAt_ne_consoleClosed (activity : String) (f : Fault) : stopAt activity f ≠ some .consoleClosed := by
  unfold stopAt
  split <;> simp

theorem print_ne_consoleClosed (text : Bytes) (m : Multiplexer) : (print text m).2 ≠ some .consoleClosed := by
  unfold print
  split
  · simp
  · simp
  · split <;> simp

theorem takeMessages_ne_consoleClosed (m : Multiplexer) : (takeMessages m).2 ≠ some .consoleClosed := by
  fun_induction takeMessages m with
  | case4 m _ payload _ _ e hp =>
    have := print_ne_consoleClosed payload m
    rwa [hp] at this
  | case5 _ _ _ _ _ _ _ ih => exact ih
  | case7 _ _ _ _ _ _ _ _ _ ih => exact ih
  | _ => simp

theorem receive_ne_consoleClosed (i : Nat) (l : Link) : (receive i l).2 ≠ some .consoleClosed := by
  unfold receive
  split
  · simp
  · exact stopAt_ne_consoleClosed _ _
  · simp
  · split
    · simp
    · simp only
      split <;> simp

theorem ne_consoleClosed_of_mem_tail (awake : Readiness) (m : Multiplexer) :
    ∀ p ∈ (phases awake m).tail, p.Keeps fun _ e => e ≠ some .consoleClosed := by
  refine forall_mem_tail_phases ?_ ?_ ?_ ?_ ?_ ?_ ?_ ?_ awake m
  · refine fun b => .when b fun m _ => ?_
    unfold writeInput
    split
    · simp
    · simp only
      split
      · exact stopAt_ne_consoleClosed _ _
      · simp
      · split <;> simp
  · refine fun b => .when b fun m _ => ?_
    unfold writeFrame
    split
    · simp
    · split
      · simp
      · simp only
        split
        · exact stopAt_ne_consoleClosed _ _
        · simp
        · split <;> simp
  · intro m _
    unfold queueLine
    split <;> simp
  · refine fun b => .when b fun m _ => ?_
    unfold readChild
    split
    · exact stopAt_ne_consoleClosed _ _
    · simp
    · simp
  · exact fun m _ => takeMessages_ne_consoleClosed m
  · intro m _
    unfold endOfChild
    split
    · split <;> simp
    · simp
  · intro ready i m _
    unfold captureIfReady Phase.when capture
    split
    · split
      · simp
      · exact receive_ne_consoleClosed _ _
    · simp
  · intro i m _
    unfold queueSlot
    split <;> simp

theorem console_of_mem_tail (awake : Readiness) (m : Multiplexer) {console : Option Source} :
    ∀ p ∈ (phases awake m).tail, p.Keeps fun m _ => m.console = console := by
  refine keeps_tail_of_inward ?_ ?_ ?_ ?_ ?_ awake m
  · exact fun _ _ _ h hs => hs.console.trans h
  · intro m h
    rcases writeInput_cases m with ⟨s, e, hw, _⟩ | ⟨_, _, _, _, _, _, hw⟩ | ⟨job, s, _, _, hw⟩
    · rw [hw]
      exact h
    · rw [hw]
      exact h
    · rw [hw]
      cases job.origin <;> exact h
  · intro m h
    unfold queueLine
    split <;> exact h
  · intro ready i m h
    rcases captureIfReady_eq ready i m with he | ⟨_, he⟩
    · rwa [he]
    · rw [he]
      exact h
  · intro i m h
    unfold queueSlot
    split <;> exact h

/-! ## Up to the end -/

/-- Since `m₀`, `text` has been read of the console, and the rest of its stream is still to come. -/
def Drawn (m₀ m : Multiplexer) (text : Bytes) : Prop :=
  m₀.unread = text ++ m.unread ∧
    m₀.console.map Source.stream = m.console.map fun s => text ++ s.stream

/-- The console of `m₀` has ended behind `text`, at a state in which the loop had waited. -/
structure EndedBehind (m₀ m : Multiplexer) (text : Bytes) : Prop where
  stream : m₀.console.map Source.stream = some text
  unread : m₀.unread = text ++ m.unread
  line : m.inbound = none → lineEnd m = none
  room : m.consoleFilled < bufferSize

/-- All of the console's stream has been read exactly where its end has ended the run. -/
def Heard (m₀ m : Multiplexer) (e : Option Ending) : Prop :=
  if e = some .consoleClosed then ∃ text, EndedBehind m₀ m text else ∃ text, Drawn m₀ m text

theorem heard_of_drawn (h : Drawn m₀ m text) (he : e ≠ some .consoleClosed) : Heard m₀ m e := by
  rw [Heard, if_neg he]
  exact ⟨text, h⟩

theorem Drawn.congr (h : Drawn m₀ m text) (hc : m'.console = m.console) : Drawn m₀ m' text := by
  rw [Drawn, unread_congr hc, hc]
  exact h

theorem Drawn.readConsole (h : Drawn m₀ m text) (hroom : m.consoleFilled < bufferSize)
    (hline : m.inbound = none → lineEnd m = none) :
    Heard m₀ (readConsole m).1 (readConsole m).2 ∧
      ((readConsole m).2 = none → ∃ text, Drawn m₀ (readConsole m).1 text) := by
  obtain ⟨hunread, hstream⟩ := h
  unfold Multiplexer.readConsole
  split
  · exact ⟨heard_of_drawn ⟨hunread, hstream⟩ (by simp), fun _ => ⟨text, hunread, hstream⟩⟩
  · rename_i source hc
    rw [unread_of_console hc] at hunread
    rw [hc, Option.map_some] at hstream
    split
    · rename_i f source' hr
      have hd : Drawn m₀ { m with console := some source' } text := by
        constructor
        · rw [hunread, Source.bytes_of_read hr]
          rfl
        · rw [hstream, ← Source.stream_of_read_error hr]
          rfl
      exact ⟨heard_of_drawn hd (stopAt_ne_consoleClosed _ _), fun _ => ⟨text, hd⟩⟩
    · rename_i source' hr
      refine ⟨?_, nofun⟩
      rw [Heard, if_pos rfl]
      refine ⟨text, ?_, ?_, hline, hroom⟩
      · rw [hstream, Source.stream_of_read_nil (Nat.sub_pos_of_lt hroom) hr, List.append_nil]
      · rw [hunread, Source.bytes_of_read hr]
        rfl
    · rename_i b source' hne hr
      have hd : Drawn m₀ { m with console := some source', typed := m.typed ++ b } (text ++ b) := by
        constructor
        · rw [hunread, Source.bytes_of_read hr, List.append_assoc]
          rfl
        · rw [hstream, Source.stream_of_read hr hne, ← List.append_assoc]
          rfl
      exact ⟨heard_of_drawn hd (by simp), fun _ => ⟨_, hd⟩⟩

def Listening (m₀ m : Multiplexer) : Prop :=
  (∃ text, Drawn m₀ m text) ∧ Rested m.links.length m

theorem heard_throughout (awake : Readiness) (m : Multiplexer) (h : Listening m₀ m) :
    Phase.Throughout (· = m) (phases awake m) (Heard m₀) (Listening m₀) := by
  obtain ⟨⟨text, hd⟩, hrest⟩ := h
  have hheard : ∀ m, (∃ text, Drawn m₀ m text) → Heard m₀ m none :=
    fun _ ⟨_, h⟩ => heard_of_drawn h (by simp)
  have hall : Phase.Throughout (· = m) (phases awake m) (Heard m₀) fun m => ∃ text, Drawn m₀ m text := by
    refine Phase.Throughout.cons (Q := fun m => ∃ text, Drawn m₀ m text) ?_ ?_
      (Phase.throughout_of_forall hheard ?_)
    · rintro _ rfl
      exact heard_of_drawn hd (by simp)
    · refine .when ?_ fun hready => ?_
      · rintro _ rfl
        exact ⟨heard_of_drawn hd (by simp), fun _ => ⟨text, hd⟩⟩
      · rintro _ rfl
        -- the console is looked at only where the buffer has room, so no bytes mean its end
        simp only [Readiness.inter, interest, Bool.and_eq_true, decide_eq_true_eq] at hready
        exact hd.readConsole hready.1.2 hrest.line
    · rintro p hp m' ⟨text, h⟩
      have h := h.congr (console_of_mem_tail awake m p hp m' rfl)
      exact ⟨heard_of_drawn h (ne_consoleClosed_of_mem_tail awake m p hp m' (by simp)), fun _ => ⟨text, h⟩⟩
  refine ⟨hall.1, ?_⟩
  rintro _ rfl he
  refine ⟨hall.2 _ rfl he, ?_⟩
  rw [← turn_eq_sequence] at he ⊢
  exact turn_rests awake he

theorem listening_of_fresh (h : m₀.Fresh) (hr : sendRoster m₀ = (m, none)) : Listening m₀ m := by
  have hc := (h.opened hr).console
  refine ⟨⟨[], ?_, ?_⟩, rested_of_fresh h hr⟩
  · rw [unread_congr hc]
    rfl
  · rw [hc]
    rfl

theorem lines_prefix_iff {text typed : Bytes} :
    (∀ line, line ++ [10] <+: text ++ typed → line ++ [10] <+: text) ↔ 10 ∉ typed := by
  constructor
  · intro h hmem
    obtain ⟨before, behind, rfl⟩ := List.append_of_mem hmem
    have hp := (h (text ++ before) ⟨behind, by simp⟩).length_le
    simp only [List.length_append, List.length_singleton] at hp
    omega
  · intro hn line hp
    rcases List.prefix_or_prefix_of_prefix hp (List.prefix_append text typed) with h | ⟨more, hmore⟩
    · exact h
    · rw [← hmore, List.prefix_append_right_inj] at hp
      rcases List.eq_nil_or_concat more with rfl | ⟨front, last, rfl⟩
      · rw [List.append_nil] at hmore
        exact hmore ▸ List.prefix_refl text
      · -- a line that reached into `typed` would have its newline there
        rw [List.concat_eq_append] at hp hmore
        rw [← List.append_assoc] at hmore
        have hlast := List.append_inj_right' hmore rfl
        rw [hlast] at hp
        exact absurd (hp.subset (List.mem_append_right _ (List.mem_singleton.mpr rfl))) hn

theorem segments_of_underWay {ms : List Message} (h : Lined m₀ m ms) {p : Bytes}
    (hp : m.underWay = some p) : segments m.typed = p :: segments m.behind := by
  unfold underWay at hp
  split at hp
  · rename_i stop offset hj
    injection hp with hp
    rw [segments_of_cutPoint (h.cut stop offset hj), hp, behind, hj]
  · cases hp

/-- **What the end of the console cuts off.** Where it ends a run, the child has been given the first
segments of what was typed up to it, and those left in the console buffer it is not given; of one on
its way it has a front part only. So no whole line is lost exactly where the buffer holds no segment,
as is the case where no message was on its way. -/
theorem console_end_drops_buffer {schedule : List Readiness} (hm : m₀.Fresh)
    (hr : sendRoster m₀ = (m₁, none)) (ht : turns schedule m₁ = (m, some .consoleClosed)) :
    ∃ source ms,
      m₀.console = some source ∧
      (∀ s ∈ ms, s.encode = .ok s.toBytes) ∧
      m.childInput.data.toList = m₀.roster.toBytes ++ ms.flatMap Message.toBytes ++ m.begun ∧
      source.stream = (Message.payloadsOf Message.control ms).flatten ++ m.typed ∧
      segments source.stream = Message.payloadsOf Message.control ms ++ segments m.typed ∧
      (∀ p, m.underWay = some p → segments m.typed = p :: segments m.behind ∧
        ∃ left, left ≠ [] ∧ Message.encode ⟨Message.control, p⟩ = .ok (m.begun ++ left)) ∧
      ((∀ line, line ++ [10] <+: source.stream →
        line ++ [10] <+: (Message.payloadsOf Message.control ms).flatten) ↔ segments m.typed = []) ∧
      (m.inbound = none → segments m.typed = []) := by
  have hu (awake) : upTo schedule awake 0 m₁ = (m, some .consoleClosed) := (upTo_zero ..).trans ht
  obtain ⟨ms, hf, hl⟩ : ∃ ms, FedLines m₀ m (some .consoleClosed) ms := by
    have h := upTo_keeps (fedLines_keeps hm.links.2) schedule m.interest 0 m₁
      ⟨[], fed_of_fresh hm hr, lined_of_fresh hm hr⟩
    rwa [hu] at h
  obtain ⟨text, hend⟩ : ∃ text, EndedBehind m₀ m text := by
    have h := (upTo_induction heard_throughout schedule m.interest 0 m₁ (listening_of_fresh hm hr)).1
    rwa [hu, Heard, if_pos rfl] at h
  obtain ⟨source, hsource, rfl⟩ := Option.map_eq_some_iff.mp hend.stream
  have htext : source.stream = (Message.payloadsOf Message.control ms).flatten ++ m.typed :=
    List.append_cancel_right (hend.unread.symm.trans hl.text)
  have hroom : m.typed.length < Message.maxPayload := by
    have := hend.room
    simp only [consoleFilled, bufferSize, Message.maxPayload] at this ⊢
    omega
  have hnil := segments_eq_nil_iff hroom
  refine ⟨source, ms, hsource, ?_, hf.data, htext, ?_, ?_, ?_, ?_⟩
  · exact fun s hs => Message.encode_of_fits (hf.fits s hs)
  · rw [htext, segments_flatten_append hl.segments]
  · exact fun p hp => ⟨segments_of_underWay hl hp, hf.framed.begun_underWay hp⟩
  · rw [htext, hnil]
    exact lines_prefix_iff
  · intro hj
    exact hnil.mpr (lineEnd_eq_none_iff.mp (hend.line hj)).1

def typing (pieces : List Bytes) : Multiplexer :=
  { links := [{ name := "left", address := ⟨Vector.replicate 6 2⟩, mtu := 1500 }]
    console := some ⟨pieces.map .data⟩ }

theorem fresh_typing (pieces : List Bytes) : (typing pieces).Fresh := by
  have h : ofLinks (typing pieces).links (typing pieces).console = .ok (typing pieces) := rfl
  exact fresh_of_ofLinks h (List.forall_mem_singleton.mpr ⟨rfl, rfl⟩) {} {} {} rfl rfl

def twoLines : Multiplexer := typing [[97, 10], [98, 10]]

theorem second_line_is_dropped :
    twoLines.Fresh ∧ sendRoster twoLines = ((sendRoster twoLines).1, none) ∧ ∃ m ms,
      turns (List.replicate 3 consoleReady) (sendRoster twoLines).1 = (m, some .consoleClosed) ∧
        m.childInput.data.toList = twoLines.roster.toBytes ++ ms.flatMap Message.toBytes ++ m.begun ∧
        segments [97, 10, 98, 10] = Message.payloadsOf Message.control ms ++ segments [98, 10] := by
  have hm : twoLines.Fresh := fresh_typing _
  have hr : sendRoster twoLines = ((sendRoster twoLines).1, none) := Prod.ext rfl (by decide)
  have ht : turns (List.replicate 3 consoleReady) (sendRoster twoLines).1 =
      ((turns (List.replicate 3 consoleReady) (sendRoster twoLines).1).1, some .consoleClosed) :=
    Prod.ext rfl (by decide +kernel)
  have htyped : (turns (List.replicate 3 consoleReady) (sendRoster twoLines).1).1.typed = [98, 10] := by
    decide +kernel
  obtain ⟨source, ms, hsource, _, hdata, _, hsegments, _⟩ := console_end_drops_buffer hm hr ht
  injection hsource with hsource
  rw [← hsource, htyped] at hsegments
  exact ⟨hm, hr, _, ms, ht, hdata, hsegments⟩

def oneLine : Multiplexer := typing [[104, 105, 10]]

/-- Although the child takes whatever it is offered, the roster is all that it has been given. -/
theorem only_line_is_dropped :
    oneLine.Fresh ∧ sendRoster oneLine = ((sendRoster oneLine).1, none) ∧ oneLine.childInput.writes = [] ∧
      oneLine.console.map Source.stream = some [104, 105, 10] ∧ ∃ m,
      turns (List.replicate 2 consoleReady) (sendRoster oneLine).1 = (m, some .consoleClosed) ∧
        m.childInput.data.toList = oneLine.roster.toBytes :=
  ⟨fresh_typing _, Prod.ext rfl (by decide), rfl, rfl, _, Prod.ext rfl (by decide +kernel),
    by decide +kernel⟩

end

end EtherBench.Multiplexer
