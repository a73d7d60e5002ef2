import EtherBench.Proofs.Multiplexer.ChildOutput
import EtherBench.Proofs.Multiplexer.Dispatched
import Mathlib.Algebra.BigOperators.Group.Finset.Basic

/-!
# What the statistics count

Frames are counted where their last octet goes, in both directions, and texts
of the child's where the display has been flushed behind them. A command line is
counted when it sets out: while it is on its way, and where the run ends with it
on its way, the count is one ahead of what the child has been given.
-/

namespace EtherBench.Multiplexer

def captureCount (ms : List Message) : Nat := ms.countP (·.kind ≠ Message.control)

def linesUnderWay (m : Multiplexer) : Nat :=
  match m.inbound with
  | none => 0
  | some job =>
    match job.origin with
    | .slot _ => 0
    | .console _ => 1

/-- The child of a run from `m₀` has been given the messages `ms`. Each is counted, and so is the
line on its way. -/
structure FedCounted (m₀ m : Multiplexer) (e : Option Ending) (ms : List Message) : Prop where
  fed : Fed m₀ m e ms
  captured : m.statistics.captured = m₀.statistics.captured + captureCount ms
  commands : m.statistics.commands = m₀.statistics.commands + textCount ms + m.linesUnderWay

section
variable {m₀ m m' m₁ : Multiplexer} {e : Option Ending} {ms : List Message}

/-! ## To the child -/

theorem captureCount_append (ms ms' : List Message) :
    captureCount (ms ++ ms') = captureCount ms + captureCount ms' := List.countP_append

theorem linesUnderWay_congr (h : m'.inbound = m.inbound) : m'.linesUnderWay = m.linesUnderWay := by
  rw [linesUnderWay, linesUnderWay, h]

theorem linesUnderWay_none (h : m.inbound = none) : m.linesUnderWay = 0 := by
  rw [linesUnderWay, h]

theorem linesUnderWay_slot {job : Inbound} {i : Nat} (hj : m.inbound = some job) (ho : job.origin = .slot i) :
    m.linesUnderWay = 0 := by
  simp only [linesUnderWay, hj, ho]

theorem linesUnderWay_console {job : Inbound} {stop : Nat} (hj : m.inbound = some job)
    (ho : job.origin = .console stop) : m.linesUnderWay = 1 := by
  simp only [linesUnderWay, hj, ho]

theorem FedCounted.congr (h : FedCounted m₀ m none ms) (hf : Fed m₀ m' e ms)
    (hi : m'.linesUnderWay = m.linesUnderWay)
    (hcaptured : m'.statistics.captured = m.statistics.captured)
    (hcommands : m'.statistics.commands = m.statistics.commands) : FedCounted m₀ m' e ms := by
  refine ⟨hf, hcaptured.trans h.captured, ?_⟩
  rw [hcommands, hi]
  exact h.commands

theorem FedCounted.of_inward (h : FedCounted m₀ m none ms) (hs : SameInward m m') (e : Option Ending) :
    FedCounted m₀ m' e ms :=
  h.congr (h.fed.of_inward hs e) (linesUnderWay_congr hs.inbound) hs.captured hs.commands

theorem readConsole_counted (h : FedCounted m₀ m none ms) :
    FedCounted m₀ (readConsole m).1 (readConsole m).2 ms := by
  refine h.congr (readConsole_fed h.fed) (linesUnderWay_congr ?_) ?_ ?_
  all_goals
    unfold readConsole
    split
    · rfl
    · split <;> rfl

theorem queueLine_counted (h : FedCounted m₀ m none ms) :
    FedCounted m₀ (queueLine m).1 (queueLine m).2 ms := by
  have hf := queueLine_fed h.fed
  unfold queueLine at hf ⊢
  split
  · rename_i stop hj hl
    rw [hj, hl] at hf
    have hcommands := h.commands
    rw [linesUnderWay_none hj] at hcommands
    exact ⟨hf, h.captured, congrArg (· + 1) hcommands⟩
  · exact h

theorem queueSlot_counted (i : Nat) (h : FedCounted m₀ m none ms) :
    FedCounted m₀ (queueSlot i m).1 (queueSlot i m).2 ms := by
  have hf := queueSlot_fed i h.fed
  unfold queueSlot at hf ⊢
  split
  · rename_i hi
    rw [if_pos hi] at hf
    rw [Bool.and_eq_true, Option.isNone_iff_eq_none] at hi
    exact h.congr hf (linesUnderWay_none hi.1).symm rfl rfl
  · exact h

theorem captureIfReady_counted (ready : Readiness) (i : Nat) (h : FedCounted m₀ m none ms) :
    FedCounted m₀ (captureIfReady ready i m).1 (captureIfReady ready i m).2 ms := by
  have hf := captureIfReady_fed ready i h.fed
  rcases captureIfReady_eq ready i m with he | ⟨l, he⟩
  · rw [he] at hf ⊢
    exact h.congr hf rfl rfl rfl
  · rw [he] at hf ⊢
    exact h.congr hf rfl rfl rfl

theorem FedCounted.deliver (h : FedCounted m₀ m none ms) (hN : m₀.links.length ≤ Message.maxInterfaces)
    {job : Inbound} (hj : m.inbound = some job) {s : Sink}
    (hs : s.data.toList = m.childInput.data.toList ++ m.pendingInput job) :
    FedCounted m₀ (delivered job.origin { m with childInput := s }) none
      (ms ++ [m.waiting job.origin]) := by
  have hf := h.fed.deliver hN hj hs
  obtain ⟨hh, _⟩ := h.fed.framed.inbound job hj
  have hcaptured := h.captured
  have hcommands := h.commands
  cases ho : job.origin with
  | slot i =>
    rw [ho] at hf hh
    rw [linesUnderWay_slot hj ho] at hcommands
    have hkind : (m.waiting (.slot i)).kind ≠ Message.control :=
      (Message.control_ne_kind (h.fed.lt_max hN hh)).symm
    refine ⟨hf, ?_, ?_⟩
    · rw [captureCount_append, ← Nat.add_assoc, ← hcaptured]
      simp [captureCount, hkind, delivered]
    · rw [textCount_append]
      simpa [textCount, hkind, delivered, linesUnderWay] using hcommands
  | console stop =>
    rw [ho] at hf
    rw [linesUnderWay_console hj ho] at hcommands
    have hkind : (m.waiting (.console stop)).kind = Message.control := rfl
    refine ⟨hf, ?_, ?_⟩
    · rw [captureCount_append]
      simpa [captureCount, hkind, delivered] using hcaptured
    · rw [textCount_append]
      simpa [textCount, hkind, delivered, linesUnderWay, Nat.add_assoc] using hcommands

theorem writeInput_counted (h : FedCounted m₀ m none ms) (hN : m₀.links.length ≤ Message.maxInterfaces) :
    ∃ ms', FedCounted m₀ (writeInput m).1 (writeInput m).2 ms' := by
  rcases writeInput_cases m with ⟨s, e, hw, hs⟩ | ⟨job, s, n, hj, hn, hs, hw⟩ | ⟨job, s, hj, hs, hw⟩
  · rw [hw]
    exact ⟨ms, h.congr (h.fed.unwritten hs e) rfl rfl rfl⟩
  · rw [hw]
    refine ⟨ms, h.congr (h.fed.advance hj hs hn) ?_ rfl rfl⟩
    simp only [linesUnderWay, hj]
  · rw [hw]
    exact ⟨_, h.deliver hN hj hs⟩

/-- **The counts stay in step with what the child has been given** through every phase of a turn. -/
theorem fedCounted_keeps (hN : m₀.links.length ≤ Message.maxInterfaces) (awake : Readiness)
    (m : Multiplexer) :
    ∀ p ∈ phases awake m, Phase.Keeps (fun m e => ∃ ms, FedCounted m₀ m e ms) p := by
  refine keeps_of_inward ?_ ?_ ?_ ?_ ?_ ?_ awake m
  · exact fun _ _ e ⟨ms, h⟩ hs => ⟨ms, h.of_inward hs e⟩
  · exact fun _ ⟨ms, h⟩ => ⟨ms, readConsole_counted h⟩
  · exact fun _ ⟨_, h⟩ => writeInput_counted h hN
  · exact fun _ ⟨ms, h⟩ => ⟨ms, queueLine_counted h⟩
  · exact fun ready i _ ⟨ms, h⟩ => ⟨ms, captureIfReady_counted ready i h⟩
  · exact fun i _ ⟨ms, h⟩ => ⟨ms, queueSlot_counted i h⟩

theorem fedCounted_of_fresh (h : m₀.Fresh) (hr : sendRoster m₀ = (m, none)) : FedCounted m₀ m none [] := by
  have hf := fed_of_fresh h hr
  have hj := (h.opened hr).inbound
  obtain ⟨childInput, rfl⟩ := sendRoster_eq hr
  refine ⟨hf, rfl, ?_⟩
  rw [linesUnderWay_none hj]
  rfl

/-! ## From the child -/

/-- The messages `ms` of the child's have taken effect and are counted. Where the display has failed, it
has shown a part of one more text, which is not. -/
structure TakenCounted (m₀ m : Multiplexer) (e : Option Ending) (ms : List Message) : Prop where
  counted : Counted m₀ m ms
  took : Carried m₀ m ms ∨ DisplayFailed e ∧ CutShort m₀ m ms

/-- **The counts stay in step with what the child has said** throughout every turn. -/
theorem takenCounted_throughout (hN : m₀.links.length ≤ Message.maxInterfaces) (awake : Readiness)
    (m : Multiplexer) (h : ∃ ms, Carried m₀ m ms ∧ Counted m₀ m ms) :
    Phase.Throughout (· = m) (phases awake m) (fun m e => ∃ ms, TakenCounted m₀ m e ms)
      fun m => ∃ ms, Carried m₀ m ms ∧ Counted m₀ m ms := by
  have hturn := throughout_of_child (C := fun m => ∃ ms, Carried m₀ m ms ∧ Counted m₀ m ms)
    (I := fun m e => ∃ ms, TakenCounted m₀ m e ms) ?_ ?_ ?_ ?_ ?_ awake m h
  · exact ⟨hturn.1, fun m hm he => (hturn.2 m hm he).1⟩
  · exact fun m e ⟨ms, hc, hcounted⟩ _ => ⟨ms, hcounted, .inl hc⟩
  · intro m m' ⟨ms, hc, hcounted⟩ hs
    have hall := hcounted.trans (.of_outward hs)
    rw [List.append_nil] at hall
    exact ⟨ms, hc.of_outward hs, hall⟩
  · intro m ⟨ms, hc, hcounted⟩
    obtain ⟨more, hnext, hmore⟩ := writeFrame_carried hc hN
    exact ⟨ms ++ more, hnext, hcounted.trans hmore⟩
  · intro m ⟨ms, hc, hcounted⟩ hopen hlt
    have hall := hcounted.trans (readChild_counted m)
    rw [List.append_nil] at hall
    exact ⟨ms, readChild_carried hc hopen hlt, hall⟩
  · intro m ⟨ms, hc, hcounted⟩
    obtain ⟨more, hmore, hends⟩ := takeMessages_took hN hc
    refine ⟨⟨ms ++ more, hcounted.trans hmore, ?_⟩, fun he => ⟨ms ++ more, ?_, hcounted.trans hmore⟩⟩
    · exact hends.symm.imp_left And.left
    · rcases hends with ⟨⟨f, hf⟩, _⟩ | ⟨hc, _⟩
      · rw [he] at hf
        cases hf
      · exact hc

theorem counted_of_fresh (hr : sendRoster m₀ = (m, none)) : Counted m₀ m [] := by
  obtain ⟨childInput, rfl⟩ := sendRoster_eq hr
  exact ⟨rfl, rfl, rfl⟩

/-- The child's frames are those that its links have been given, taken together. -/
theorem frameCount_eq_sum {n : Nat} (hn : n ≤ Message.maxInterfaces) (h : ∀ s ∈ ms, s.kind.toNat ≤ n) :
    frameCount ms = ∑ i ∈ Finset.range n, (framesFor i ms).length := by
  induction ms with
  | nil => exact (Finset.sum_eq_zero fun _ _ => rfl).symm
  | cons s ms ih =>
    have hsum : frameCount (s :: ms) = frameCount [s] + frameCount ms := frameCount_append [s] ms
    have hframes : ∀ i, (framesFor i (s :: ms)).length = (framesFor i [s]).length + (framesFor i ms).length := by
      intro i
      rw [← List.length_append, ← framesFor_append]
      rfl
    rw [hsum, ih fun x hx => h x (List.mem_cons_of_mem _ hx)]
    simp only [hframes, Finset.sum_add_distrib]
    congr 1
    have hle := h s (List.mem_cons_self ..)
    by_cases hc : s.kind = Message.control
    · rw [Finset.sum_eq_zero]
      · simp [frameCount, hc]
      · intro i hi
        have hlt := Nat.lt_of_lt_of_le (Finset.mem_range.mp hi) hn
        rw [framesFor_other (by rw [hc]; exact Message.control_ne_kind hlt)]
        rfl
    · by_cases hp : s.payload = []
      · rw [Finset.sum_eq_zero]
        · simp [frameCount, hp]
        · intro i _
          rw [framesFor_empty hp]
          rfl
      · -- the frame is for one link, and for no other
        have hpos : 0 < s.kind.toNat := Nat.pos_of_ne_zero fun h₀ => hc (UInt16.toNat_inj.mp h₀)
        have hkind : s.kind = UInt16.ofNat (s.kind.toNat - 1 + 1) := by
          rw [Nat.sub_add_cancel hpos, UInt16.ofNat_toNat]
        rw [Finset.sum_eq_single (s.kind.toNat - 1)]
        · rw [framesFor_self hkind hp]
          simp [frameCount, hc, hp]
        · intro j hj hne
          rw [framesFor_other]
          · rfl
          · rw [hkind]
            exact Message.kind_ne (by omega) (Nat.lt_of_lt_of_le (Finset.mem_range.mp hj) hn) hne.symm
        · intro hout
          rw [Finset.mem_range] at hout
          omega

/-! ## Runs -/

/-- What is counted on the way to the child: its input is the roster, the messages `given`, and the
front of one more that is not whole. -/
structure CountsGiven (m₀ m : Multiplexer) (given : List Message) : Prop where
  written : m.childInput.data.toList = m₀.roster.toBytes ++ given.flatMap Message.toBytes ++ m.begun
  whole : (Message.split m.childInput.data.toList).1 = m₀.roster :: given
  captured : m.statistics.captured = captureCount given
  commands : m.statistics.commands = textCount given + m.linesUnderWay

/-- What is counted on the way from the child: of its messages `taken`, every frame has been sent whole
and every text is shown with a flush behind it. Of one more message a part may have gone out. -/
structure CountsTaken (m₀ m : Multiplexer) (e : Option Ending) (taken : List Message) : Prop where
  read : m₀.childOutput.stream = taken.flatMap Message.toBytes ++ m.childBuffer ++
    if m.childEnded then [] else m.childOutput.stream
  sent : ∀ i (l : Link), m.links[i]? = some l → l.Sent (framesFor i taken) (m.begunOn i)
  unsent : ∀ job, m.outbound = some job → m.pendingFrame job ≠ []
  injected : m.statistics.injected = ∑ i ∈ Finset.range m.links.length, (framesFor i taken).length
  shown : ∃ part, m.display.data.toList = (Message.payloadsOf Message.control taken).flatten ++ part ∧
    (part = [] ∨ DisplayFailed e ∧ ∃ text rest,
      Message.decode m.childBuffer = .complete ⟨Message.control, text⟩ rest ∧ part <+: text)
  consoleMessages : m.statistics.consoleMessages = textCount taken
  flushed : m.display.flushed = m₀.display.flushed + textCount taken

theorem FedCounted.countsGiven (h : FedCounted m₀ m e ms) (hroster : m₀.roster.Fits)
    (hzero : m₀.statistics = {}) : CountsGiven m₀ m ms := by
  have hcaptured := h.captured
  have hcommands := h.commands
  rw [hzero] at hcaptured hcommands
  refine ⟨h.fed.data, h.fed.split_written hroster, ?_, ?_⟩
  · rw [hcaptured, Nat.zero_add]
  · rw [hcommands, Nat.zero_add]

theorem TakenCounted.carried (h : TakenCounted m₀ m e ms) : ∃ display,
    Carried m₀ { m with display } ms ∧ ∃ part, m.display.data.toList = display.data.toList ++ part ∧
      (part = [] ∨ DisplayFailed e ∧ ∃ text rest,
        Message.decode m.childBuffer = .complete ⟨Message.control, text⟩ rest ∧ part <+: text) := by
  rcases h.took with hc | ⟨hfailed, display, text, rest, part, hc, hd, hpart, hdata, _⟩
  · exact ⟨m.display, hc, [], (List.append_nil _).symm, .inl rfl⟩
  · exact ⟨display, hc, part, hdata, .inr ⟨hfailed, text, rest, hd, hpart⟩⟩

theorem TakenCounted.countsTaken (h : TakenCounted m₀ m e ms)
    (hN : m₀.links.length ≤ Message.maxInterfaces) (hzero : m₀.statistics = {}) :
    CountsTaken m₀ m e ms := by
  obtain ⟨display, hc, part, hdata, hpart⟩ := h.carried
  obtain ⟨hinjected, htexts, hflushed⟩ := h.counted
  rw [hzero] at hinjected htexts
  have hlinks : m.links.length = m₀.links.length := hc.links
  have hshown : display.data.toList = (Message.payloadsOf Message.control ms).flatten := hc.display
  refine ⟨hc.stream, hc.sent, fun job hj => hc.pendingFrame_ne_nil hj, ?_, ⟨part, ?_, hpart⟩, ?_,
    hflushed⟩
  · rw [hinjected, Nat.zero_add, hlinks]
    exact frameCount_eq_sum hN hc.known
  · rw [hdata, hshown]
  · rw [htexts, Nat.zero_add]

/-- **What the statistics count**, at every point of every run, however it ends: the frames that the
child has been given whole, those that the links have, and the texts that were shown and flushed.
Command lines are counted when they set out, so one that is on its way is counted too. -/
theorem statistics_count_what_left {schedule : List Readiness} {awake : Readiness} {k : Nat}
    (hm : m₀.Fresh) (hzero : m₀.statistics = {}) (hr : sendRoster m₀ = (m₁, none))
    (hu : upTo schedule awake k m₁ = (m, e)) :
    ∃ given taken, CountsGiven m₀ m given ∧ CountsTaken m₀ m e taken := by
  have hN := hm.links.2
  have hgiven := upTo_keeps (fedCounted_keeps hN) schedule awake k m₁ ⟨[], fedCounted_of_fresh hm hr⟩
  have htaken := (upTo_induction (takenCounted_throughout hN) schedule awake k m₁
    ⟨[], carried_of_fresh hm hr, counted_of_fresh hr⟩).1
  rw [hu] at hgiven htaken
  obtain ⟨given, hgiven⟩ := hgiven
  obtain ⟨taken, htaken⟩ := htaken
  exact ⟨given, taken, hgiven.countsGiven hm.roster_fits hzero, htaken.countsTaken hN hzero⟩

/-- The child reads the roster and no more, while a line is typed. -/
def deaf : Multiplexer :=
  { links := [{ name := "left", address := ⟨Vector.replicate 6 2⟩, mtu := 1500 }]
    childInput := { writes := [.accept 10, .fault Fault.brokenPipe] }
    childOutput := ⟨[.data [0, 6, 0, 0, 104, 105, 0]]⟩
    console := some ⟨[.data [120, 10]]⟩ }

def deafTurns : List Readiness := [⟨true, true, true, true, [true]⟩, childReady]

/-- The count is one ahead of what the child has been given, also where the run has ended. -/
theorem deaf_child_is_counted_for :
    deaf.Fresh ∧ deaf.statistics = {} ∧ sendRoster deaf = ((sendRoster deaf).1, none) ∧ ∃ m given taken,
      turns deafTurns (sendRoster deaf).1 =
        (m, some (.failed (.fault "write to child" Fault.brokenPipe))) ∧
      m.linesUnderWay = 1 ∧ m.statistics.commands = textCount given + 1 ∧
      m.statistics.consoleMessages = textCount taken := by
  have hm : deaf.Fresh := by
    have h : ofLinks deaf.links deaf.console = .ok { links := deaf.links, console := deaf.console } := rfl
    exact fresh_of_ofLinks h (by decide) deaf.childInput {} deaf.childOutput rfl rfl
  have hr : sendRoster deaf = ((sendRoster deaf).1, none) := Prod.ext rfl (by decide)
  have ht : turns deafTurns (sendRoster deaf).1 =
      ((turns deafTurns (sendRoster deaf).1).1,
        some (.failed (.fault "write to child" Fault.brokenPipe))) := Prod.ext rfl (by decide +kernel)
  have hline : (turns deafTurns (sendRoster deaf).1).1.linesUnderWay = 1 := by
    decide +kernel
  obtain ⟨given, taken, hgiven, htaken⟩ := statistics_count_what_left hm rfl hr
    ((upTo_zero _ childReady _).trans ht)
  refine ⟨hm, rfl, hr, _, given, taken, ht, hline, ?_, htaken.consoleMessages⟩
  rw [hgiven.commands, hline]

/-- One command line is counted where the child has accepted the roster and nothing else. -/
theorem undelivered_line_is_counted :
    (turns deafTurns (sendRoster deaf).1).2 =
        some (.failed (.fault "write to child" Fault.brokenPipe)) ∧
      (turns deafTurns (sendRoster deaf).1).1.childInput.data.toList =
        deaf.roster.toBytes ∧
      (turns deafTurns (sendRoster deaf).1).1.statistics.commands = 1 := by
  decide +kernel

end

end EtherBench.Multiplexer
