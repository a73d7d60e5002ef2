import EtherBench.Message.Reader
import EtherBench.Proofs.Multiplexer.Waiting
import Mathlib.Algebra.GroupWithZero.Nat

/-!
# Serving the child to the end

A turn that finds the child's output and the links ready reads some of what the
child has written, or sends some of a frame. What there is of both is finite, so
a run in which that happens often enough comes to its end.
-/

namespace EtherBench

theorem sum_map_set {α : Type} {f : α → Nat} {xs : List α} {i : Nat} {x : α} (h : xs[i]? = some x) (y : α) :
    ((xs.set i y).map f).sum + f x = (xs.map f).sum + f y := by
  induction xs generalizing i with
  | nil => cases h
  | cons z xs ih =>
    cases i with
    | zero =>
      cases h
      simp only [List.set_cons_zero, List.map_cons, List.sum_cons]
      omega
    | succ i =>
      have := ih h
      simp only [List.set_cons_succ, List.map_cons, List.sum_cons]
      omega

theorem Source.weight_of_read_error {room : Nat} {s t : Source} {f : Fault} (h : s.read room = (.error f, t)) :
    t.weight < s.weight := by
  unfold Source.read at h
  split at h
  · cases h
  · rename_i hs
    cases h
    simp only [Source.weight, hs, List.map_cons, List.foldr_cons, ReadEvent.weight]
    omega
  · split at h <;> cases h

def Link.Quiet (l : Link) : Prop :=
  l.arrivals = [] ∧ l.slot = [] ∧
    ∀ w ∈ l.sends, (∃ k, w = .accept (k + 1)) ∨ ∃ f, w = .fault f ∧ f.isTransient

def Readiness.servesChild (r : Readiness) : Bool := r.childOutput && r.outbound

namespace Multiplexer

/-- What the child's output can still keep the loop busy with. -/
def backlog (m : Multiplexer) : Nat :=
  2 * m.childOutput.weight + m.childBuffer.length + (m.links.map (·.sends.length)).sum +
    if m.childEnded then 0 else 1

section
variable {m₀ m m' : Multiplexer} {ms : List Message} {n : Nat}

theorem backlog_of_outward (h : SameOutward m m') : m'.backlog = m.backlog := by
  have hsends : ∀ m : Multiplexer, m.links.map (·.sends.length) =
      (m.links.map Link.outward).map (·.sends.length) := fun m => by rw [List.map_map]; rfl
  rw [backlog, backlog, hsends m', hsends m, h.links, h.childOutput, h.childBuffer, h.childEnded]

/-! ## Reads, frames and messages -/

theorem readChild_backlog (m : Multiplexer) : (readChild m).1.backlog ≤ m.backlog ∧
    (m.childEnded = false → (readChild m).1.backlog < m.backlog) := by
  unfold readChild
  split
  · rename_i hr
    have := Source.weight_of_read_error hr
    simp only [backlog]
    omega
  · rename_i hr
    have := Reader.weight_of_read hr
    simp only [backlog, if_true]
    constructor
    · omega
    · intro he
      rw [he, if_neg Bool.false_ne_true]
      omega
  · rename_i b source hb hr
    have hw := Reader.weight_of_read hr
    have hpos := List.length_pos_iff.mpr fun hnil => hb hnil
    simp only [backlog, List.length_append]
    omega

theorem sends_of_sendOn (frame : Bytes) (l : Link) :
    (sendOn frame l).2.sends.length < l.sends.length ∨
      (sendOn frame l).1 = .ok frame.length ∧ (sendOn frame l).2.sends = l.sends := by
  unfold sendOn
  split <;> simp_all

/-- A frame that a link takes whole leaves the buffer, and all else uses up an outcome of the link. -/
theorem writeFrame_backlog (m : Multiplexer) : (writeFrame m).1.backlog ≤ m.backlog ∧
    (∀ m₀ ms, Carried m₀ m ms → m.outbound.isSome → (writeFrame m).1.backlog < m.backlog) := by
  unfold writeFrame
  cases hj : m.outbound with
  | none => exact ⟨Nat.le_refl _, fun _ _ _ h => by cases h⟩
  | some job =>
    simp only
    cases hl : m.links[job.link]? with
    | none =>
      refine ⟨Nat.le_refl _, fun m₀ ms h _ => ?_⟩
      obtain ⟨_, _, _, _, hlink, _⟩ := h.front job hj
      rw [List.getElem?_eq_getElem hlink] at hl
      cases hl
    | some l =>
      have hsum := sum_map_set (f := fun l : Link => l.sends.length) hl (sendOn (m.pendingFrame job) l).2
      have hsends := sends_of_sendOn (m.pendingFrame job) l
      obtain ⟨result, l', hsend⟩ : ∃ result l', sendOn (m.pendingFrame job) l = (result, l') :=
        ⟨_, _, rfl⟩
      simp only [hsend] at hsum hsends ⊢
      have hle : l'.sends.length ≤ l.sends.length := by
        rcases hsends with hlt | ⟨_, he⟩
        · exact Nat.le_of_lt hlt
        · exact Nat.le_of_eq (congrArg List.length he)
      have hwhole : ∀ m₀ ms, Carried m₀ m ms → l'.sends.length < l.sends.length ∨
          result = .ok (job.stop - job.offset) ∧ job.offset < job.stop ∧ 0 < m.childBuffer.length := by
        intro m₀ ms h
        obtain ⟨hlen, hlt⟩ := h.length_pendingFrame hj
        obtain ⟨s, rest, hd, _⟩ := h.front job hj
        have hbuffer := Message.length_of_decode hd
        rw [hlen] at hsends
        simp only [Message.headerSize] at hbuffer
        exact hsends.imp_right fun h => ⟨h.1, hlt, by omega⟩
      cases result with
      | error f =>
        have hlt := hsends.resolve_right fun h => by cases h.1
        simp only [backlog]
        exact ⟨by omega, fun _ _ _ _ => by omega⟩
      | ok k =>
        simp only [Except.ok.injEq] at hwhole
        cases k with
        | zero =>
          simp only [backlog]
          refine ⟨by omega, fun m₀ ms h _ => ?_⟩
          have := hwhole m₀ ms h
          omega
        | succ k =>
          simp only
          split
          · simp only [backlog]
            refine ⟨by omega, fun m₀ ms h _ => ?_⟩
            have := hwhole m₀ ms h
            omega
          · simp only [backlog, List.length_drop]
            refine ⟨by omega, fun m₀ ms h _ => ?_⟩
            have := hwhole m₀ ms h
            omega

theorem takeMessages_backlog (m : Multiplexer) (he : (takeMessages m).2 = none) :
    (takeMessages m).1.backlog ≤ m.backlog := by
  have hconsume : ∀ (m : Multiplexer) {s : Message} {rest : Bytes},
      Message.decode m.childBuffer = .complete s rest →
      ({ m with childBuffer := rest } : Multiplexer).backlog ≤ m.backlog := by
    intro m s rest hd
    have := Message.length_of_decode hd
    simp only [backlog]
    omega
  fun_induction takeMessages m with
  | case1 => exact Nat.le_refl _
  | case2 => exact Nat.le_refl _
  | case3 => cases he
  | case4 => cases he
  | case5 m _ payload rest m' hp hd ih =>
    obtain ⟨display, statistics, rfl, _⟩ := display_of_print hp
    exact Nat.le_trans (ih he) (hconsume m hd)
  | case6 => cases he
  | case7 m _ kind payload rest hd _ _ _ ih => exact Nat.le_trans (ih he) (hconsume m hd)
  | case8 => exact Nat.le_refl _

/-! ## Turns -/

abbrev Below (n : Nat) (m : Multiplexer) : Prop := m.backlog < n

theorem below_of_phase {awake : Readiness} {p : Phase} (hp : p ∈ phases awake m') (n : Nat) :
    p.Leads (Below n) fun m e => e = none → Below n m := by
  have hle : ∀ {p : Phase}, (∀ m, (p m).2 = none → (p m).1.backlog ≤ m.backlog) →
      p.Leads (Below n) fun m e => e = none → Below n m :=
    fun h m hm he => Nat.lt_of_le_of_lt (h m he) hm
  have hout : ∀ {p : Phase}, (∀ m, SameOutward m (p m).1) → p.Leads (Below n) fun m e => e = none → Below n m :=
    fun h => hle fun m _ => Nat.le_of_eq (backlog_of_outward (h m))
  have hwhen : ∀ {ready : Bool} {p : Phase}, p.Leads (Below n) (fun m e => e = none → Below n m) →
      (Phase.when ready p).Leads (Below n) fun m e => e = none → Below n m :=
    fun h => .when (fun _ hm _ => hm) fun _ => h
  unfold phases commonPhases linkPhases at hp
  simp only [List.mem_append, List.mem_cons, List.mem_flatMap, List.not_mem_nil, or_false] at hp
  rcases hp with (rfl | rfl | rfl | rfl | rfl | rfl | rfl) | ⟨i, _, rfl | rfl⟩
  · exact hwhen (hout readConsole_outward)
  · exact hwhen (hout writeInput_outward)
  · exact hwhen (hle fun m _ => (writeFrame_backlog m).1)
  · exact hout queueLine_outward
  · exact hwhen (hle fun m _ => (readChild_backlog m).1)
  · exact hle takeMessages_backlog
  · exact hle fun m he => Nat.le_of_eq (congrArg backlog (endOfChild_rests he).1)
  · exact hout (captureIfReady_outward _ i)
  · exact hout fun m => queueSlot_outward m i

theorem below_of_phases (awake : Readiness) (m : Multiplexer) (n : Nat) (ps : List Phase)
    (h : ∀ p ∈ ps, p ∈ phases awake m) :
    (Phase.sequence ps).Leads (Below n) fun m e => e = none → Below n m :=
  (Phase.throughout_of_forall (I := fun _ _ => True) (fun _ _ => trivial)
    fun p hp m' hm => ⟨trivial, below_of_phase (h p hp) n m' hm⟩).2

theorem turn_backlog_le (awake : Readiness) (he : (turn awake m).2 = none) :
    (turn awake m).1.backlog ≤ m.backlog := by
  rw [turn_eq_sequence] at he ⊢
  exact Nat.lt_succ_iff.mp (below_of_phases awake m _ _ (fun _ hp => hp) m (Nat.lt_succ_self _) he)

theorem leads_sameOutward {p : Phase} (h : ∀ m, SameOutward m (p m).1) (m : Multiplexer) :
    p.Leads (SameOutward m) fun m' e => e = none → SameOutward m m' :=
  fun m' hm _ => hm.trans (h m')

theorem when_leads_sameOutward {p : Phase} (h : ∀ m, SameOutward m (p m).1) (ready : Bool) (m : Multiplexer) :
    (Phase.when ready p).Leads (SameOutward m) fun m' e => e = none → SameOutward m m' :=
  .when (fun _ hm _ => hm) fun _ => leads_sameOutward h m

theorem below_of_sending (hc : Carried m₀ m ms) {job : Outbound} (hj : m.outbound = some job)
    {awake : Readiness} (hready : (m.interest.inter awake).outbound = true) :
    (Phase.sequence (commonPhases (m.interest.inter awake))).Leads (SameOutward m)
      fun m' e => e = none → Below m.backlog m' := by
  have hbelow := below_of_phases awake m m.backlog
  unfold phases at hbelow
  unfold commonPhases at hbelow ⊢
  refine .andThen (when_leads_sameOutward readConsole_outward _ m) ?_
  refine .andThen (when_leads_sameOutward writeInput_outward _ m) ?_
  refine .andThen (Q := Below m.backlog) ?_ (hbelow _ (by simp +contextual))
  rw [hready]
  intro m' hm _
  have hlt := (writeFrame_backlog m').2 m₀ ms (hc.of_outward hm) (by rw [hm.outbound, hj]; rfl)
  rwa [backlog_of_outward hm] at hlt

theorem below_of_reading (hj : m.outbound = none) (hopen : m.childEnded = false) {awake : Readiness}
    (hready : (m.interest.inter awake).childOutput = true) :
    (Phase.sequence (commonPhases (m.interest.inter awake))).Leads (SameOutward m)
      fun m' e => e = none → Below m.backlog m' := by
  have hidle : writeFrame.Leads (SameOutward m) fun m' e => e = none → SameOutward m m' := by
    intro m' hm _
    unfold writeFrame
    rwa [hm.outbound, hj]
  have hbelow := below_of_phases awake m m.backlog
  unfold phases at hbelow
  unfold commonPhases at hbelow ⊢
  refine .andThen (when_leads_sameOutward readConsole_outward _ m) ?_
  refine .andThen (when_leads_sameOutward writeInput_outward _ m) ?_
  refine .andThen (.when (fun _ hm _ => hm) fun _ => hidle) ?_
  refine .andThen (leads_sameOutward queueLine_outward m) ?_
  refine .andThen (Q := Below m.backlog) ?_ (hbelow _ (by simp +contextual))
  rw [hready]
  intro m' hm _
  have hlt := (readChild_backlog m').2 (hm.childEnded.trans hopen)
  rwa [backlog_of_outward hm] at hlt

/-- **A turn that serves the child gets on with its output**, whichever of the two it is that there
is to do. -/
theorem turn_backlog_lt {awake : Readiness} (hs : Settled m₀ m) (hr : Rested n m)
    (hserves : awake.servesChild = true) (he : (turn awake m).2 = none) :
    (turn awake m).1.backlog < m.backlog := by
  obtain ⟨⟨ms, hc⟩, _⟩ := hs
  obtain ⟨hread, hsend⟩ := Bool.and_eq_true_iff.mp hserves
  have hcommon : (Phase.sequence (commonPhases (m.interest.inter awake))).Leads (SameOutward m)
      fun m' e => e = none → Below m.backlog m' := by
    cases hj : m.outbound with
    | some job => exact below_of_sending hc hj (by simp [Readiness.inter, interest, hj, hsend])
    | none =>
      have hopen := hr.childOpen hj
      have hroom := Message.length_lt_of_incomplete (hr.incomplete hj)
      exact below_of_reading hj hopen (by simp [Readiness.inter, interest, hopen, bufferSize, hroom, hread])
  have hlinks := below_of_phases awake m m.backlog _ fun p hp => List.mem_append_right _ hp
  rw [turn_eq_sequence] at he ⊢
  rw [phases, Phase.sequence_append] at he ⊢
  exact hcommon.andThen hlinks m (.refl m) he

theorem ended_of_served (hN : m₀.links.length ≤ Message.maxInterfaces) {schedule : List Readiness}
    (hs : Settled m₀ m) (hr : Rested m.links.length m)
    (hlt : m.backlog < schedule.countP Readiness.servesChild) : (turns schedule m).2 ≠ none := by
  induction schedule generalizing m with
  | nil => exact absurd hlt (Nat.not_lt_zero _)
  | cons awake schedule ih =>
    intro he
    have hturn : turns (awake :: schedule) m = ((turn awake).andThen (turns schedule)) m := rfl
    rw [hturn] at he
    cases hend : (turn awake m).2 with
    | some e =>
      rw [Phase.andThen_of_some hend, hend] at he
      cases he
    | none =>
      rw [Phase.andThen_of_none hend] at he
      refine ih ?_ (turn_rests awake hend) ?_ he
      · have := (faithful_throughout hN awake m hs).2 m rfl
        rw [← turn_eq_sequence] at this
        exact this hend
      · rw [List.countP_cons] at hlt
        have hle := turn_backlog_le awake hend
        split at hlt
        · rename_i hserves
          have := turn_backlog_lt hs hr hserves hend
          omega
        · omega

/-! ## Nothing but the child's output -/

/-- No operator types and no frames arrive, and whatever the child's messages go to takes them. -/
structure Quiet (m : Multiplexer) : Prop where
  console : m.console = none
  typed : m.typed = []
  inbound : m.inbound = none
  links : ∀ l ∈ m.links, l.Quiet
  display : m.display.Patient ∧ ∀ x ∈ m.display.flushes, x = .done
  childOutput : ∀ f, .fault f ∈ m.childOutput.events → f.isTransient

/-- The run goes on, or has ended with the child's output or at a message of it. -/
def ByChild : Option Ending → Prop
  | none | some .childClosed | some (.failed (.sizeBelowHeader _)) => True
  | some (.failed (.unknownInterface _ _)) | some (.failed (.childClosedMidMessage _)) => True
  | _ => False

theorem Quiet.readChild (h : m.Quiet) : (readChild m).1.Quiet ∧ (Multiplexer.readChild m).2 = none := by
  unfold Multiplexer.readChild
  split <;> rename_i hr <;> obtain ⟨hfault, hevents⟩ := Source.faults_of_read hr
  · rename_i f _
    refine ⟨⟨h.console, h.typed, h.inbound, h.links, h.display, fun f hf => h.childOutput f (hevents f hf)⟩, ?_⟩
    simp [stopAt, h.childOutput f (hfault f rfl)]
  · exact ⟨⟨h.console, h.typed, h.inbound, h.links, h.display, fun f hf => h.childOutput f (hevents f hf)⟩, rfl⟩
  · exact ⟨⟨h.console, h.typed, h.inbound, h.links, h.display, fun f hf => h.childOutput f (hevents f hf)⟩, rfl⟩

theorem Quiet.set (h : m.Quiet) {i : Nat} {l : Link} (hl : l.Quiet) :
    Quiet { m with links := m.links.set i l } := by
  refine ⟨h.console, h.typed, h.inbound, ?_, h.display, h.childOutput⟩
  intro x hx
  rcases List.mem_or_eq_of_mem_set hx with hx | rfl
  · exact h.links x hx
  · exact hl

theorem sendOn_of_quiet {frame : Bytes} {l : Link} (hl : l.Quiet) (hframe : frame ≠ []) :
    (sendOn frame l).2.Quiet ∧ (sendOn frame l).1 ≠ .ok 0 ∧
      ∀ f, (sendOn frame l).1 = .error f → f.isTransient := by
  have hpos := List.length_pos_iff.mpr hframe
  obtain ⟨harrivals, hslot, hsends⟩ := hl
  unfold sendOn
  split
  · refine ⟨⟨harrivals, hslot, hsends⟩, ?_, fun _ => nofun⟩
    simpa using hframe
  · rename_i hs
    rcases hsends (.accept 0) (by simp [hs]) with ⟨k, hk⟩ | ⟨f, hf, _⟩
    · cases hk
    · cases hf
  · rename_i k sends hk hs
    refine ⟨⟨harrivals, hslot, fun w hw => hsends w (by simp [hs, hw])⟩, ?_, fun _ => nofun⟩
    have hk : k ≠ 0 := hk
    simp only [ne_eq, Except.ok.injEq]
    omega
  · rename_i f sends hs
    refine ⟨⟨harrivals, hslot, fun w hw => hsends w (by simp [hs, hw])⟩, nofun, ?_⟩
    rintro f ⟨⟩
    rcases hsends (.fault f) (by simp [hs]) with ⟨k, hk⟩ | ⟨g, hg, ht⟩
    · cases hk
    · cases hg
      exact ht

theorem Quiet.writeFrame (h : m.Quiet) (hc : Carried m₀ m ms) :
    (writeFrame m).1.Quiet ∧ (Multiplexer.writeFrame m).2 = none := by
  unfold Multiplexer.writeFrame
  cases hj : m.outbound with
  | none => exact ⟨h, rfl⟩
  | some job =>
    simp only
    cases hl : m.links[job.link]? with
    | none => exact ⟨h, rfl⟩
    | some l =>
      obtain ⟨result, l', hsend⟩ : ∃ result l', sendOn (m.pendingFrame job) l = (result, l') :=
        ⟨_, _, rfl⟩
      obtain ⟨hl', hne, hfault⟩ := sendOn_of_quiet (h.links l (List.mem_of_getElem? hl))
        (hc.pendingFrame_ne_nil hj)
      simp only [hsend] at hl' hne hfault ⊢
      have hset := h.set (i := job.link) hl'
      split
      · rename_i f
        exact ⟨⟨hset.console, hset.typed, hset.inbound, hset.links, hset.display, hset.childOutput⟩,
          by simp [stopAt, hfault f rfl]⟩
      · exact absurd rfl hne
      · split <;>
        exact ⟨⟨hset.console, hset.typed, hset.inbound, hset.links, hset.display, hset.childOutput⟩, rfl⟩

theorem Quiet.print (h : m.Quiet) (text : Bytes) :
    (print text m).1.Quiet ∧ (Multiplexer.print text m).2 = none := by
  obtain ⟨display, hw, hp, _⟩ := h.display.1.writeAll text
  have hflushes : display.flushes = m.display.flushes := by
    have := congrArg (fun r => r.2.flushes) hw
    exact this.symm
  have hdone : ∀ x ∈ display.flushes, x = .done := by
    rw [hflushes]
    exact h.display.2
  obtain ⟨display', hf, hp', hdone'⟩ : ∃ display', display.flushOnce = (.ok (), display') ∧
      display'.Patient ∧ ∀ x ∈ display'.flushes, x = .done := by
    obtain ⟨writes, flushes, data, flushed⟩ := display
    cases flushes with
    | nil => exact ⟨_, rfl, hp, by simp⟩
    | cons x flushes =>
      rw [hdone x (List.mem_cons_self ..)]
      exact ⟨_, rfl, hp, fun y hy => hdone y (List.mem_cons_of_mem _ hy)⟩
  unfold Multiplexer.print
  simp only [hw, hf]
  exact ⟨⟨h.console, h.typed, h.inbound, h.links, ⟨hp', hdone'⟩, h.childOutput⟩, trivial⟩

theorem Quiet.takeMessages (h : m.Quiet) :
    ByChild (takeMessages m).2 ∧ (Multiplexer.takeMessages m).1.Quiet := by
  have hconsume : ∀ {m : Multiplexer}, m.Quiet → ∀ rest, Quiet { m with childBuffer := rest } :=
    fun h _ => ⟨h.console, h.typed, h.inbound, h.links, h.display, h.childOutput⟩
  fun_induction Multiplexer.takeMessages m with
  | case1 | case2 | case3 => exact ⟨trivial, h⟩
  | case4 m _ payload _ m' e hp =>
    have := (h.print payload).2
    rw [hp] at this
    cases this
  | case5 m _ payload rest m' hp _ ih =>
    have := (h.print payload).1
    rw [hp] at this
    exact ih (hconsume this rest)
  | case6 => exact ⟨trivial, h⟩
  | case7 m _ kind payload rest _ _ _ _ ih => exact ih (hconsume h rest)
  | case8 => exact ⟨trivial, h.console, h.typed, h.inbound, h.links, h.display, h.childOutput⟩

theorem Quiet.readConsole (h : m.Quiet) : readConsole m = (m, none) := by
  unfold Multiplexer.readConsole
  rw [h.console]

theorem Quiet.writeInput (h : m.Quiet) : writeInput m = (m, none) := by
  unfold Multiplexer.writeInput
  rw [h.inbound]

theorem Quiet.queueLine (h : m.Quiet) : queueLine m = (m, none) := by
  have hline : lineEnd m = none := by
    rw [lineEnd_eq_none_iff, consoleFilled, h.typed]
    decide
  unfold Multiplexer.queueLine
  rw [h.inbound, hline]

theorem Quiet.captureIfReady (h : m.Quiet) (ready : Readiness) (i : Nat) :
    captureIfReady ready i m = (m, none) := by
  unfold Multiplexer.captureIfReady Phase.when capture
  split
  · cases hl : m.links[i]? with
    | none => rfl
    | some l =>
      have harrivals := (h.links l (List.mem_of_getElem? hl)).1
      obtain ⟨hi, rfl⟩ := List.getElem?_eq_some_iff.mp hl
      simp [receive, harrivals]
  · rfl

theorem Quiet.queueSlot (h : m.Quiet) (i : Nat) : queueSlot i m = (m, none) := by
  have hslot : m.slot i = [] := by
    cases hl : m.links[i]? with
    | none => simp [slot, hl]
    | some l => simp [slot, hl, (h.links l (List.mem_of_getElem? hl)).2.1]
  simp [Multiplexer.queueSlot, hslot]

/-- **In a quiet run only the child's output moves**, and only it ends the run. -/
theorem quiet_throughout (awake : Readiness) (h : m.Quiet) (hc : Carried m₀ m ms) :
    Phase.Throughout (· = m) (phases awake m) (fun _ => ByChild) Quiet := by
  have hstart : ∀ m' : Multiplexer, m' = m → ByChild none := fun _ _ => trivial
  have hquiet : ∀ m : Multiplexer, m.Quiet → ByChild none := fun _ _ => trivial
  have hstay : ∀ {ready : Bool} {p : Phase}, p m = (m, none) →
      (Phase.when ready p).Leads (· = m) fun m' e => ByChild e ∧ (e = none → m' = m) := by
    rintro ready p hp m' rfl
    unfold Phase.when
    split
    · rw [hp]
      exact ⟨trivial, fun _ => rfl⟩
    · exact ⟨trivial, fun _ => rfl⟩
  have hidle : ∀ {p : Phase}, (∀ m : Multiplexer, m.Quiet → p m = (m, none)) →
      p.Leads Quiet fun m e => ByChild e ∧ (e = none → m.Quiet) := by
    intro p hp m hm
    rw [hp m hm]
    exact ⟨trivial, fun _ => hm⟩
  unfold phases commonPhases
  simp only [List.cons_append, List.nil_append]
  refine .cons hstart (hstay h.readConsole) (.cons hstart (hstay h.writeInput) ?_)
  refine .cons (Q := Quiet) hstart ?_ (Phase.throughout_of_forall hquiet ?_)
  · rintro m' rfl
    unfold Phase.when
    split
    · obtain ⟨hframe, he⟩ := h.writeFrame hc
      rw [he]
      exact ⟨trivial, fun _ => hframe⟩
    · exact ⟨trivial, fun _ => h⟩
  · intro p hp
    simp only [linkPhases, List.mem_cons, List.mem_flatMap, List.not_mem_nil, or_false] at hp
    rcases hp with rfl | rfl | rfl | rfl | ⟨i, _, rfl | rfl⟩
    · exact hidle fun m hm => hm.queueLine
    · refine .when (fun m hm => ⟨trivial, fun _ => hm⟩) fun _ m hm => ?_
      obtain ⟨hread, he⟩ := hm.readChild
      rw [he]
      exact ⟨trivial, fun _ => hread⟩
    · intro m hm
      exact ⟨hm.takeMessages.1, fun _ => hm.takeMessages.2⟩
    · intro m hm
      unfold endOfChild
      split
      · split <;> exact ⟨trivial, fun _ => hm⟩
      · exact ⟨trivial, fun _ => hm⟩
    · exact hidle fun m hm => hm.captureIfReady _ i
    · exact hidle fun m hm => hm.queueSlot i

theorem byChild_of_quiet (hN : m₀.links.length ≤ Message.maxInterfaces) (hs : Settled m₀ m)
    (hq : m.Quiet) (schedule : List Readiness) : ByChild (turns schedule m).2 := by
  have h := upTo_induction (I := fun _ => ByChild) (S := fun m => Settled m₀ m ∧ m.Quiet) ?_ schedule
    m.interest 0 m ⟨hs, hq⟩
  · rw [upTo_zero] at h
    exact h.1
  · rintro awake m ⟨hs, hq⟩
    obtain ⟨ms, hc⟩ := hs.1
    have hquiet := quiet_throughout awake hq hc
    exact ⟨hquiet.1, fun m' hm he => ⟨(faithful_throughout hN awake m hs).2 m' hm he, hquiet.2 m' hm he⟩⟩

end

end Multiplexer

end EtherBench
