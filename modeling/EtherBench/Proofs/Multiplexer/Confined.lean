import EtherBench.Proofs.Multiplexer.Accesses

/-!
# Every run stays within its buffers

From phase to phase what is known of both directions is handed on, and with it
the bounds that the next phase needs on its buffers. So every run can be
carried out in them, and each of its points is within bounds.
-/

namespace EtherBench

open Multiplexer (bufferSize InBounds Phase Fed Carried Roomy SameInward SameOutward)

namespace Layout

/-! ## Phases one after the other -/

/-- Steps that mirror phases one by one, each phase leaving what the next one needs, and `R` behind the
last. -/
inductive Follow (R : Multiplexer → Prop) : (Multiplexer → Prop) → List Step → List Phase → Prop
  | nil {P : Multiplexer → Prop} (h : ∀ m, P m → R m) : Follow R P [] []
  | cons {P Q : Multiplexer → Prop} {step : Step} {p : Phase} {steps : List Step} {ps : List Phase}
      (mirrors : Mirrors P step p) (leads : p.Leads P fun m e => e = none → Q m)
      (later : Follow R Q steps ps) : Follow R P (step :: steps) (p :: ps)

section
variable {P Q R : Multiplexer → Prop} {step : Step} {p : Phase} {steps : List Step} {ps : List Phase}

theorem Mirrors.mono (h : Mirrors Q step p) (hP : ∀ m, P m → Q m) : Mirrors P step p :=
  fun w hw hp => h w hw (hP _ hp)

theorem Mirrors.when {ready : Bool} (h : ready = true → Mirrors P step p) :
    Mirrors P (.when ready step) (.when ready p) := by
  intro w hw hp
  unfold Step.when Phase.when
  split
  · rename_i hr
    exact h hr w hw hp
  · exact ⟨w, rfl, rfl, hw⟩

theorem Mirrors.andThen {step' : Step} {p' : Phase} (h : Mirrors P step p)
    (hl : p.Leads P fun m e => e = none → Q m) (h' : Mirrors Q step' p') :
    Mirrors P (step.andThen step') (p.andThen p') := by
  intro w hw hp
  obtain ⟨w', hstep, hview, hsound⟩ := h w hw hp
  cases he : (p w.view).2 with
  | none =>
    rw [he] at hstep
    rw [andThen_of_none hstep, Phase.andThen_of_none he, ← hview]
    exact h' w' hsound (hview ▸ hl _ hp he)
  | some e =>
    rw [he] at hstep
    rw [andThen_of_some hstep, Phase.andThen_of_some he]
    exact ⟨w', by rw [he], hview, hsound⟩

theorem Follow.take (h : Follow R P steps ps) (k : Nat) :
    Mirrors P (Step.sequence (steps.take k)) (Phase.sequence (ps.take k)) := by
  induction h generalizing k with
  | nil =>
    rw [List.take_nil, List.take_nil]
    exact fun w hw _ => ⟨w, rfl, rfl, hw⟩
  | cons mirrors leads _ ih =>
    cases k with
    | zero => exact fun w hw _ => ⟨w, rfl, rfl, hw⟩
    | succ k =>
      rw [List.take_succ_cons, List.take_succ_cons]
      exact mirrors.andThen leads (ih k)

theorem Follow.sequence (h : Follow R P steps ps) : Mirrors P (Step.sequence steps) (Phase.sequence ps) := by
  induction h with
  | nil => exact fun w hw _ => ⟨w, rfl, rfl, hw⟩
  | cons mirrors leads _ ih => exact mirrors.andThen leads ih

theorem Follow.leads (h : Follow R P steps ps) :
    (Phase.sequence ps).Leads P fun m e => e = none → R m := by
  induction h with
  | nil h => exact fun m hm _ => h m hm
  | cons _ leads _ ih => exact leads.andThen ih

theorem Follow.mono (h : Follow R Q steps ps) (hP : ∀ m, P m → Q m) : Follow R P steps ps := by
  cases h with
  | nil h => exact .nil fun m hm => h m (hP m hm)
  | cons mirrors leads later => exact .cons (mirrors.mono hP) (fun m hm => leads m (hP m hm)) later

theorem Follow.append {steps' : List Step} {ps' : List Phase} (h : Follow Q P steps ps)
    (h' : Follow R Q steps' ps') : Follow R P (steps ++ steps') (ps ++ ps') := by
  induction h with
  | nil h => exact h'.mono h
  | cons mirrors leads _ ih => exact .cons mirrors leads ih

theorem Follow.flatMap {α : Type} {xs : List α} {f : α → List Step} {g : α → List Phase}
    (h : ∀ x ∈ xs, Follow P P (f x) (g x)) : Follow P P (xs.flatMap f) (xs.flatMap g) := by
  induction xs with
  | nil => exact .nil fun _ hm => hm
  | cons x xs ih =>
    rw [List.flatMap_cons, List.flatMap_cons]
    exact (h x (List.mem_cons_self ..)).append (ih fun y hy => h y (List.mem_cons_of_mem _ hy))

end

/-! ## What a turn hands on -/

structure Held (m₀ m : Multiplexer) : Prop where
  fed : ∃ ms, Fed m₀ m none ms
  carried : ∃ ms, Carried m₀ m ms

section
variable {m₀ m m' : Multiplexer} {ready : Readiness}

theorem Held.links (h : Held m₀ m) : m.links.length = m₀.links.length := by
  obtain ⟨_, hf⟩ := h.fed
  exact hf.links

theorem Held.inBounds (h : Held m₀ m) (hN : m₀.links.length ≤ Message.maxInterfaces)
    (hmtu : ∀ l ∈ m₀.links, l.mtu ≤ Link.maxMtu) : InBounds m := by
  obtain ⟨⟨_, hf⟩, ms, hc⟩ := h
  have hshown : Carried m₀ { m with display := m.display } ms := hc
  exact Multiplexer.inBounds_of_fed hN hmtu hf hshown

theorem Held.inward (h : Held m₀ m) {p : Phase}
    (hf : ∀ ms, Fed m₀ m none ms → ∃ ms', Fed m₀ (p m).1 (p m).2 ms') (hs : SameOutward m (p m).1)
    (he : (p m).2 = none) : Held m₀ (p m).1 := by
  obtain ⟨⟨ms, hfed⟩, _, hc⟩ := h
  have hnext := hf ms hfed
  rw [he] at hnext
  exact ⟨hnext, _, hc.of_outward hs⟩

theorem Held.outward (h : Held m₀ m) (hc : ∀ ms, Carried m₀ m ms → ∃ ms', Carried m₀ m' ms')
    (hs : SameInward m m') : Held m₀ m' := by
  obtain ⟨⟨_, hf⟩, ms, hcarried⟩ := h
  exact ⟨⟨_, hf.of_inward hs none⟩, hc ms hcarried⟩

theorem endOfChild_state (m : Multiplexer) : (Multiplexer.endOfChild m).1 = m := by
  unfold Multiplexer.endOfChild
  split
  · split <;> rfl
  · rfl

def TypedRoom (ready : Readiness) (m : Multiplexer) : Prop :=
  ready.console = true → m.consoleFilled < bufferSize

section
variable (hN : m₀.links.length ≤ Message.maxInterfaces)
include hN

theorem takeMessages_leads : Phase.Leads (Held m₀) Multiplexer.takeMessages fun m e => e = none → Held m₀ m := by
  intro m h he
  refine h.outward (fun ms hc => ?_) (Multiplexer.takeMessages_inward m)
  obtain ⟨_, _, ⟨⟨f, hf⟩, _⟩ | ⟨hc, _⟩⟩ := Multiplexer.takeMessages_took hN hc
  · rw [he] at hf
    cases hf
  · exact ⟨_, hc⟩

variable (hmtu : ∀ l ∈ m₀.links, l.mtu ≤ Link.maxMtu)
include hmtu

/-- The phases that do not belong to one link. Up to the read of the child's output the room that the
turn has found for it is handed on as well. -/
theorem follow_common (ready : Readiness) :
    Follow (Held m₀) (fun m => Held m₀ m ∧ Roomy ready m ∧ TypedRoom ready m)
      [.when ready.console readConsole, .when ready.childInput writeInput,
        .when ready.outbound writeFrame, queueLine, .when ready.childOutput readChild,
        fun w => takeMessages (w.childFilled + 1) w, endOfChild]
      (Multiplexer.commonPhases ready) := by
  refine .cons (Q := fun m => Held m₀ m ∧ Roomy ready m)
    (.when fun hr => readConsole_mirrors.mono fun m hm => hm.2.2 hr)
    (.when (fun m hm _ => ⟨hm.1, hm.2.1⟩) fun _ m hm he => ?_) ?_
  · have hs := Multiplexer.readConsole_outward m
    exact ⟨hm.1.inward (fun ms hf => ⟨ms, Multiplexer.readConsole_fed hf⟩) hs he, hm.2.1.of_outward hs⟩
  refine .cons (Q := fun m => Held m₀ m ∧ Roomy ready m)
    (.when fun _ => writeInput_mirrors.mono fun m hm => hm.1.inBounds hN hmtu)
    (.when (fun m hm _ => hm) fun _ m hm he => ?_) ?_
  · have hs := Multiplexer.writeInput_outward m
    exact ⟨hm.1.inward (fun _ hf => Multiplexer.writeInput_fed hf hN) hs he, hm.2.of_outward hs⟩
  refine .cons (Q := fun m => Held m₀ m ∧ Roomy ready m)
    (.when fun _ => writeFrame_mirrors.mono fun m hm => hm.1.inBounds hN hmtu)
    (.when (fun m hm _ => hm) fun _ m hm _ => ?_) ?_
  · refine ⟨hm.1.outward (fun ms hc => ?_) (Multiplexer.writeFrame_inward m), hm.2.writeFrame⟩
    obtain ⟨_, hc, _⟩ := Multiplexer.writeFrame_carried hc hN
    exact ⟨_, hc⟩
  refine .cons (Q := fun m => Held m₀ m ∧ Roomy ready m) (queueLine_mirrors.mono fun _ _ => trivial)
    (fun m hm he => ?_) ?_
  · have hs := Multiplexer.queueLine_outward m
    exact ⟨hm.1.inward (fun ms hf => ⟨ms, Multiplexer.queueLine_fed hf⟩) hs he, hm.2.of_outward hs⟩
  -- the read may fill the room, which nothing behind it needs
  refine .cons (Q := Held m₀) (.when fun hr => readChild_mirrors.mono fun m hm => (hm.2 hr).2)
    (.when (fun m hm _ => hm.1) fun hr m hm _ => ?_) ?_
  · obtain ⟨hopen, hroom⟩ := hm.2 hr
    exact hm.1.outward (fun ms hc => ⟨ms, Multiplexer.readChild_carried hc hopen hroom⟩)
      (Multiplexer.readChild_inward m)
  refine .cons (fun w hw hm => ?_) (takeMessages_leads hN) ?_
  · have hports : w.ports.length = m₀.links.length := w.length_links_view ▸ hm.links
    exact takeMessages_mirrors _ hw (hports.symm ▸ hN) (Nat.lt_succ_self _)
  refine .cons (Q := Held m₀) (endOfChild_mirrors.mono fun _ _ => trivial) (fun m hm _ => ?_)
    (.nil fun _ hm => hm)
  rwa [endOfChild_state]

theorem follow_link (ready : Readiness) {i : Nat} (hi : i < m₀.links.length) :
    Follow (Held m₀) (Held m₀) [captureIfReady ready i, queueSlot i]
      [Multiplexer.captureIfReady ready i, Multiplexer.queueSlot i] := by
  have hlt : ∀ m, Held m₀ m → i < m.links.length := fun m hm => hm.links ▸ hi
  refine .cons (Q := Held m₀)
    ((captureIfReady_mirrors ready i).mono fun m hm => ⟨hm.inBounds hN hmtu, hlt m hm⟩)
    (fun m hm he => ?_)
    (.cons ((queueSlot_mirrors i).mono hlt) (fun m hm he => ?_) (.nil fun _ hm => hm))
  · exact hm.inward (fun ms hf => ⟨ms, Multiplexer.captureIfReady_fed ready i hf⟩)
      (Multiplexer.captureIfReady_outward ready i m) he
  · exact hm.inward (fun ms hf => ⟨ms, Multiplexer.queueSlot_fed i hf⟩) (Multiplexer.queueSlot_outward m i) he

theorem follow_turn (ready : Readiness) :
    Follow (Held m₀) (fun m => Held m₀ m ∧ Roomy ready m ∧ TypedRoom ready m)
      (steps ready m₀.links.length)
      (Multiplexer.commonPhases ready ++ Multiplexer.linkPhases ready (List.range m₀.links.length)) :=
  (follow_common hN hmtu ready).append
    (.flatMap fun _ hi => follow_link hN hmtu ready (List.mem_range.mp hi))

/-! ## Turns -/

omit hN hmtu in
theorem Held.roomy (h : Held m₀ m) (awake : Readiness) :
    Held m₀ m ∧ Roomy (m.interest.inter awake) m ∧ TypedRoom (m.interest.inter awake) m := by
  refine ⟨h, ?_, ?_⟩
  · simp only [Roomy, Readiness.inter, Multiplexer.interest, Bool.and_eq_true, Bool.not_eq_true',
      decide_eq_true_eq]
    exact fun hr => hr.1
  · simp only [TypedRoom, Readiness.inter, Multiplexer.interest, Bool.and_eq_true, decide_eq_true_eq]
    exact fun hr => hr.1.2

theorem firstSteps_mirrors (awake : Readiness) (k : Nat) :
    Mirrors (Held m₀) (firstSteps awake k)
      fun m => Phase.sequence ((Multiplexer.phases awake m).take k) m := by
  intro w hw hm
  have hports : w.ports.length = m₀.links.length := w.length_links_view ▸ hm.links
  have hshows := (follow_turn hN hmtu (w.view.interest.inter awake)).take k w hw (hm.roomy awake)
  rw [← hports] at hshows
  simp only [firstSteps, interest_eq hw (hm.inBounds hN hmtu), Option.bind_eq_bind, Option.bind_some,
    Multiplexer.phases, hm.links, ← hports]
  exact hshows

theorem turn_mirrors (awake : Readiness) : Mirrors (Held m₀) (turn awake) (Multiplexer.turn awake) := by
  intro w hw hm
  have hports : w.ports.length = m₀.links.length := w.length_links_view ▸ hm.links
  have hshows := (follow_turn hN hmtu (w.view.interest.inter awake)).sequence w hw (hm.roomy awake)
  rw [← hports] at hshows
  rw [Multiplexer.turn_eq_sequence]
  simp only [turn, interest_eq hw (hm.inBounds hN hmtu), Option.bind_eq_bind, Option.bind_some,
    Multiplexer.phases, hm.links, ← hports]
  exact hshows

theorem turn_leads (awake : Readiness) :
    Phase.Leads (Held m₀) (Multiplexer.turn awake) fun m e => e = none → Held m₀ m := by
  intro m hm
  rw [Multiplexer.turn_eq_sequence, Multiplexer.phases, hm.links]
  exact (follow_turn hN hmtu _).leads m (hm.roomy awake)

/-- **Every run can be carried out in the buffers**, up to each of its points. -/
theorem upTo_mirrors (schedule : List Readiness) (awake : Readiness) (k : Nat) :
    Mirrors (Held m₀) (upTo schedule awake k) (Multiplexer.upTo schedule awake k) := by
  have hfollow : Follow (Held m₀) (Held m₀) (schedule.map turn) (schedule.map Multiplexer.turn) := by
    induction schedule with
    | nil => exact .nil fun _ hm => hm
    | cons r schedule ih => exact .cons (turn_mirrors hN hmtu r) (turn_leads hN hmtu r) ih
  exact hfollow.sequence.andThen hfollow.leads (firstSteps_mirrors hN hmtu awake k)

end

end

/-! ## Runs -/

theorem sound_start {m : Multiplexer} (hj : m.inbound = none) : (start m).Sound := by
  have hheader : Message.headerSize ≤ bufferSize := by decide
  refine ⟨?_, List.length_replicate, Nat.zero_le _, List.length_replicate, ⟨Nat.le_refl _, hheader⟩, ?_⟩
  · intro p hp
    obtain ⟨l, _, rfl⟩ := List.mem_map.mp hp
    exact ⟨List.length_replicate, Nat.zero_le _⟩
  · intro stop offset h
    rw [show (start m).inbound = m.inbound from rfl, hj] at h
    cases h

theorem view_start {m : Multiplexer} (hslots : ∀ l ∈ m.links, l.slot = []) (htyped : m.typed = [])
    (hchild : m.childBuffer = []) : (start m).view = m := by
  have hlinks : (m.links.map fun link => (Port.mk link blank 0)).map Port.view = m.links := by
    rw [List.map_map]
    refine (List.map_congr_left fun l hl => ?_).trans (List.map_id _)
    show { l with slot := [] } = l
    have hslot := hslots l hl
    cases l
    cases hslot
    rfl
  have hconsole : ((blank.take Message.headerSize).drop Message.headerSize : Bytes) = [] := by
    rw [List.drop_eq_nil_iff, List.length_take]
    exact Nat.min_le_left ..
  simp only [view, start, hlinks, hconsole, List.take_zero]
  cases m
  cases htyped
  cases hchild
  rfl

end Layout

namespace Multiplexer

section
variable {m₀ m m₁ : Multiplexer} {e : Option Ending} {ms : List Message}

theorem length_le_flatMap (ms : List Message) : ms.length ≤ (ms.flatMap Message.toBytes).length := by
  induction ms with
  | nil => exact Nat.zero_le _
  | cons s ms ih =>
    have hpos := List.length_pos_iff.mpr s.toBytes_ne_nil
    simp only [List.flatMap_cons, List.length_append, List.length_cons]
    omega

theorem captureCount_add_textCount (ms : List Message) : captureCount ms + textCount ms = ms.length := by
  have hsplit := List.length_eq_countP_add_countP (fun s : Message => decide (s.kind = Message.control)) (l := ms)
  simp only [decide_eq_true_eq] at hsplit
  rw [hsplit, Nat.add_comm]
  rfl

theorem frameCount_add_textCount_le (ms : List Message) : frameCount ms + textCount ms ≤ ms.length := by
  have hframes : frameCount ms ≤ captureCount ms := by
    refine List.countP_mono_left fun s _ h => ?_
    simp only [decide_eq_true_eq] at h ⊢
    exact h.1
  rw [← captureCount_add_textCount ms]
  exact Nat.add_le_add_right hframes _

theorem FedCounted.le_written (h : FedCounted m₀ m e ms) :
    m.statistics.captured + m.statistics.commands ≤
      m₀.statistics.captured + m₀.statistics.commands + m.childInput.data.size := by
  have hdata := congrArg List.length h.fed.data
  have hroster := List.length_pos_iff.mpr m₀.roster.toBytes_ne_nil
  have hmessages := length_le_flatMap ms
  have hcounts := captureCount_add_textCount ms
  have hline : m.linesUnderWay ≤ 1 := by
    unfold linesUnderWay
    split
    · exact Nat.zero_le _
    · split <;> decide
  simp only [List.length_append, Array.length_toList] at hdata
  rw [h.captured, h.commands]
  omega

theorem TakenCounted.le_read (h : TakenCounted m₀ m e ms) :
    m.statistics.injected + m.statistics.consoleMessages ≤
      m₀.statistics.injected + m₀.statistics.consoleMessages + m₀.childOutput.stream.length := by
  obtain ⟨_, hc, _⟩ := h.carried
  have hstream := congrArg List.length hc.stream
  have hmessages := length_le_flatMap ms
  have hcounts := frameCount_add_textCount_le ms
  simp only [List.length_append] at hstream
  rw [h.counted.injected, h.counted.consoleMessages]
  omega

/-- **Lengths and offsets stay within bounds**, at every point of every run, however it ends. The run
can be carried out in buffers of the size of one largest message: no access, sum, difference or narrow
number is out of range, and a descriptor that reports nothing was offered something, so that it is at
its end or refuses. The counts stay below the octets that have come and gone. -/
theorem run_stays_in_bounds {schedule : List Readiness} {awake : Readiness} {k : Nat} (hm : m₀.Fresh)
    (hmtu : ∀ l ∈ m₀.links, Link.checkMtu l.name l.mtu = .ok l.mtu) (hr : sendRoster m₀ = (m₁, none))
    (hu : upTo schedule awake k m₁ = (m, e)) :
    InBounds m ∧
      (∃ w, Layout.upTo schedule awake k (.start m₁) = some (w, e) ∧ w.view = m ∧ w.Sound) ∧
      m.statistics.captured + m.statistics.commands ≤
        m₀.statistics.captured + m₀.statistics.commands + m.childInput.data.size ∧
      m.statistics.injected + m.statistics.consoleMessages ≤
        m₀.statistics.injected + m₀.statistics.consoleMessages + m₀.childOutput.stream.length := by
  have hN := hm.links.2
  have hmtu : ∀ l ∈ m₀.links, l.mtu ≤ Link.maxMtu := fun l hl => mtu_le_of_checkMtu (hmtu l hl)
  have ho := hm.opened hr
  have hcounted : FedCounted m₀ m₁ none [] := fedCounted_of_fresh hm hr
  have hcarried : Carried m₀ m₁ [] := carried_of_fresh hm hr
  have hfed := upTo_keeps (fedCounted_keeps hN) schedule awake k m₁ ⟨[], hcounted⟩
  have htaken := (upTo_induction (takenCounted_throughout hN) schedule awake k m₁
    ⟨[], hcarried, counted_of_fresh hr⟩).1
  rw [hu] at hfed htaken
  obtain ⟨_, hfed⟩ := hfed
  obtain ⟨_, htaken⟩ := htaken
  obtain ⟨display, hc, _⟩ := htaken.carried
  refine ⟨inBounds_of_fed hN hmtu hfed.fed hc, ?_, hfed.le_written, htaken.le_read⟩
  have hslots : ∀ l ∈ m₁.links, l.slot = [] := fun l hl => (hm.untouched l (ho.links ▸ hl)).1
  have hview := Layout.view_start hslots ho.typed ho.childBuffer
  have hshows := Layout.upTo_mirrors hN hmtu schedule awake k (.start m₁) (Layout.sound_start ho.inbound)
  rw [hview, hu] at hshows
  exact hshows ⟨⟨_, hcounted.fed⟩, _, hcarried⟩

/-- A line is on its way to the child, which has taken two octets of it. -/
theorem typist_stays_in_bounds :
    typist.Fresh ∧ (∀ l ∈ typist.links, Link.checkMtu l.name l.mtu = .ok l.mtu) ∧
      sendRoster typist = ((sendRoster typist).1, none) ∧ ∃ m,
        upTo (List.replicate 4 consoleReady) consoleReady 0 (sendRoster typist).1 = (m, none) ∧
        m.inbound = some ⟨.console 7, 2⟩ ∧ InBounds m ∧
        ∃ w, Layout.upTo (List.replicate 4 consoleReady) consoleReady 0 (.start (sendRoster typist).1) =
          some (w, none) ∧ w.view = m := by
  have hmtu : ∀ l ∈ typist.links, Link.checkMtu l.name l.mtu = .ok l.mtu := by
    intro l hl
    rw [List.mem_singleton.mp hl]
    rfl
  have hr : sendRoster typist = ((sendRoster typist).1, none) := Prod.ext rfl (by decide)
  have hu : upTo (List.replicate 4 consoleReady) consoleReady 0 (sendRoster typist).1 =
      ((upTo (List.replicate 4 consoleReady) consoleReady 0 (sendRoster typist).1).1, none) :=
    Prod.ext rfl (by decide +kernel)
  obtain ⟨hbounds, ⟨w, hw, hview, _⟩, _⟩ := run_stays_in_bounds fresh_typist hmtu hr hu
  exact ⟨fresh_typist, hmtu, hr, _, hu, by decide +kernel, hbounds, w, hw, hview⟩

end

end Multiplexer

end EtherBench
