import EtherBench.Proofs.Multiplexer.Taking

/-!
# What becomes of the child's output

However the child's output is cut into reads, its messages take effect one after
the other. While a frame is on its way nothing behind it is looked at, and
between turns no other message waits.
-/

namespace EtherBench.Multiplexer

def Faithful (m₀ m : Multiplexer) (e : Option Ending) : Prop :=
  DisplayFailed e ∨ (∃ ms, Carried m₀ m ms) ∧ Told m e

def Roomy (ready : Readiness) (m : Multiplexer) : Prop :=
  ready.childOutput = true → m.childEnded = false ∧ m.childBuffer.length < bufferSize

def Settled (m₀ m : Multiplexer) : Prop :=
  (∃ ms, Carried m₀ m ms) ∧ (m.outbound = none → Message.decode m.childBuffer = .incomplete)

/-- Of the messages that the child's stream decodes to, `ms` have taken effect and `later` have not,
save for what has been sent of the first of them. -/
structure TookEffect (m₀ m : Multiplexer) (e : Option Ending) (ms later : List Message) : Prop where
  decoded : (Message.split m₀.childOutput.stream).1 = ms ++ later
  read : m₀.childOutput.stream = ms.flatMap Message.toBytes ++ m.childBuffer ++
    if m.childEnded then [] else m.childOutput.stream
  known : ∀ s ∈ ms, s.kind.toNat ≤ m₀.links.length
  shown : m.display.data.toList = (Message.payloadsOf Message.control ms).flatten
  links : m.links.length = m₀.links.length
  sent : ∀ i (l : Link), m.links[i]? = some l → l.Sent (framesFor i ms) (m.begunOn i)
  pending : ∀ job, m.outbound = some job → ∃ s left, later.head? = some s ∧ left ≠ [] ∧
    s.kind = UInt16.ofNat (job.link + 1) ∧ job.link < m.links.length ∧
    s.payload = m.begunOn job.link ++ left
  malformed : ∀ size, e = some (.failed (.sizeBelowHeader size)) →
    later = [] ∧ m.outbound = none ∧ Message.decode m.childBuffer = .malformed size
  unknown : ∀ kind count, e = some (.failed (.unknownInterface kind count)) →
    count.toNat = m₀.links.length ∧ count < kind ∧ m.outbound = none ∧
      ∃ s, later.head? = some s ∧ s.kind = kind
  midMessage : ∀ n, e = some (.failed (.childClosedMidMessage n)) →
    later = [] ∧ m.childEnded = true ∧ m.outbound = none ∧ m.childBuffer.length = n ∧ 0 < n
  closed : e = some .childClosed →
    later = [] ∧ m.childEnded = true ∧ m.outbound = none ∧ m.childBuffer = []

section
variable {m₀ m m' : Multiplexer} {ms : List Message}

/-! ## Turns -/

theorem Roomy.of_outward {ready : Readiness} (h : Roomy ready m) (hs : SameOutward m m') :
    Roomy ready m' := by
  rw [Roomy, hs.childEnded, hs.childBuffer]
  exact h

theorem Roomy.writeFrame {ready : Readiness} (h : Roomy ready m) :
    Roomy ready (Multiplexer.writeFrame m).1 := by
  intro hr
  obtain ⟨hended, hle⟩ := writeFrame_buffer m
  obtain ⟨hopen, hlt⟩ := h hr
  exact ⟨hended.trans hopen, Nat.lt_of_le_of_lt hle hlt⟩

theorem decode_of_outward (hs : SameOutward m m')
    (h : m.outbound = none → Message.decode m.childBuffer = .incomplete) :
    m'.outbound = none → Message.decode m'.childBuffer = .incomplete := by
  rw [hs.outbound, hs.childBuffer]
  exact h

theorem readConsole_told (m m' : Multiplexer) : Told m' (readConsole m).2 := by
  unfold readConsole
  split
  · trivial
  · split
    · exact told_stopAt ..
    · trivial
    · trivial

theorem writeInput_told (m m' : Multiplexer) : Told m' (writeInput m).2 := by
  unfold writeInput
  split
  · trivial
  · simp only
    split
    · exact told_stopAt ..
    · trivial
    · split <;> trivial

theorem queueLine_told (m m' : Multiplexer) : Told m' (queueLine m).2 := by
  unfold queueLine
  split <;> trivial

theorem queueSlot_told (i : Nat) (m m' : Multiplexer) : Told m' (queueSlot i m).2 := by
  unfold queueSlot
  split <;> trivial

theorem receive_told (i : Nat) (l : Link) (m' : Multiplexer) : Told m' (receive i l).2 := by
  unfold receive
  split
  · trivial
  · exact told_stopAt ..
  · trivial
  · split
    · trivial
    · simp only
      split <;> trivial

theorem captureIfReady_outward (ready : Readiness) (i : Nat) (m : Multiplexer) :
    SameOutward m (captureIfReady ready i m).1 := by
  unfold captureIfReady Phase.when
  split
  · exact capture_outward m i
  · exact .refl m

theorem captureIfReady_told (ready : Readiness) (i : Nat) (m m' : Multiplexer) :
    Told m' (captureIfReady ready i m).2 := by
  unfold captureIfReady Phase.when capture
  split
  · split
    · trivial
    · exact receive_told ..
  · trivial

theorem leads_of_outward {P : Multiplexer → Prop} {I : Multiplexer → Option Ending → Prop}
    (hI : ∀ m e, P m → Told m e → I m e) (hP : ∀ m m', P m → SameOutward m m' → P m') {p : Phase}
    (hs : ∀ m, SameOutward m (p m).1) (ht : ∀ m m', Told m' (p m).2) :
    p.Leads P fun m e => I m e ∧ (e = none → P m) := by
  intro m hm
  have hp := hP m _ hm (hs m)
  exact ⟨hI _ _ hp (ht m _), fun _ => hp⟩

section
variable {C : Multiplexer → Prop} {I : Multiplexer → Option Ending → Prop}

/-- What can be said of the child's output in every state of a run can be said throughout a turn if
the phases that serve that output see to it. The turn leaves no whole message waiting. -/
theorem throughout_of_child (hI : ∀ m e, C m → Told m e → I m e)
    (hsame : ∀ m m', C m → SameOutward m m' → C m') (hframe : ∀ m, C m → C (writeFrame m).1)
    (hread : ∀ m, C m → m.childEnded = false → m.childBuffer.length < bufferSize → C (readChild m).1)
    (htake : Phase.Leads C takeMessages fun m e => I m e ∧ (e = none → C m)) (awake : Readiness)
    (m : Multiplexer) (h : C m) :
    Phase.Throughout (· = m) (phases awake m) I fun m =>
      C m ∧ (m.outbound = none → Message.decode m.childBuffer = .incomplete) := by
  have hgoes : ∀ m, C m → I m none := fun m hc => hI m none hc trivial
  refine .mono (Q := fun m' => C m' ∧ Roomy (m.interest.inter awake) m') ?_ ?_
  · rintro _ rfl
    refine ⟨h, ?_⟩
    simp only [Roomy, Readiness.inter, interest, Bool.and_eq_true, Bool.not_eq_true', decide_eq_true_eq]
    exact fun hr => hr.1
  · unfold phases commonPhases
    generalize m.interest.inter awake = ready
    have keep : ∀ {p : Phase}, (∀ m, SameOutward m (p m).1) → (∀ m m', Told m' (p m).2) →
        p.Leads (fun m => C m ∧ Roomy ready m)
          fun m e => I m e ∧ (e = none → C m ∧ Roomy ready m) :=
      leads_of_outward (fun m e hc => hI m e hc.1)
        fun m m' hc hs => ⟨hsame m m' hc.1 hs, hc.2.of_outward hs⟩
    have hstay : ∀ m, C m ∧ Roomy ready m →
        I m none ∧ ((none : Option Ending) = none → C m ∧ Roomy ready m) :=
      fun m hc => ⟨hgoes m hc.1, fun _ => hc⟩
    refine .cons (fun m hc => hgoes m hc.1)
      (.when hstay fun _ => keep readConsole_outward readConsole_told) ?_
    refine .cons (fun m hc => hgoes m hc.1)
      (.when hstay fun _ => keep writeInput_outward writeInput_told) ?_
    refine .cons (fun m hc => hgoes m hc.1) (.when hstay fun _ m hc => ?_) ?_
    · have hnext := hframe m hc.1
      exact ⟨hI _ _ hnext (writeFrame_told m _), fun _ => ⟨hnext, hc.2.writeFrame⟩⟩
    refine .cons (fun m hc => hgoes m hc.1) (keep queueLine_outward queueLine_told) ?_
    -- the read may fill the room, which nothing after it needs
    refine .cons (Q := C) (fun m hc => hgoes m hc.1)
      (.when (fun m hc => ⟨hgoes m hc.1, fun _ => hc.1⟩) fun hr m hc => ?_) ?_
    · obtain ⟨hopen, hlt⟩ := hc.2 hr
      have hnext := hread m hc.1 hopen hlt
      exact ⟨hI _ _ hnext (readChild_told m _), fun _ => hnext⟩
    refine .cons (Q := fun m => C m ∧ (m.outbound = none → Message.decode m.childBuffer = .incomplete))
      hgoes (fun m hc => ?_) ?_
    · obtain ⟨hi, hnext⟩ := htake m hc
      exact ⟨hi, fun he => ⟨hnext he, decode_of_takeMessages m he⟩⟩
    refine .cons (fun m hc => hgoes m hc.1) (fun m hc => ?_)
      (Phase.throughout_of_forall (fun m hc => hgoes m hc.1) fun p hp => ?_)
    · obtain ⟨hsame, htold⟩ := endOfChild_told hc.2
      rw [hsame]
      exact ⟨hI _ _ hc.1 htold, fun _ => hc⟩
    · obtain ⟨i, _, hp⟩ := List.mem_flatMap.mp hp
      have hlinks : ∀ {p : Phase}, (∀ m, SameOutward m (p m).1) → (∀ m m', Told m' (p m).2) →
          p.Leads (fun m => C m ∧ (m.outbound = none → Message.decode m.childBuffer = .incomplete))
            fun m e => I m e ∧ (e = none →
              C m ∧ (m.outbound = none → Message.decode m.childBuffer = .incomplete)) :=
        leads_of_outward (fun m e hc => hI m e hc.1)
          fun m m' hc hs => ⟨hsame m m' hc.1 hs, decode_of_outward hs hc.2⟩
      simp only [List.mem_cons, List.not_mem_nil, or_false] at hp
      rcases hp with rfl | rfl
      · exact hlinks (captureIfReady_outward ready i) (captureIfReady_told ready i)
      · exact hlinks (fun m => queueSlot_outward m i) (queueSlot_told i)

end

/-- **Every turn is faithful to the child's output**, and leaves no whole message waiting. -/
theorem faithful_throughout (hN : m₀.links.length ≤ Message.maxInterfaces) (awake : Readiness)
    (m : Multiplexer) (h : Settled m₀ m) :
    Phase.Throughout (· = m) (phases awake m) (Faithful m₀) (Settled m₀) := by
  refine throughout_of_child (C := fun m => ∃ ms, Carried m₀ m ms) ?_ ?_ ?_ ?_ ?_ awake m h.1
  · exact fun m e hc ht => .inr ⟨hc, ht⟩
  · exact fun m m' ⟨ms, hc⟩ hs => ⟨ms, hc.of_outward hs⟩
  · intro m ⟨ms, hc⟩
    obtain ⟨more, hc, _⟩ := writeFrame_carried hc hN
    exact ⟨ms ++ more, hc⟩
  · exact fun m ⟨ms, hc⟩ hopen hlt => ⟨ms, readChild_carried hc hopen hlt⟩
  · intro m ⟨ms, hc⟩
    obtain ⟨more, _, ⟨hfailed, _⟩ | ⟨hc, ht⟩⟩ := takeMessages_took hN hc
    · refine ⟨.inl hfailed, fun he => ?_⟩
      obtain ⟨f, hf⟩ := hfailed
      rw [he] at hf
      cases hf
    · exact ⟨.inr ⟨⟨_, hc⟩, ht⟩, fun _ => ⟨_, hc⟩⟩

/-! ## Runs -/

theorem Carried.split_stream (h : Carried m₀ m ms) :
    (Message.split m₀.childOutput.stream).1 =
      ms ++ (Message.split (m.childBuffer ++ if m.childEnded then [] else m.childOutput.stream)).1 := by
  rw [h.stream, List.append_assoc, Message.split_flatMap_append h.whole]

theorem head?_split_append {b rest : Bytes} {s : Message} (h : Message.decode b = .complete s rest)
    (c : Bytes) : (Message.split (b ++ c)).1.head? = some s := by
  rw [Message.split_of_complete (Message.decode_append_of_complete h c)]
  rfl

theorem tookEffect_of_carried (hN : m₀.links.length ≤ Message.maxInterfaces) {e : Option Ending}
    (h : Carried m₀ m ms) (ht : Told m e) : ∃ later, TookEffect m₀ m e ms later := by
  refine ⟨_, h.split_stream, h.stream, h.known, h.display, h.links, h.sent, ?_, ?_, ?_, ?_, ?_⟩
  · intro job hj
    obtain ⟨s, rest, hd, hk, hlink, hstop, hlo, hhi⟩ := h.front job hj
    obtain ⟨hb, _⟩ := Message.eq_of_decode hd
    refine ⟨s, s.payload.drop (job.offset - Message.headerSize), head?_split_append hd _, ?_, hk, hlink, ?_⟩
    · intro hnil
      have := List.drop_eq_nil_iff.mp hnil
      omega
    · have hpayload : m.begunOn job.link = s.payload.take (job.offset - Message.headerSize) := by
        simp only [begunOn, hj, if_true]
        rw [hb, List.drop_append_of_le_length, s.drop_toBytes, List.take_append_of_le_length]
        · omega
        · rw [s.length_toBytes]
          exact Nat.le_add_right ..
      rw [hpayload, List.take_append_drop]
  · rintro size rfl
    obtain ⟨hnone, hd⟩ := ht
    refine ⟨?_, hnone, hd⟩
    rw [Message.split_of_not_complete]
    intro s rest hc
    rw [Message.decode_append_of_malformed hd] at hc
    cases hc
  · rintro kind count rfl
    obtain ⟨hnone, rfl, hlt, payload, rest, hd⟩ := ht
    refine ⟨?_, hlt, hnone, _, head?_split_append hd _, rfl⟩
    rw [linkCount, h.links, UInt16.toNat_ofNat']
    simp only [Message.maxInterfaces, Message.maxPayload, Message.maxSize, Message.headerSize] at hN
    omega
  · rintro n rfl
    obtain ⟨hended, hnone, hd, hlen, hpos⟩ := ht
    refine ⟨?_, hended, hnone, hlen, hpos⟩
    rw [hended, if_pos rfl, List.append_nil, Message.split_of_not_complete]
    intro s rest hc
    rw [hd] at hc
    cases hc
  · rintro rfl
    obtain ⟨hended, hnone, hb⟩ := ht
    refine ⟨?_, hended, hnone, hb⟩
    rw [hended, hb, Message.split_of_not_complete]
    intro s rest hc
    cases hc

theorem carried_of_fresh (h : m₀.Fresh) (hr : sendRoster m₀ = (m, none)) : Carried m₀ m [] := by
  have ho := h.opened hr
  refine ⟨?_, ?_, ?_, ?_, ?_, congrArg List.length ho.links, ?_, ?_⟩
  · exact fun _ hs => nomatch hs
  · exact fun _ hs => nomatch hs
  · rw [ho.childBuffer, ho.childEnded, ho.childOutput]
    rfl
  · rw [ho.childBuffer]
    exact Nat.zero_le _
  · rw [ho.display]
    rfl
  · intro job hj
    rw [ho.outbound] at hj
    cases hj
  · intro i l hl
    rw [ho.links] at hl
    have hs := (h.untouched l (List.mem_of_getElem? hl)).2
    rw [begunOn, ho.outbound]
    refine ⟨[], [], ?_, rfl, rfl, fun _ => rfl⟩
    rw [hs]
    rfl

theorem settled_of_fresh (h : m₀.Fresh) (hr : sendRoster m₀ = (m, none)) : Settled m₀ m := by
  refine ⟨⟨[], carried_of_fresh h hr⟩, fun _ => ?_⟩
  rw [(h.opened hr).childBuffer]
  rfl

/-- **The child's messages take effect in order, each once**, at every point of every run that can
still write to the operator's console. Between turns none is left waiting but behind a frame. -/
theorem child_output_takes_effect {schedule : List Readiness} {awake : Readiness} {k : Nat}
    {m₁ : Multiplexer} {e : Option Ending} (hm : m₀.Fresh) (hr : sendRoster m₀ = (m₁, none))
    (hu : upTo schedule awake k m₁ = (m, e))
    (hd : ∀ f, e ≠ some (.failed (.fault "write console" f))) :
    (∃ ms later, TookEffect m₀ m e ms later) ∧
      (k = 0 → e = none → m.outbound = none → Message.decode m.childBuffer = .incomplete) := by
  obtain ⟨hf, hs⟩ := upTo_induction (faithful_throughout hm.links.2) schedule awake k m₁
    (settled_of_fresh hm hr)
  rw [hu] at hf hs
  refine ⟨?_, fun hk he => (hs hk he).2⟩
  rcases hf with ⟨f, hf⟩ | ⟨⟨ms, hc⟩, ht⟩
  · exact absurd hf (hd f)
  · exact ⟨ms, tookEffect_of_carried hm.links.2 hc ht⟩

/-- A child that says hello, sends a frame that its link takes one octet at a time, and closes. -/
def greeting : Multiplexer :=
  { links :=
      [{ name := "left", address := ⟨Vector.replicate 6 2⟩, mtu := 1500,
         sends := [.accept 1, .fault ⟨.wouldBlock, "again"⟩] }]
    childOutput := ⟨[.data [0, 6, 0], .data [0, 104, 105, 0, 6, 0, 1],
      .fault ⟨.interrupted, "interrupted"⟩, .data [7, 8], .data []]⟩ }

def childReady : Readiness := ⟨false, true, true, true, []⟩

theorem greeting_takes_effect :
    greeting.Fresh ∧ sendRoster greeting = ((sendRoster greeting).1, none) ∧ ∃ m ms later,
      upTo (List.replicate 8 childReady) childReady 0 (sendRoster greeting).1 = (m, some .childClosed) ∧
        TookEffect greeting m (some .childClosed) ms later := by
  have hm : greeting.Fresh := by
    have h : ofLinks greeting.links none = .ok { links := greeting.links } := rfl
    exact fresh_of_ofLinks h (by decide) {} {} greeting.childOutput rfl rfl
  have hr : sendRoster greeting = ((sendRoster greeting).1, none) := Prod.ext rfl (by decide)
  have hu : upTo (List.replicate 8 childReady) childReady 0 (sendRoster greeting).1 =
      ((upTo (List.replicate 8 childReady) childReady 0 (sendRoster greeting).1).1, some .childClosed) :=
    Prod.ext rfl (by decide +kernel)
  obtain ⟨⟨ms, later, h⟩, _⟩ := child_output_takes_effect hm hr hu (fun _ => nofun)
  exact ⟨hm, hr, _, ms, later, hu, h⟩

end

end EtherBench.Multiplexer
