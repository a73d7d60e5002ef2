import EtherBench.Proofs.Multiplexer.ChildInput
import EtherBench.Proofs.Multiplexer.ChildOutput

/-!
# When the loop waits

Between turns nothing is left that could be done without a descriptor. What
waits for the child has set out, or something else is on its way there; whole
messages of the child have been taken, or a frame is on its way to a link. So
there is always a descriptor to wait for, and while none of them is ready
nothing changes.
-/

namespace EtherBench.Multiplexer

/-- Nothing could set out that has not. The slots of the first `n` links have been looked at. -/
structure Rested (n : Nat) (m : Multiplexer) : Prop where
  line : m.inbound = none → lineEnd m = none
  slots : m.inbound = none → ∀ i < n, m.slot i = []
  incomplete : m.outbound = none → Message.decode m.childBuffer = .incomplete
  childOpen : m.outbound = none → m.childEnded = false

section
variable {m m' : Multiplexer} {n i : Nat}

theorem lineEnd_eq_none_iff : lineEnd m = none ↔ 10 ∉ m.typed ∧ m.consoleFilled ≠ bufferSize := by
  unfold lineEnd
  split
  · rename_i i h
    obtain ⟨hi, he, _⟩ := List.idxOf?_eq_some_iff.mp h
    simp [← he]
  · rename_i h
    simp [List.idxOf?_eq_none_iff.mp h]

theorem lineEnd_of_inward (hs : SameInward m m') (h : m.inbound = none → lineEnd m = none) :
    m'.inbound = none → lineEnd m' = none := by
  have hl : lineEnd m' = lineEnd m := by
    unfold lineEnd consoleFilled
    rw [hs.typed]
  rw [hs.inbound, hl]
  exact h

/-! ## Phases -/

theorem queueLine_rests (m : Multiplexer) (h : (queueLine m).1.inbound = none) :
    lineEnd (queueLine m).1 = none := by
  unfold queueLine at h ⊢
  split
  · rename_i hj hl
    rw [hj, hl] at h
    cases h
  · rename_i hn
    have hj : m.inbound = none := by
      split at h
      · cases h
      · exact h
    cases hl : lineEnd m with
    | none => rfl
    | some stop => exact absurd hl (hn stop hj)

theorem endOfChild_rests (he : (endOfChild m).2 = none) :
    (endOfChild m).1 = m ∧ (m.outbound = none → m.childEnded = false) := by
  unfold endOfChild at he ⊢
  split at he
  · split at he <;> cases he
  · rename_i hc
    rw [if_neg hc]
    refine ⟨rfl, fun ho => ?_⟩
    simpa [ho] using hc

theorem captureIfReady_rests (ready : Readiness) (h : Rested n m) :
    Rested n (captureIfReady ready n m).1 := by
  rcases captureIfReady_eq ready n m with he | ⟨l, he⟩
  · rwa [he]
  · rw [he]
    refine ⟨h.line, ?_, h.incomplete, h.childOpen⟩
    intro hj i hi
    rw [slot_set_ne (Nat.ne_of_gt hi)]
    exact h.slots hj i hi

theorem queueSlot_rests (h : Rested n m) : Rested (n + 1) (queueSlot n m).1 := by
  unfold queueSlot
  split
  · exact ⟨(fun hj => nomatch hj), (fun hj => nomatch hj), h.incomplete, h.childOpen⟩
  · rename_i hc
    refine ⟨h.line, ?_, h.incomplete, h.childOpen⟩
    intro (hj : m.inbound = none) i hi
    rcases Nat.lt_succ_iff_lt_or_eq.mp hi with hi | rfl
    · exact h.slots hj i hi
    · simpa [hj] using hc

theorem linkPhases_rest (ready : Readiness) (n : Nat) :
    (Phase.sequence (linkPhases ready (List.range n))).Leads (Rested 0)
      fun m e => e = none → Rested n m := by
  induction n with
  | zero => exact fun _ h _ => h
  | succ n ih =>
    -- serving link `n` fills no slot of a link before it
    rw [List.range_succ, linkPhases, List.flatMap_append, Phase.sequence_append]
    refine ih.andThen ?_
    refine .andThen (Q := Rested n) (fun m h _ => captureIfReady_rests ready h) ?_
    refine .andThen (Q := Rested (n + 1)) (fun m h _ => queueSlot_rests h) ?_
    exact fun _ h _ => h

theorem commonPhases_rest (ready : Readiness) :
    (Phase.sequence (commonPhases ready)).Leads (fun _ => True) fun m e => e = none → Rested 0 m := by
  have hstart : ∀ p : Phase, p.Leads (fun _ => True) fun _ e => e = none → True :=
    fun _ _ _ _ => trivial
  -- what reads and writes come to does not matter, all is looked at again after them
  refine .andThen (hstart _) (.andThen (hstart _) (.andThen (hstart _) ?_))
  refine .andThen (Q := fun m => m.inbound = none → lineEnd m = none)
    (fun m _ _ => queueLine_rests m) ?_
  refine .andThen (Q := fun m => m.inbound = none → lineEnd m = none)
    (.when (fun _ h _ => h) fun _ m h _ => lineEnd_of_inward (readChild_inward m) h) ?_
  refine .andThen (Q := fun m => (m.inbound = none → lineEnd m = none) ∧
    (m.outbound = none → Message.decode m.childBuffer = .incomplete))
    (fun m h he => ⟨lineEnd_of_inward (takeMessages_inward m) h, decode_of_takeMessages m he⟩) ?_
  refine .andThen (Q := Rested 0) ?_ fun _ h _ => h
  rintro m ⟨hl, hd⟩ he
  obtain ⟨hsame, ho⟩ := endOfChild_rests he
  rw [hsame]
  exact ⟨hl, fun _ i hi => absurd hi (Nat.not_lt_zero i), hd, ho⟩

theorem length_links_of_phase (awake : Readiness) (m : Multiplexer) :
    ∀ p ∈ phases awake m, p.Keeps fun m _ => m.links.length = n := by
  have hout : ∀ {m m'}, SameOutward m m' → m.links.length = n → m'.links.length = n :=
    fun hs h => (length_eq_of_map_eq hs.links).trans h
  refine keeps_of_inward ?_ ?_ ?_ ?_ ?_ ?_ awake m
  · exact fun _ _ _ h hs => (length_eq_of_map_eq hs.links).trans h
  · exact fun m => hout (readConsole_outward m)
  · exact fun m => hout (writeInput_outward m)
  · exact fun m => hout (queueLine_outward m)
  · exact fun ready i m => hout (captureIfReady_outward ready i m)
  · exact fun i m => hout (queueSlot_outward m i)

/-- **A turn leaves nothing to do**, whatever it has found. -/
theorem turn_rests (awake : Readiness) (he : (turn awake m).2 = none) :
    Rested (turn awake m).1.links.length (turn awake m).1 := by
  have hlen : (turn awake m).1.links.length = m.links.length := by
    rw [turn_eq_sequence]
    exact Phase.Keeps.sequence (length_links_of_phase awake m) m rfl
  rw [hlen]
  rw [turn_eq_sequence] at he ⊢
  rw [phases, Phase.sequence_append] at he ⊢
  exact (commonPhases_rest _).andThen (linkPhases_rest _ _) m trivial he

theorem rested_of_fresh {m₀ : Multiplexer} (h : m₀.Fresh) (hr : sendRoster m₀ = (m, none)) :
    Rested m.links.length m := by
  have ho := h.opened hr
  refine ⟨fun _ => ?_, fun _ i _ => ?_, fun _ => ?_, fun _ => ho.childEnded⟩
  · rw [lineEnd_eq_none_iff, consoleFilled, ho.typed]
    decide
  · rw [slot, ho.links]
    exact h.slot i
  · rw [ho.childBuffer]
    rfl

/-! ## Nothing to do -/

theorem Phase.sequence_idle {ps : List Phase} (h : ∀ p ∈ ps, p m = (m, none)) :
    Phase.sequence ps m = (m, none) := by
  induction ps with
  | nil => rfl
  | cons p ps ih =>
    have hp := h p (List.mem_cons_self ..)
    rw [Phase.sequence, Phase.andThen_of_none (by rw [hp]), hp]
    exact ih fun q hq => h q (List.mem_cons_of_mem _ hq)

theorem takeMessages_idle (h : Rested n m) : takeMessages m = (m, none) := by
  rw [takeMessages]
  split
  · rfl
  · rename_i hc
    have hd := h.incomplete (Option.not_isSome_iff_eq_none.mp hc)
    split
    · rfl
    · rename_i he
      rw [hd] at he
      cases he
    · rename_i he
      rw [hd] at he
      cases he

/-- **Nothing happens by itself.** While no descriptor that is waited for is ready, a turn changes
nothing. -/
theorem turn_idle {awake : Readiness} (h : Rested m.links.length m)
    (hn : (m.interest.inter awake).any = false) : turn awake m = (m, none) := by
  rw [turn_eq_sequence]
  refine Phase.sequence_idle fun p hp => ?_
  unfold phases commonPhases linkPhases at hp
  generalize m.interest.inter awake = ready at hn hp
  simp only [Readiness.any, Bool.or_eq_false_iff] at hn
  obtain ⟨⟨⟨⟨hc, hi⟩, hf⟩, ho⟩, hl⟩ := hn
  simp only [hc, hi, hf, ho, List.mem_append, List.mem_cons, List.mem_flatMap, List.mem_range,
    List.not_mem_nil, or_false] at hp
  rcases hp with (rfl | rfl | rfl | rfl | rfl | rfl | rfl) | ⟨i, hlt, rfl | rfl⟩
  · rfl
  · rfl
  · rfl
  · unfold queueLine
    split
    · rename_i hj he
      rw [h.line hj] at he
      cases he
    · rfl
  · rfl
  · exact takeMessages_idle h
  · unfold endOfChild
    cases hout : m.outbound with
    | none => simp [h.childOpen hout]
    | some job => simp
  · have hready : ready.link i = false := by
      unfold Readiness.link
      cases hr : ready.links[i]? with
      | none => rfl
      | some b => simpa using List.any_eq_false.mp hl b (List.mem_of_getElem? hr)
    unfold captureIfReady
    rw [hready]
    rfl
  · unfold queueSlot
    cases hj : m.inbound with
    | none => simp [h.slots hj i hlt]
    | some job => rfl

/-! ## Runs -/

structure Waits (m : Multiplexer) : Prop where
  slots : m.inbound = none → ∀ l ∈ m.links, l.slot = []
  line : m.inbound = none → 10 ∉ m.typed ∧ m.consoleFilled < bufferSize
  message : m.outbound = none → Message.decode m.childBuffer = .incomplete
  childBuffer : m.outbound = none → m.childBuffer.length < bufferSize ∧ m.childEnded = false
  forSomething : m.interest.any = true
  forChildInput : ∀ job, m.inbound = some job → m.interest.childInput = true
  forLink : ∀ job, m.outbound = some job → m.interest.outbound = true ∧ job.link < m.links.length
  forFrames : ∀ i l, m.links[i]? = some l → l.slot = [] → m.interest.link i = true
  forConsole : m.console.isSome → m.inbound = none → m.interest.console = true
  forChildOutput : m.outbound = none → m.interest.childOutput = true
  idle : ∀ awake, (m.interest.inter awake).any = false → turn awake m = (m, none)

theorem interest_link {l : Link} (hl : m.links[i]? = some l) (hs : l.slot = []) :
    m.interest.link i = true := by
  simp [Readiness.link, interest, hl, hs]

theorem Rested.interest_any (h : Rested m.links.length m) (hpos : 0 < m.links.length) :
    m.interest.any = true := by
  cases hj : m.inbound with
  | some job => simp [Readiness.any, interest, hj]
  | none =>
    have hl := List.getElem?_eq_getElem hpos
    have hs : m.links[0].slot = [] := slot_of_link hl ▸ h.slots hj 0 hpos
    have hany : ∃ l ∈ m.links, l.slot = [] := ⟨_, List.getElem_mem hpos, hs⟩
    simp [Readiness.any, interest, hany]

/-- **The loop never waits with work left to do.** Whatever was found ready and whatever writes and
reads reported, between turns everything that could set out has, the loop waits for every
descriptor that work or room is there for, and there is at least one of them. -/
theorem waits_only_for_events {schedule : List Readiness} {m₀ m₁ : Multiplexer} (hm : m₀.Fresh)
    (hr : sendRoster m₀ = (m₁, none)) (ht : turns schedule m₁ = (m, none)) : m.Waits := by
  have hu (awake) : upTo schedule awake 0 m₁ = (m, none) := (upTo_zero ..).trans ht
  have hrest : Rested m.links.length m := by
    have h := upTo_induction (I := fun _ _ => True) (S := fun m => Rested m.links.length m)
      (fun awake m _ => ⟨fun _ _ _ => trivial, ?_⟩) schedule m.interest 0 m₁ (rested_of_fresh hm hr)
    · rw [hu] at h
      exact h.2 rfl rfl
    · rintro _ rfl he
      rw [← turn_eq_sequence] at he ⊢
      exact turn_rests awake he
  obtain ⟨ms, hfed⟩ : ∃ ms, Fed m₀ m none ms := by
    have h := upTo_keeps (fed_keeps hm.links.2) schedule m.interest 0 m₁ ⟨[], fed_of_fresh hm hr⟩
    rwa [hu] at h
  obtain ⟨⟨ms', hcarried⟩, _⟩ : Settled m₀ m := by
    have h := upTo_induction (faithful_throughout hm.links.2) schedule m.interest 0 m₁
      (settled_of_fresh hm hr)
    rw [hu] at h
    exact h.2 rfl rfl
  have hline : m.inbound = none → 10 ∉ m.typed ∧ m.consoleFilled < bufferSize := by
    intro hj
    obtain ⟨hn, hne⟩ := lineEnd_eq_none_iff.mp (hrest.line hj)
    exact ⟨hn, Nat.lt_of_le_of_ne hfed.framed.typed hne⟩
  have hbuffer : m.outbound = none → m.childBuffer.length < bufferSize ∧ m.childEnded = false :=
    fun hj => ⟨Message.length_lt_of_incomplete (hrest.incomplete hj), hrest.childOpen hj⟩
  refine ⟨?_, hline, hrest.incomplete, hbuffer, ?_, ?_, ?_, fun i l => interest_link, ?_, ?_,
    fun awake => turn_idle hrest⟩
  · intro hj l hl
    obtain ⟨i, hi, rfl⟩ := List.mem_iff_getElem.mp hl
    rw [← slot_of_link (List.getElem?_eq_getElem hi)]
    exact hrest.slots hj i hi
  · exact hrest.interest_any (hfed.links ▸ hm.links.1)
  · intro job hj
    simp [interest, hj]
  · intro job hj
    obtain ⟨_, _, _, _, hlink, _⟩ := hcarried.front job hj
    exact ⟨by simp [interest, hj], hlink⟩
  · intro hc hj
    simp [interest, hc, (hline hj).2]
  · intro hj
    simp [interest, hbuffer hj]

def linksReady : Readiness := ⟨false, true, false, false, [true, true]⟩

theorem pair_waits :
    pair.Fresh ∧ sendRoster pair = ((sendRoster pair).1, none) ∧
      ∃ m, turns (List.replicate 4 linksReady) (sendRoster pair).1 = (m, none) ∧ m.Waits ∧
        m.inbound = some ⟨.slot 0, 9⟩ := by
  have hr : sendRoster pair = ((sendRoster pair).1, none) := Prod.ext rfl (by decide)
  have ht : turns (List.replicate 4 linksReady) (sendRoster pair).1 =
      ((turns (List.replicate 4 linksReady) (sendRoster pair).1).1, none) :=
    Prod.ext rfl (by decide +kernel)
  exact ⟨fresh_pair, hr, _, ht, waits_only_for_events fresh_pair hr ht, by decide +kernel⟩

end

end EtherBench.Multiplexer
