import EtherBench.Proofs.Multiplexer.Dispatched
import EtherBench.Proofs.Multiplexer.Waiting
import Mathlib.Data.List.Induction

/-!
# No link keeps the child to itself

A turn decides what to wait for before it writes. The link whose frame goes out
in a turn still had a full slot then, so it captures nothing in that turn, and
whatever else waits sets out first. Two frames of one link in a row reach the
child only when nothing else was there to be sent.
-/

namespace EtherBench.Multiplexer

/-- The turn writes the last octet of the frame that waits for link `i`. -/
def Finishes (i : Nat) (awake : Readiness) (m : Multiplexer) : Prop :=
  ∃ offset, m.inbound = some ⟨.slot i, offset⟩ ∧
    (turn awake m).1.childInput.data.toList =
      m.childInput.data.toList ++ m.pendingInput ⟨.slot i, offset⟩

/-- Something else than a frame of link `i` waits for the child: a whole line, or another link's. -/
def OthersWait (i : Nat) (m : Multiplexer) : Prop := lineEnd m ≠ none ∨ ∃ j ≠ i, m.slot j ≠ []

/-- Link `i` has nothing for the child, and what is on its way there has only just set out. -/
structure StandsBack (i : Nat) (m : Multiplexer) : Prop where
  slot : m.slot i = []
  inbound : ∀ job, m.inbound = some job → job.origin ≠ .slot i ∧ job.offset = 0

structure Unwritten (m₀ m : Multiplexer) (ms : List Message) (m' : Multiplexer) : Prop where
  fed : Fed m₀ m' none ms
  inbound : m'.inbound = m.inbound
  waiting : ∀ job, m.inbound = some job → m'.waiting job.origin = m.waiting job.origin

/-- What a turn that starts at `m` has come to at `m'`: the message on its way is still on its way, or
it has been delivered. A link whose frame it was then stands back. -/
def Progress (m₀ m : Multiplexer) (ms : List Message) (m' : Multiplexer) (e : Option Ending) : Prop :=
  (Fed m₀ m' e ms ∧ ∀ job, m.inbound = some job → ∃ offset, m'.inbound = some ⟨job.origin, offset⟩) ∨
  ∃ job, m.inbound = some job ∧ Fed m₀ m' e (ms ++ [m.waiting job.origin]) ∧
    ∀ i, job.origin = .slot i → StandsBack i m'

section
variable {m₀ m m' m₁ : Multiplexer} {e : Option Ending} {ms : List Message}

/-! ## Phases behind the write -/

theorem later_keeps_fed (awake : Readiness) (m : Multiplexer) :
    ∀ p ∈ (phases awake m).drop 2, p.Keeps fun m e => Fed m₀ m e ms := by
  refine forall_mem_later_phases ?_ ?_ ?_ ?_ ?_ ?_ ?_
  · exact fun b => .when b fun m h => h.of_inward (writeFrame_inward m) _
  · exact fun _ h => queueLine_fed h
  · exact fun b => .when b fun m h => h.of_inward (readChild_inward m) _
  · exact fun m h => h.of_inward (takeMessages_inward m) _
  · exact fun m h => h.of_inward (endOfChild_inward m) _
  · exact fun i _ h => captureIfReady_fed _ i h
  · exact fun i _ h => queueSlot_fed i h

theorem captureIfReady_inbound (ready : Readiness) (i : Nat) (m : Multiplexer) :
    (captureIfReady ready i m).1.inbound = m.inbound := by
  rcases captureIfReady_eq ready i m with he | ⟨l, he⟩
  · rw [he]
  · rw [he]

theorem later_keeps_inbound (job : Inbound) (awake : Readiness) (m : Multiplexer) :
    ∀ p ∈ (phases awake m).drop 2, p.Keeps fun m _ => m.inbound = some job := by
  have hsame : ∀ {m m'}, SameInward m m' → m.inbound = some job → m'.inbound = some job :=
    fun hs h => hs.inbound.trans h
  refine forall_mem_later_phases ?_ ?_ ?_ ?_ ?_ ?_ ?_
  · exact fun b => .when b fun m => hsame (writeFrame_inward m)
  · intro m h
    unfold queueLine
    rw [h]
    exact h
  · exact fun b => .when b fun m => hsame (readChild_inward m)
  · exact fun m => hsame (takeMessages_inward m)
  · exact fun m => hsame (endOfChild_inward m)
  · exact fun i m h => (captureIfReady_inbound _ i m).trans h
  · intro i m h
    unfold queueSlot
    rw [h]
    exact h

theorem StandsBack.of_inward {i : Nat} (h : StandsBack i m) (hs : SameInward m m') : StandsBack i m' := by
  refine ⟨(hs.slot i).trans h.slot, ?_⟩
  rw [hs.inbound]
  exact h.inbound

theorem later_keeps_standsBack {i : Nat} {awake : Readiness} {m : Multiplexer}
    (hr : (m.interest.inter awake).link i = false) :
    ∀ p ∈ (phases awake m).drop 2, p.Keeps fun m _ => StandsBack i m := by
  have hsame : ∀ {m m'}, SameInward m m' → StandsBack i m → StandsBack i m' := fun hs h => h.of_inward hs
  refine forall_mem_later_phases ?_ ?_ ?_ ?_ ?_ ?_ ?_
  · exact fun b => .when b fun m => hsame (writeFrame_inward m)
  · intro m h
    unfold queueLine
    split
    · refine ⟨h.slot, ?_⟩
      intro job hj
      injection hj with hj
      subst hj
      exact ⟨nofun, rfl⟩
    · exact h
  · exact fun b => .when b fun m => hsame (readChild_inward m)
  · exact fun m => hsame (takeMessages_inward m)
  · exact fun m => hsame (endOfChild_inward m)
  · intro j m h
    refine ⟨?_, by rw [captureIfReady_inbound]; exact h.inbound⟩
    by_cases hij : i = j
    · subst hij
      simp only [captureIfReady, Phase.when, hr]
      exact h.slot
    · rcases captureIfReady_eq _ j m with he | ⟨l, he⟩
      · rw [he]
        exact h.slot
      · rw [he, slot_set_ne (Ne.symm hij)]
        exact h.slot
  · intro j m h
    unfold queueSlot
    split
    · rename_i hc
      refine ⟨h.slot, ?_⟩
      intro job hj
      injection hj with hj
      subst hj
      refine ⟨?_, rfl⟩
      intro ho
      injection ho with hij
      subst hij
      simp [h.slot] at hc
    · exact h

/-! ## Turns -/

theorem waiting_of_typed {o : Origin} (ho : m.Holds o) (console : Option Source) (b : Bytes) :
    ({ m with console, typed := m.typed ++ b } : Multiplexer).waiting o = m.waiting o := by
  cases o with
  | slot i => rfl
  | console stop =>
    have hle := ho.2
    simp only [consoleFilled] at hle
    simp only [waiting]
    rw [List.take_append_of_le_length]
    omega

theorem readConsole_waiting {o : Origin} (ho : m.Holds o) : (readConsole m).1.waiting o = m.waiting o := by
  unfold readConsole
  split
  · rfl
  · split
    · cases o <;> rfl
    · cases o <;> rfl
    · exact waiting_of_typed ho _ _

theorem readConsole_inbound (m : Multiplexer) : (readConsole m).1.inbound = m.inbound := by
  unfold readConsole
  split
  · rfl
  · split <;> rfl

theorem interest_link_of_slot {i : Nat} (h : m.slot i ≠ []) (awake : Readiness) :
    (m.interest.inter awake).link i = false := by
  unfold slot at h
  cases hl : m.links[i]? with
  | none => simp [hl] at h
  | some l =>
    have hne : l.slot ≠ [] := by simpa [hl] using h
    simp only [Readiness.link, Readiness.inter, interest, List.getElem?_zipWith, List.getElem?_map, hl,
      Option.map_some]
    cases awake.links[i]? with
    | none => rfl
    | some b => simp [hne]

theorem writeInput_progress (hN : m₀.links.length ≤ Message.maxInterfaces) (h : Fed m₀ m none ms) :
    Progress m₀ m ms (writeInput m).1 (writeInput m).2 := by
  rcases writeInput_cases m with ⟨s, e, hw, hs⟩ | ⟨job, s, n, hj, hn, hs, hw⟩ | ⟨job, s, hj, hs, hw⟩
  · rw [hw]
    exact .inl ⟨h.unwritten hs e, fun job hj => ⟨job.offset, hj⟩⟩
  · rw [hw]
    refine .inl ⟨h.advance hj hs hn, fun job' hj' => ⟨job.offset + n, ?_⟩⟩
    rw [hj] at hj'
    injection hj' with hj'
    rw [hj']
  · rw [hw]
    refine .inr ⟨job, hj, h.deliver hN hj hs, fun i ho => ?_⟩
    rw [ho]
    exact ⟨(slot_delivered i i).trans (if_pos rfl), nofun⟩

theorem Fed.progress (h : Fed m₀ m' e ms) (hi : m'.inbound = m.inbound) : Progress m₀ m ms m' e :=
  .inl ⟨h, fun job hj => ⟨job.offset, hi.trans hj⟩⟩

theorem Unwritten.progress (h : Unwritten m₀ m ms m') : Progress m₀ m ms m' none := h.fed.progress h.inbound

theorem Unwritten.writeInput (hN : m₀.links.length ≤ Message.maxInterfaces) (h : Unwritten m₀ m ms m') :
    Progress m₀ m ms (Multiplexer.writeInput m').1 (Multiplexer.writeInput m').2 := by
  have hp := writeInput_progress hN h.fed
  rw [Progress, h.inbound] at hp
  rcases hp with hp | ⟨job, hj, hp⟩
  · exact .inl hp
  · rw [h.waiting job hj] at hp
    exact .inr ⟨job, hj, hp⟩

theorem later_keeps_progress (h : Fed m₀ m none ms) (awake : Readiness) :
    ∀ p ∈ (phases awake m).drop 2, p.Keeps (Progress m₀ m ms) := by
  intro p hp m' hm'
  rcases hm' with ⟨hf, hi⟩ | ⟨job, hj, hf, hstands⟩
  · refine .inl ⟨later_keeps_fed awake m p hp m' hf, fun job hj => ?_⟩
    obtain ⟨offset, hi⟩ := hi job hj
    exact ⟨offset, later_keeps_inbound _ awake m p hp m' hi⟩
  · refine .inr ⟨job, hj, later_keeps_fed awake m p hp m' hf, fun i ho => ?_⟩
    have hslot : m.slot i ≠ [] := by
      have hh := (h.framed.inbound job hj).1
      rwa [ho] at hh
    exact later_keeps_standsBack (interest_link_of_slot hslot awake) p hp m' (hstands i ho)

/-- **What a turn does for the child**: it delivers the message on its way, or leaves it on its way. -/
theorem progress_throughout (hN : m₀.links.length ≤ Message.maxInterfaces) (awake : Readiness)
    (m : Multiplexer) (h : Fed m₀ m none ms) :
    Phase.Throughout (· = m) (phases awake m) (Progress m₀ m ms) (Progress m₀ m ms · none) := by
  have hcut : phases awake m = .when (m.interest.inter awake).console readConsole ::
      .when (m.interest.inter awake).childInput writeInput :: (phases awake m).drop 2 := rfl
  have hstart : Unwritten m₀ m ms m := ⟨h, rfl, fun _ _ => rfl⟩
  rw [hcut]
  refine .cons (Q := Unwritten m₀ m ms) ?_ (.when ?_ fun _ => ?_) ?_
  · rintro _ rfl
    exact hstart.progress
  · rintro _ rfl
    exact ⟨hstart.progress, fun _ => hstart⟩
  · rintro m' (rfl : m' = m)
    have hf := readConsole_fed h
    have hi := readConsole_inbound m'
    refine ⟨hf.progress hi, fun he => ⟨he ▸ hf, hi, ?_⟩⟩
    exact fun job hj => readConsole_waiting (h.framed.inbound job hj).1
  refine .cons (Q := (Progress m₀ m ms · none)) ?_ (.when ?_ fun _ => ?_) ?_
  · exact fun m' hm' => hm'.progress
  · exact fun m' hm' => ⟨hm'.progress, fun _ => hm'.progress⟩
  · intro m' hm'
    have hp := hm'.writeInput hN
    exact ⟨hp, fun he => he ▸ hp⟩
  · exact Phase.throughout_of_keeps (later_keeps_progress h awake)

theorem turn_progress (hN : m₀.links.length ≤ Message.maxInterfaces) (h : Fed m₀ m none ms)
    (awake : Readiness) : Progress m₀ m ms (turn awake m).1 (turn awake m).2 := by
  have hp := (progress_throughout hN awake m h).1 (phases awake m).length m rfl
  rwa [List.take_length, ← turn_eq_sequence] at hp

theorem Fed.begun_append_pending (h : Fed m₀ m e ms) {job : Inbound} (hj : m.inbound = some job) :
    m.begun ++ m.pendingInput job = (m.waiting job.origin).toBytes := by
  obtain ⟨hmsg, _⟩ := h.framed.message_eq (h.framed.inbound job hj).1
  simp only [begun, hj]
  rw [pendingInput, List.take_append_drop, hmsg]

theorem StandsBack.begun_eq_nil {i : Nat} (h : StandsBack i m) : m.begun = [] := by
  unfold begun
  split
  · rfl
  · rename_i job hj
    rw [(h.inbound job hj).2, List.take_zero]

/-- The last octet of a link's frame goes out in a turn if and only if the turn delivers its message. -/
theorem Fed.finishes (h : Fed m₀ m none ms) {i offset : Nat} {awake : Readiness}
    (hj : m.inbound = some ⟨.slot i, offset⟩)
    (hf : Fed m₀ (turn awake m).1 e (ms ++ [m.waiting (.slot i)])) (hs : StandsBack i (turn awake m).1) :
    Finishes i awake m := by
  refine ⟨offset, hj, ?_⟩
  have hwhole := h.begun_append_pending hj
  rw [hf.data, h.data, hs.begun_eq_nil, List.append_nil, List.append_assoc, List.append_assoc, hwhole]
  simp

theorem Finishes.delivered (hN : m₀.links.length ≤ Message.maxInterfaces) (h : Fed m₀ m none ms)
    {i : Nat} {awake : Readiness} (hi : Finishes i awake m) :
    Fed m₀ (turn awake m).1 (turn awake m).2 (ms ++ [m.waiting (.slot i)]) ∧
      StandsBack i (turn awake m).1 := by
  obtain ⟨offset, hj, hdata⟩ := hi
  rcases turn_progress hN h awake with ⟨hf, hstays⟩ | ⟨job, hjob, hf, hstands⟩
  · -- a message that is still on its way would be whole by now
    have hwhole := h.begun_append_pending hj
    obtain ⟨_, hfits⟩ := h.framed.message_eq (h.framed.inbound _ hj).1
    rw [hf.data, h.data, List.append_assoc _ m.begun, hwhole] at hdata
    have hd := Message.decode_toBytes_append hfits []
    rw [List.append_nil, ← List.append_cancel_left hdata] at hd
    exact absurd hd (hf.framed.decode_begun _ _)
  · rw [hj] at hjob
    injection hjob with hjob
    subst hjob
    exact ⟨hf, hstands i rfl⟩

/-! ## Runs -/

/-- In some turn of the schedule the last octet of `s`, the message of link `i` behind `front`, goes
out, and when the turn is over nothing else waits. -/
def FinishedAlone (m₀ m₁ : Multiplexer) (schedule : List Readiness) (i : Nat) (front : List Message)
    (s : Message) : Prop :=
  ∃ before now m₂ m₃, before ++ [now] <+: schedule ∧ turns before m₁ = (m₂, none) ∧
    turn now m₂ = (m₃, none) ∧ Finishes i now m₂ ∧
    m₃.childInput.data.toList = m₀.roster.toBytes ++ (front ++ [s]).flatMap Message.toBytes ∧
    ¬ OthersWait i m₃

/-- Of two messages of one link in a row the first was finished when nothing else waited. -/
def TakeTurns (m₀ m₁ : Multiplexer) (schedule : List Readiness) (ms : List Message) : Prop :=
  ∀ i < m₀.links.length, ∀ front s s' back, ms = front ++ s :: s' :: back →
    s.kind = UInt16.ofNat (i + 1) → s'.kind = UInt16.ofNat (i + 1) →
    FinishedAlone m₀ m₁ schedule i front s

/-- The same of the last message and the one that follows, unless that one is known to be another's. -/
structure Fair (m₀ m₁ : Multiplexer) (schedule : List Readiness) (m : Multiplexer) (ms : List Message) :
    Prop where
  fed : Fed m₀ m none ms
  takeTurns : TakeTurns m₀ m₁ schedule ms
  last : ∀ i < m₀.links.length, ∀ front s, ms = front ++ [s] → s.kind = UInt16.ofNat (i + 1) →
    (∀ job, m.inbound = some job → job.origin = .slot i) → FinishedAlone m₀ m₁ schedule i front s

section
variable {schedule schedule' : List Readiness} {i : Nat} {front : List Message} {s : Message}

theorem FinishedAlone.mono (h : FinishedAlone m₀ m₁ schedule i front s) (hp : schedule <+: schedule') :
    FinishedAlone m₀ m₁ schedule' i front s := by
  obtain ⟨before, now, m₂, m₃, hb, hrest⟩ := h
  exact ⟨before, now, m₂, m₃, hb.trans hp, hrest⟩

theorem TakeTurns.mono (h : TakeTurns m₀ m₁ schedule ms) (hp : schedule <+: schedule') :
    TakeTurns m₀ m₁ schedule' ms :=
  fun i hi front s s' back hms hs hs' => (h i hi front s s' back hms hs hs').mono hp

theorem TakeTurns.concat (h : TakeTurns m₀ m₁ schedule ms)
    (hlast : ∀ i < m₀.links.length, ∀ front x, ms = front ++ [x] → x.kind = UInt16.ofNat (i + 1) →
      s.kind = UInt16.ofNat (i + 1) → FinishedAlone m₀ m₁ schedule i front x) :
    TakeTurns m₀ m₁ schedule (ms ++ [s]) := by
  intro i hi front x y back hms hx hy
  rcases List.eq_nil_or_concat back with rfl | ⟨back, z, rfl⟩
  · have hcut : ms ++ [s] = (front ++ [x]) ++ [y] := by rw [hms, List.append_assoc]; rfl
    obtain ⟨hms, hs⟩ := List.append_inj' hcut rfl
    injection hs with hs
    exact hlast i hi front x hms hx (hs ▸ hy)
  · have hcut : ms ++ [s] = (front ++ x :: y :: back) ++ [z] := by rw [hms]; simp
    exact h i hi front x y back (List.append_inj' hcut rfl).1 hx hy

end

theorem origin_of_kind (hN : m₀.links.length ≤ Message.maxInterfaces) (h : Fed m₀ m none ms)
    {job : Inbound} (hj : m.inbound = some job) {i : Nat} (hi : i < m₀.links.length)
    (hk : (m.waiting job.origin).kind = UInt16.ofNat (i + 1)) : job.origin = .slot i := by
  have hmax := Nat.lt_of_lt_of_le hi hN
  have hh := (h.framed.inbound job hj).1
  cases ho : job.origin with
  | console stop =>
    rw [ho] at hk
    exact absurd hk (Message.control_ne_kind hmax)
  | slot j =>
    rw [ho] at hk hh
    by_cases hij : j = i
    · rw [hij]
    · exact absurd hk (Message.kind_ne (h.lt_max hN hh) hmax hij)

theorem Rested.not_othersWait (h : Rested m.links.length m) (hj : m.inbound = none) (i : Nat) :
    ¬ OthersWait i m := by
  rintro (hl | ⟨j, _, hs⟩)
  · exact hl (h.line hj)
  · exact hs (h.slots hj j (lt_length_of_slot hs))

theorem Fair.deliver (hN : m₀.links.length ≤ Message.maxInterfaces) {schedule : List Readiness}
    (h : Fair m₀ m₁ schedule m ms) {job : Inbound} (hj : m.inbound = some job) :
    TakeTurns m₀ m₁ schedule (ms ++ [m.waiting job.origin]) := by
  refine h.takeTurns.concat fun i hi front s hms hs hk => h.last i hi front s hms hs fun job' hj' => ?_
  rw [hj] at hj'
  injection hj' with hj'
  exact hj' ▸ origin_of_kind hN h.fed hj hi hk

/-- **A turn keeps the run fair.** -/
theorem Fair.next (hN : m₀.links.length ≤ Message.maxInterfaces) {before : List Readiness}
    {now : Readiness} (hm : turns before m₁ = (m, none)) (h : Fair m₀ m₁ before m ms)
    (ht : turn now m = (m', none)) : ∃ ms', Fair m₀ m₁ (before ++ [now]) m' ms' := by
  have hmore : before <+: before ++ [now] := List.prefix_append ..
  have hp := turn_progress hN h.fed now
  have hrests := turn_rests (m := m) now
  rw [ht] at hp hrests
  rcases hp with ⟨hf, hstays⟩ | ⟨job, hj, hf, hstands⟩
  · refine ⟨ms, hf, h.takeTurns.mono hmore, fun i hi front s hms hs hjob => ?_⟩
    refine (h.last i hi front s hms hs fun job hj => ?_).mono hmore
    obtain ⟨offset, hj'⟩ := hstays job hj
    exact hjob ⟨job.origin, offset⟩ hj'
  · refine ⟨_, hf, (h.deliver hN hj).mono hmore, fun i hi front s hms hs hjob => ?_⟩
    obtain ⟨rfl, hlast⟩ := List.append_inj' hms rfl
    injection hlast with hlast
    have ho := origin_of_kind hN h.fed hj hi (hlast ▸ hs)
    have hback := hstands i ho
    rw [ho] at hf hlast
    -- the link stands back, so that nothing is on its way any more
    have hnone : m'.inbound = none := by
      cases hj' : m'.inbound with
      | none => rfl
      | some job' => exact absurd (hjob job' hj') (hback.inbound job' hj').1
    have hfinishes : Finishes i now m := by
      obtain ⟨o, offset⟩ := job
      simp only at ho
      subst ho
      refine h.fed.finishes hj (e := none) ?_ ?_
      · rwa [ht]
      · rwa [ht]
    refine ⟨before, now, m, m', List.prefix_refl _, hm, ht, hfinishes, ?_, (hrests rfl).not_othersWait hnone i⟩
    rw [hf.data, hback.begun_eq_nil, List.append_nil, hlast]

theorem fair_of_fresh (h : m₀.Fresh) (hr : sendRoster m₀ = (m, none)) : Fair m₀ m [] m [] := by
  refine ⟨fed_of_fresh h hr, ?_, ?_⟩
  · intro i hi front s s' back hms
    simp at hms
  · intro i hi front s hms
    simp at hms

theorem fair_of_turns (hm : m₀.Fresh) (hr : sendRoster m₀ = (m₁, none)) {before : List Readiness}
    (ht : turns before m₁ = (m, none)) : ∃ ms, Fair m₀ m₁ before m ms := by
  induction before using List.reverseRecOn generalizing m with
  | nil =>
    injection ht with ht _
    exact ⟨[], ht ▸ fair_of_fresh hm hr⟩
  | append_singleton before now ih =>
    obtain ⟨m₂, hm₂, hnow⟩ := turns_concat ht
    obtain ⟨ms, h⟩ := ih hm₂
    exact h.next hm.links.2 hm₂ hnow

/-- **No link keeps the child to itself**, whatever the links have queued and however they are found
ready. In the turn in which the last octet of a link's frame goes out, that link stands back: if a line
or another link's frame waits when the turn is over, one of them has set out. So two messages of one
link in a row are delivered only where nothing else waited when the first was finished. -/
theorem links_take_turns (hm : m₀.Fresh) (hr : sendRoster m₀ = (m₁, none)) :
    (∀ before now m₂ m₃ e₃ i, turns before m₁ = (m₂, none) → turn now m₂ = (m₃, e₃) →
      Finishes i now m₂ → StandsBack i m₃ ∧
        (e₃ = none → OthersWait i m₃ → ∃ o, m₃.inbound = some ⟨o, 0⟩ ∧ o ≠ .slot i)) ∧
    ∀ schedule awake k m e, upTo schedule awake k m₁ = (m, e) →
      ∃ ms, (Message.split m.childInput.data.toList).1 = m₀.roster :: ms ∧ TakeTurns m₀ m₁ schedule ms := by
  have hN := hm.links.2
  constructor
  · intro before now m₂ m₃ e₃ i hm₂ ht hi
    obtain ⟨ms, hfair⟩ := fair_of_turns hm hr hm₂
    have hback := (hi.delivered hN hfair.fed).2
    have hrests := turn_rests (m := m₂) now
    rw [ht] at hback hrests
    refine ⟨hback, fun he hothers => ?_⟩
    cases hj : m₃.inbound with
    | none => exact absurd hothers ((hrests he).not_othersWait hj i)
    | some job =>
      obtain ⟨ho, hoffset⟩ := hback.inbound job hj
      refine ⟨job.origin, ?_, ho⟩
      rw [← hoffset]
  · intro schedule awake k m e hu
    obtain ⟨before, now, j, m₂, hb, hm₂, hpoint⟩ := upTo_within hu
    obtain ⟨ms, hfair⟩ := fair_of_turns hm hr hm₂
    have hp := (progress_throughout hN now m₂ hfair.fed).1 j m₂ rfl
    rw [hpoint] at hp
    rcases hp with ⟨hf, _⟩ | ⟨job, hj, hf, _⟩
    · exact ⟨ms, hf.split_written hm.roster_fits, hfair.takeTurns.mono hb⟩
    · exact ⟨_, hf.split_written hm.roster_fits, (hfair.deliver hN hj).mono hb⟩

def rush : Multiplexer :=
  { links :=
      [{ name := "left", address := ⟨Vector.replicate 6 2⟩, mtu := 1500,
         arrivals := [.frame [1] none, .frame [2] none, .frame [3] none] },
       { name := "right", address := ⟨Vector.replicate 6 3⟩, mtu := 1500, arrivals := [.frame [9] none] }] }

def rushed : List Message := [⟨1, [1]⟩, ⟨2, [9]⟩, ⟨1, [2]⟩, ⟨1, [3]⟩]

theorem rush_takes_turns :
    rush.Fresh ∧ sendRoster rush = ((sendRoster rush).1, none) ∧
      (∃ m, turns (List.replicate 2 linksReady) (sendRoster rush).1 = (m, none) ∧ OthersWait 0 m ∧
        ∃ o, m.inbound = some ⟨o, 0⟩ ∧ o ≠ .slot 0) ∧
      FinishedAlone rush (sendRoster rush).1 (List.replicate 6 linksReady) 0 (rushed.take 2) ⟨1, [2]⟩ := by
  have hm : rush.Fresh := by
    have h : ofLinks rush.links none = .ok { links := rush.links } := rfl
    exact fresh_of_ofLinks h (by decide) {} {} {} rfl rfl
  have hr : sendRoster rush = ((sendRoster rush).1, none) := Prod.ext rfl (by decide)
  obtain ⟨hturn, hrun⟩ := links_take_turns hm hr
  refine ⟨hm, hr, ?_, ?_⟩
  · have hone : turns [linksReady] (sendRoster rush).1 = ((turns [linksReady] (sendRoster rush).1).1, none) :=
      Prod.ext rfl (by decide +kernel)
    have htwo : turns ([linksReady] ++ [linksReady]) (sendRoster rush).1 =
        ((turns (List.replicate 2 linksReady) (sendRoster rush).1).1, none) :=
      Prod.ext rfl (by decide +kernel)
    obtain ⟨m₂, hm₂, hsecond⟩ := turns_concat htwo
    obtain rfl : (turns [linksReady] (sendRoster rush).1).1 = m₂ := congrArg Prod.fst hm₂
    have hfinishes : Finishes 0 linksReady (turns [linksReady] (sendRoster rush).1).1 :=
      ⟨0, by decide +kernel, by decide +kernel⟩
    have hothers : OthersWait 0 (turns (List.replicate 2 linksReady) (sendRoster rush).1).1 :=
      .inr ⟨1, by decide, by decide +kernel⟩
    exact ⟨_, htwo, hothers, (hturn _ _ _ _ _ 0 hone hsecond hfinishes).2 rfl hothers⟩
  · have hu : upTo (List.replicate 6 linksReady) linksReady 0 (sendRoster rush).1 =
        ((upTo (List.replicate 6 linksReady) linksReady 0 (sendRoster rush).1).1, none) :=
      Prod.ext rfl (by decide +kernel)
    obtain ⟨ms, hms, hturns⟩ := hrun _ _ _ _ _ hu
    have hdata : (upTo (List.replicate 6 linksReady) linksReady 0 (sendRoster rush).1).1.childInput.data.toList =
        (rush.roster :: rushed).flatMap Message.toBytes ++ [] := by decide +kernel
    have hfits : ∀ s ∈ rush.roster :: rushed, s.Fits := by
      unfold Message.Fits
      decide
    rw [hdata, Message.split_flatMap_append hfits, Message.split_of_not_complete] at hms
    · injection hms with _ hms
      exact hturns 0 (by decide) _ _ ⟨1, [3]⟩ [] (hms ▸ rfl) rfl rfl
    · exact fun _ _ h => nomatch h

end

end EtherBench.Multiplexer
