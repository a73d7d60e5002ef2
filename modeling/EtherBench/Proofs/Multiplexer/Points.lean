import EtherBench.Multiplexer.Run
import EtherBench.Proofs.Message.Stream
import EtherBench.Proofs.Stream.Transfer

/-!
# Reasoning about phases

A phase is judged by what holds before it and by what then holds of the state
and of the ending. A turn is a list of phases, so a run can be looked at between
any two of them: an invariant that every phase keeps holds at each such point,
also where the run has just ended.
-/

namespace EtherBench.Multiplexer

namespace Phase

/-- From a state of `P` the phase comes to a state and an ending of `Q`. -/
def Leads (P : Multiplexer → Prop) (p : Phase) (Q : Multiplexer → Option Ending → Prop) : Prop :=
  ∀ m, P m → Q (p m).1 (p m).2

/-- Where a run may go on, the phase keeps to `I`, whether it ends the run or not. -/
abbrev Keeps (I : Multiplexer → Option Ending → Prop) (p : Phase) : Prop := p.Leads (I · none) I

/-- From a state of `P`, `I` holds however many of the phases have been gone through, and `R` after
the last one where none has ended the run. -/
def Throughout (P : Multiplexer → Prop) (ps : List Phase)
    (I : Multiplexer → Option Ending → Prop) (R : Multiplexer → Prop) : Prop :=
  (∀ k, (sequence (ps.take k)).Leads P I) ∧ (sequence ps).Leads P fun m e => e = none → R m

section
variable {P Q R : Multiplexer → Prop} {I : Multiplexer → Option Ending → Prop} {p q : Phase}
  {ps qs : List Phase}

theorem andThen_of_none {m : Multiplexer} (h : (p m).2 = none) : p.andThen q m = q (p m).1 := by
  unfold andThen
  split
  · rename_i he
    rw [he] at h
    cases h
  · rename_i he
    rw [he]

theorem andThen_of_some {m : Multiplexer} {e : Ending} (h : (p m).2 = some e) :
    p.andThen q m = p m := by
  unfold andThen
  split
  · rename_i he
    rw [he]
  · rename_i he
    rw [he] at h
    cases h

theorem andThen_assoc (p q r : Phase) : (p.andThen q).andThen r = p.andThen (q.andThen r) := by
  funext m
  cases h : (p m).2 with
  | none => rw [andThen_of_none h, andThen, andThen_of_none h, andThen]
  | some e =>
    have hpq : (p.andThen q m).2 = some e := by rw [andThen_of_some h, h]
    rw [andThen_of_some hpq, andThen_of_some h, andThen_of_some h]

theorem sequence_singleton (p : Phase) : sequence [p] = p := by
  funext m
  cases h : (p m).2 with
  | none => exact (andThen_of_none h).trans (Prod.ext rfl h.symm)
  | some e => exact andThen_of_some h

theorem sequence_append (ps qs : List Phase) :
    sequence (ps ++ qs) = (sequence ps).andThen (sequence qs) := by
  induction ps with
  | nil => rfl
  | cons p ps ih => rw [List.cons_append, sequence, ih, sequence, andThen_assoc]

theorem Keeps.andThen (hp : p.Keeps I) (hq : q.Keeps I) : (p.andThen q).Keeps I := by
  intro m hm
  have h := hp m hm
  cases he : (p m).2 with
  | none =>
    rw [andThen_of_none he]
    rw [he] at h
    exact hq _ h
  | some e => rwa [andThen_of_some he]

theorem Leads.andThen (hp : p.Leads P fun m e => e = none → Q m)
    (hq : q.Leads Q fun m e => e = none → R m) : (p.andThen q).Leads P fun m e => e = none → R m := by
  intro m hm
  cases he : (p m).2 with
  | none =>
    rw [andThen_of_none he]
    exact hq _ (hp m hm he)
  | some e =>
    rw [andThen_of_some he, he]
    exact fun h => nomatch h

theorem Leads.when {ready : Bool} (hn : ∀ m, P m → I m none) (hp : ready = true → p.Leads P I) :
    (when ready p).Leads P I := by
  intro m hm
  unfold Phase.when
  split
  · rename_i hr
    exact hp hr m hm
  · exact hn m hm

theorem Keeps.when (ready : Bool) (hp : p.Keeps I) : (when ready p).Keeps I :=
  Leads.when (fun _ hm => hm) fun _ => hp

theorem Keeps.sequence (h : ∀ p ∈ ps, p.Keeps I) : (sequence ps).Keeps I := by
  induction ps with
  | nil => exact fun _ hm => hm
  | cons p ps ih =>
    exact (h p (List.mem_cons_self ..)).andThen (ih fun q hq => h q (List.mem_cons_of_mem _ hq))

theorem Throughout.nil (hI : ∀ m, P m → I m none) (hR : ∀ m, P m → R m) : Throughout P [] I R := by
  refine ⟨?_, fun m hm _ => hR m hm⟩
  intro k m hm
  rw [List.take_nil]
  exact hI m hm

theorem Throughout.mono (hP : ∀ m, P m → Q m) (h : Throughout Q ps I R) : Throughout P ps I R :=
  ⟨fun k m hm => h.1 k m (hP m hm), fun m hm => h.2 m (hP m hm)⟩

/-- The assertion between two phases may change; the invariant stays. -/
theorem Throughout.cons (hI : ∀ m, P m → I m none)
    (hp : p.Leads P fun m e => I m e ∧ (e = none → Q m)) (hps : Throughout Q ps I R) :
    Throughout P (p :: ps) I R := by
  constructor
  · intro k m hm
    cases k with
    | zero => exact hI m hm
    | succ k =>
      rw [List.take_succ_cons, Phase.sequence]
      cases he : (p m).2 with
      | none =>
        rw [andThen_of_none he]
        exact hps.1 k _ ((hp m hm).2 he)
      | some e =>
        rw [andThen_of_some he]
        exact (hp m hm).1
  · exact Leads.andThen (fun m hm => (hp m hm).2) hps.2

theorem throughout_of_forall (hI : ∀ m, P m → I m none)
    (h : ∀ p ∈ ps, p.Leads P fun m e => I m e ∧ (e = none → P m)) : Throughout P ps I P := by
  induction ps with
  | nil => exact .nil hI fun _ hm => hm
  | cons p ps ih =>
    exact .cons hI (h p (List.mem_cons_self ..)) (ih fun q hq => h q (List.mem_cons_of_mem _ hq))

theorem throughout_of_keeps (h : ∀ p ∈ ps, p.Keeps I) : Throughout (I · none) ps I (I · none) := by
  refine throughout_of_forall (fun _ hm => hm) fun p hp m hm => ⟨h p hp m hm, ?_⟩
  intro he
  have := h p hp m hm
  rwa [he] at this

end

end Phase

/-! ## Points of a run -/

def captureIfReady (ready : Readiness) (i : Nat) : Phase := fun m =>
  Phase.when (ready.link i && (m.slot i).isEmpty) (capture i) m

def commonPhases (ready : Readiness) : List Phase :=
  [.when ready.console readConsole, .when ready.childInput writeInput,
    .when ready.outbound writeFrame, queueLine, .when ready.childOutput readChild,
    takeMessages, endOfChild]

def linkPhases (ready : Readiness) (links : List Nat) : List Phase :=
  links.flatMap fun i => [captureIfReady ready i, queueSlot i]

def phases (awake : Readiness) (m : Multiplexer) : List Phase :=
  commonPhases (m.interest.inter awake) ++
    linkPhases (m.interest.inter awake) (List.range m.links.length)

/-- Behind the reads of the console and the writes to the child come the phases of the child's output
and then those of the links. -/
theorem forall_mem_later_phases {C : Phase → Prop} (hframe : ∀ b, C (.when b writeFrame))
    (hline : C queueLine) (hread : ∀ b, C (.when b readChild)) (htake : C takeMessages)
    (hend : C endOfChild) {awake : Readiness} {m : Multiplexer}
    (hcapture : ∀ i, C (captureIfReady (m.interest.inter awake) i)) (hslot : ∀ i, C (queueSlot i)) :
    ∀ p ∈ (phases awake m).drop 2, C p := by
  intro p hp
  simp only [phases, commonPhases, linkPhases, List.cons_append, List.nil_append, List.drop_succ_cons,
    List.drop_zero, List.mem_cons, List.mem_flatMap, List.not_mem_nil, or_false] at hp
  rcases hp with rfl | rfl | rfl | rfl | rfl | ⟨i, _, rfl | rfl⟩
  · exact hframe _
  · exact hline
  · exact hread _
  · exact htake
  · exact hend
  · exact hcapture i
  · exact hslot i

theorem forall_mem_tail_phases {C : Phase → Prop} (hwrite : ∀ b, C (.when b writeInput))
    (hframe : ∀ b, C (.when b writeFrame)) (hline : C queueLine) (hread : ∀ b, C (.when b readChild))
    (htake : C takeMessages) (hend : C endOfChild) (hcapture : ∀ ready i, C (captureIfReady ready i))
    (hslot : ∀ i, C (queueSlot i)) (awake : Readiness) (m : Multiplexer) :
    ∀ p ∈ (phases awake m).tail, C p := by
  intro p hp
  rcases List.mem_cons.mp hp with rfl | hp
  · exact hwrite _
  · exact forall_mem_later_phases hframe hline hread htake hend (hcapture _) hslot p hp

theorem sequence_linkPhases (ready : Readiness) (links : List Nat) :
    Phase.sequence (linkPhases ready links) =
      Phase.sequence (links.map (serveLink ready)) := by
  induction links with
  | nil => rfl
  | cons i links ih =>
    rw [linkPhases, List.flatMap_cons, Phase.sequence_append, List.map_cons, Phase.sequence]
    exact congrArg (Phase.andThen _) ih

theorem turn_eq_sequence (awake : Readiness) (m : Multiplexer) :
    turn awake m = Phase.sequence (phases awake m) m := by
  have h : Phase.sequence (commonPhases (m.interest.inter awake) ++
      [Phase.sequence ((List.range m.links.length).map (serveLink (m.interest.inter awake)))]) m =
      Phase.sequence (phases awake m) m := by
    rw [phases, Phase.sequence_append, Phase.sequence_append, sequence_linkPhases,
      Phase.sequence_singleton]
  exact h

/-- A run looked at after whole turns and the first `k` phases of one more. -/
def upTo (schedule : List Readiness) (awake : Readiness) (k : Nat) : Phase :=
  (turns schedule).andThen fun m => Phase.sequence ((phases awake m).take k) m

theorem upTo_cons (r : Readiness) (schedule : List Readiness) (awake : Readiness) (k : Nat) :
    upTo (r :: schedule) awake k = (turn r).andThen (upTo schedule awake k) := by
  unfold upTo turns
  rw [List.map_cons, Phase.sequence, Phase.andThen_assoc]

theorem upTo_zero (schedule : List Readiness) (awake : Readiness) (m : Multiplexer) :
    upTo schedule awake 0 m = turns schedule m := by
  unfold upTo
  cases h : (turns schedule m).2 with
  | none => exact (Phase.andThen_of_none h).trans (Prod.ext rfl h.symm)
  | some e => exact Phase.andThen_of_some h

section
variable {I : Multiplexer → Option Ending → Prop} {S : Multiplexer → Prop}

/-- **Points of a run.** What holds throughout every turn, and what every turn restores that does
not end the run, holds at all points and between turns. -/
theorem upTo_induction (h : ∀ awake m, S m → Phase.Throughout (· = m) (phases awake m) I S)
    (schedule : List Readiness) (awake : Readiness) (k : Nat) (m : Multiplexer) (hs : S m) :
    I (upTo schedule awake k m).1 (upTo schedule awake k m).2 ∧
      (k = 0 → (upTo schedule awake k m).2 = none → S (upTo schedule awake k m).1) := by
  induction schedule generalizing m with
  | nil =>
    refine ⟨(h awake m hs).1 k m rfl, ?_⟩
    rintro rfl _
    exact hs
  | cons r schedule ih =>
    rw [upTo_cons]
    cases he : (turn r m).2 with
    | none =>
      rw [Phase.andThen_of_none he]
      rw [turn_eq_sequence] at he ⊢
      exact ih _ ((h r m hs).2 m rfl he)
    | some e =>
      rw [Phase.andThen_of_some he]
      constructor
      · have := (h r m hs).1 (phases r m).length m rfl
        rwa [List.take_length, ← turn_eq_sequence] at this
      · intro _ hn
        rw [he] at hn
        cases hn

theorem upTo_keeps (hI : ∀ awake m, ∀ p ∈ phases awake m, Phase.Keeps I p)
    (schedule : List Readiness) (awake : Readiness) (k : Nat) :
    (upTo schedule awake k).Keeps I := by
  intro m hm
  refine (upTo_induction (S := (I · none)) ?_ schedule awake k m hm).1
  intro awake m hm
  refine (Phase.throughout_of_keeps (hI awake m)).mono ?_
  rintro _ rfl
  exact hm

end

/-- A point of a run lies within one turn, before which all turns were gone through. -/
theorem upTo_within {schedule : List Readiness} {awake : Readiness} {k : Nat} {m₁ m : Multiplexer}
    {e : Option Ending} (hu : upTo schedule awake k m₁ = (m, e)) :
    ∃ before now j m₂, before <+: schedule ∧ turns before m₁ = (m₂, none) ∧
      Phase.sequence ((phases now m₂).take j) m₂ = (m, e) := by
  induction schedule generalizing m₁ with
  | nil => exact ⟨[], awake, k, m₁, List.nil_prefix, rfl, hu⟩
  | cons r schedule ih =>
    rw [upTo_cons] at hu
    cases he : (turn r m₁).2 with
    | none =>
      rw [Phase.andThen_of_none he] at hu
      obtain ⟨before, now, j, m₂, hbefore, hm₂, hpoint⟩ := ih hu
      refine ⟨r :: before, now, j, m₂, (List.prefix_cons_inj r).mpr hbefore, ?_, hpoint⟩
      exact (Phase.andThen_of_none he).trans hm₂
    | some ending =>
      rw [Phase.andThen_of_some he, turn_eq_sequence] at hu
      refine ⟨[], r, (phases r m₁).length, m₁, List.nil_prefix, rfl, ?_⟩
      rwa [List.take_length]

theorem turns_concat {before : List Readiness} {now : Readiness} {m₁ m : Multiplexer}
    (h : turns (before ++ [now]) m₁ = (m, none)) :
    ∃ m₂, turns before m₁ = (m₂, none) ∧ turn now m₂ = (m, none) := by
  have hcut : turns (before ++ [now]) = (turns before).andThen (turn now) := by
    rw [turns, List.map_append, List.map_singleton, Phase.sequence_append, Phase.sequence_singleton]
    rfl
  rw [hcut] at h
  cases he : (turns before m₁).2 with
  | none =>
    rw [Phase.andThen_of_none he] at h
    exact ⟨_, Prod.ext rfl he, h⟩
  | some ending =>
    rw [Phase.andThen_of_some he] at h
    rw [h] at he
    cases he

section
variable {m₀ m₁ m : Multiplexer} {e : Option Ending} {waits : List (Except Fault Readiness)}

/-- What a failed call outside the turns adds to a run is its ending. -/
def StoppedBetween (schedule : List Readiness) (m₁ m : Multiplexer) (e : Option Ending) : Prop :=
  turns schedule m₁ = (m, none) ∧ ∃ activity f, e = some (.failed (.fault activity f))

theorem turns_of_rounds (h : Phase.sequence (waits.map round) m₁ = (m, e)) :
    ∃ schedule, schedule <+: waits.filterMap Except.toOption ∧
      (turns schedule m₁ = (m, e) ∨ StoppedBetween schedule m₁ m e) := by
  induction waits generalizing m₁ with
  | nil => exact ⟨[], List.nil_prefix, .inl h⟩
  | cons wait waits ih =>
    rw [List.map_cons, Phase.sequence] at h
    cases hround : (round wait m₁).2 with
    | some ending =>
      rw [Phase.andThen_of_some hround] at h
      cases wait with
      | ok awake =>
        refine ⟨[awake], List.cons_prefix_cons.mpr ⟨rfl, List.nil_prefix⟩, .inl ?_⟩
        exact (congrFun (Phase.sequence_singleton _) m₁).trans h
      | error f =>
        cases h
        refine ⟨[], List.nil_prefix, .inr ⟨rfl, "poll", f, ?_⟩⟩
        unfold round at hround
        simp only at hround
        split at hround
        · cases hround
        · rename_i hf
          exact if_neg hf
    | none =>
      rw [Phase.andThen_of_none hround] at h
      obtain ⟨schedule, hschedule, hends⟩ := ih h
      cases wait with
      | error f => exact ⟨schedule, hschedule, hends⟩
      | ok awake =>
        have hturns : turns (awake :: schedule) m₁ = turns schedule (turn awake m₁).1 :=
          Phase.andThen_of_none hround
        refine ⟨awake :: schedule, List.cons_prefix_cons.mpr ⟨rfl, hschedule⟩, ?_⟩
        unfold StoppedBetween
        rw [hturns]
        exact hends

/-- **A run is the roster and then turns.** Where the child's input cannot be set up, or a wait fails,
it ends in the state that the turns before have left. -/
theorem turns_of_run {opened : Except Fault Unit} (hr : sendRoster m₀ = (m₁, none))
    (h : run opened waits m₀ = (m, e)) :
    ∃ schedule, schedule <+: waits.filterMap Except.toOption ∧
      (turns schedule m₁ = (m, e) ∨ StoppedBetween schedule m₁ m e) := by
  rw [run, Phase.andThen_of_none (congrArg Prod.snd hr), hr] at h
  cases opened with
  | ok _ => exact turns_of_rounds h
  | error f =>
    cases h
    exact ⟨[], List.nil_prefix, .inr ⟨rfl, _, f, rfl⟩⟩

end

/-! ## The start of a run -/

structure Fresh (m : Multiplexer) : Prop where
  links : 0 < m.links.length ∧ m.links.length ≤ Message.maxInterfaces
  untouched : ∀ l ∈ m.links, l.slot = [] ∧ l.sent = #[]
  childInput : m.childInput.data = #[]
  display : m.display.data = #[]
  childBuffer : m.childBuffer = []
  childEnded : m.childEnded = false
  typed : m.typed = []
  inbound : m.inbound = none
  outbound : m.outbound = none

theorem fresh_of_ofLinks {links : List Link} {console : Option Source} {m : Multiplexer}
    (h : ofLinks links console = .ok m) (hl : ∀ l ∈ links, l.slot = [] ∧ l.sent = #[])
    (childInput display : Sink) (childOutput : Source) (hi : childInput.data = #[])
    (hd : display.data = #[]) : Fresh { m with childInput, display, childOutput } := by
  unfold ofLinks at h
  split at h
  · cases h
  · rename_i hne
    split at h
    · cases h
    · rename_i hle
      injection h with h
      subst h
      have hpos : 0 < links.length := by
        refine List.length_pos_iff.mpr fun hnil => hne ?_
        rw [hnil]
        rfl
      exact ⟨⟨hpos, Nat.not_lt.mp hle⟩, hl, hi, hd, rfl, rfl, rfl, rfl, rfl⟩

section
variable {m m' : Multiplexer}

theorem Fresh.slot (h : m.Fresh) (i : Nat) : m.slot i = [] := by
  unfold Multiplexer.slot
  cases hl : m.links[i]? with
  | none => rfl
  | some l => exact (h.untouched l (List.mem_of_getElem? hl)).1

theorem length_roster (m : Multiplexer) : m.roster.payload.length = 6 * m.links.length := by
  unfold roster
  induction m.links with
  | nil => rfl
  | cons l links ih =>
    simp only [List.flatMap_cons, List.length_append, MacAddress.length_toBytes, ih, List.length_cons,
      MacAddress.size]
    omega

theorem Fresh.roster_fits (h : m.Fresh) : m.roster.Fits := by
  have hle := h.links.2
  rw [Message.Fits, length_roster]
  simp only [Message.maxInterfaces, Message.maxPayload, Message.maxSize, Message.headerSize] at hle ⊢
  omega

theorem sendRoster_eq (hr : sendRoster m = (m', none)) : ∃ childInput, m' = { m with childInput } := by
  unfold sendRoster at hr
  split at hr
  · cases hr
  · split at hr <;> cases hr
    exact ⟨_, rfl⟩

/-- The roster has gone out, and nothing else has happened since `m₀`. -/
structure Opened (m₀ m : Multiplexer) : Prop where
  links : m.links = m₀.links
  childInput : m.childInput.data.toList = m₀.roster.toBytes
  childOutput : m.childOutput = m₀.childOutput
  console : m.console = m₀.console
  display : m.display.data = #[]
  childBuffer : m.childBuffer = []
  childEnded : m.childEnded = false
  typed : m.typed = []
  inbound : m.inbound = none
  outbound : m.outbound = none

theorem Fresh.opened (h : m.Fresh) (hr : sendRoster m = (m', none)) : Opened m m' := by
  unfold sendRoster at hr
  rw [Message.encode_of_fits h.roster_fits] at hr
  simp only at hr
  split at hr
  · rename_i childInput hw
    injection hr with hr _
    subst hr
    refine ⟨rfl, ?_, rfl, rfl, h.display, h.childBuffer, h.childEnded, h.typed, h.inbound, h.outbound⟩
    rw [Sink.data_of_writeAll hw, h.childInput]
    rfl
  · cases hr
  · cases hr

end

end EtherBench.Multiplexer
