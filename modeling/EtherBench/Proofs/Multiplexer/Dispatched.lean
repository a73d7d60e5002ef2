import EtherBench.Proofs.Message.CalmStream
import EtherBench.Proofs.Message.RoundTrip
import EtherBench.Proofs.Multiplexer.CommandLines

/-!
# What the child is fed, a dispatcher accepts

Cut at any boundary behind the roster, the child's input is the roster and some
of the messages delivered so far. A dispatcher with as many interfaces as there
are links reads them all: it hands over the address of every link, then the
captured frames and the command lines in the order in which they were delivered.
-/

namespace EtherBench.Multiplexer

section
variable {m₀ m m' m₁ : Multiplexer} {e : Option Ending} {ms : List Message}

def FedKnown (m₀ m : Multiplexer) (e : Option Ending) (ms : List Message) : Prop :=
  FedLines m₀ m e ms ∧ ∀ s ∈ ms, s.kind.toNat ≤ m₀.links.length

theorem Fed.toNat_waiting (h : Fed m₀ m e ms) {job : Inbound} (hj : m.inbound = some job) :
    (m.waiting job.origin).kind.toNat ≤ m₀.links.length := by
  obtain ⟨hh, _⟩ := h.framed.inbound job hj
  cases hjo : job.origin with
  | console stop => exact Nat.zero_le _
  | slot i =>
    rw [hjo] at hh
    have hlt := lt_length_of_slot hh
    have := h.links
    simp only [waiting, UInt16.toNat_ofNat']
    omega

theorem fedKnown_keeps (hN : m₀.links.length ≤ Message.maxInterfaces) (awake : Readiness) (m : Multiplexer) :
    ∀ p ∈ phases awake m, Phase.Keeps (fun m e => ∃ ms, FedKnown m₀ m e ms) p :=
  fedLines_keeps_of hN (fun _ _ _ h hj => h.1.toNat_waiting hj) awake m

theorem Framed.decode_begun (h : m.Framed) (s : Message) (rest : Bytes) :
    Message.decode m.begun ≠ .complete s rest := by
  unfold begun
  cases hj : m.inbound with
  | none => exact nofun
  | some job =>
    obtain ⟨hh, ho⟩ := h.inbound job hj
    obtain ⟨hb, hf⟩ := h.message_eq hh
    intro hd
    have hall := Message.decode_append_of_complete hd ((m.message job.origin).drop job.offset)
    have hwhole := Message.decode_toBytes_append hf []
    rw [List.append_nil, ← hb] at hwhole
    rw [List.take_append_drop, hwhole] at hall
    injection hall with _ hrest
    exact Nat.not_le.mpr ho (List.drop_eq_nil_iff.mp (List.append_eq_nil_iff.mp hrest.symm).2)

theorem Fed.split_written (h : Fed m₀ m e ms) (hroster : m₀.roster.Fits) :
    (Message.split m.childInput.data.toList).1 = m₀.roster :: ms := by
  have hall : ∀ s ∈ m₀.roster :: ms, s.Fits := List.forall_mem_cons.mpr ⟨hroster, h.fits⟩
  have hdata : m.childInput.data.toList = (m₀.roster :: ms).flatMap Message.toBytes ++ m.begun := by
    rw [h.data, List.flatMap_cons]
  rw [hdata, Message.split_flatMap_append hall, Message.split_of_not_complete h.framed.decode_begun,
    List.append_nil]

/-- A front part of the child's input that is whole messages is the roster and the first messages
delivered. -/
theorem Fed.boundary (h : Fed m₀ m e ms) (hroster : m₀.roster.Fits) {p : Bytes} {whole : List Message}
    (hp : p <+: m.childInput.data.toList) (hw : Message.Takes p whole []) (hne : whole ≠ []) :
    ∃ delivered later, ms = delivered ++ later ∧ whole = m₀.roster :: delivered := by
  obtain ⟨q, hq⟩ := hp
  obtain ⟨hfits, rfl⟩ := Message.takes_iff.mp hw
  rw [List.append_nil] at hq
  have hmessages : m₀.roster :: ms = whole ++ (Message.split q).1 := by
    rw [← h.split_written hroster, ← hq, Message.split_flatMap_append hfits]
  cases whole with
  | nil => exact absurd rfl hne
  | cons first delivered =>
    injection hmessages with hfirst hms
    exact ⟨delivered, _, hms, by rw [hfirst]⟩

theorem Fresh.toNat_linkCount (h : m₀.Fresh) : m₀.linkCount.toNat = m₀.links.length := by
  have := h.links.2
  simp only [Message.maxInterfaces, Message.maxPayload, Message.maxSize, Message.headerSize] at this
  rw [linkCount, UInt16.toNat_ofNat']
  omega

theorem Fresh.dispatches (hm : m₀.Fresh) (hms : ∀ s ∈ ms, s.Fits ∧ s.kind.toNat ≤ m₀.links.length)
    {σ : Type} {handler : Handler σ} (htolerant : handler.Tolerant) {source : Source} (hcalm : source.Calm)
    (hs : source.stream = m₀.roster.toBytes ++ ms.flatMap Message.toBytes) (s : σ) :
    (Dispatcher.run handler (.ofSource source m₀.linkCount) s).1 = .ok () ∧
      ∃ d s', Dispatcher.run handler.recorded (.ofSource source m₀.linkCount) (s, []) =
        (.ok (), d, s',
          (Event.rosterFrom 1 (m₀.links.map (·.address)) ++ ms.map Message.event).map (·, .ok ())) := by
  have hroster : m₀.roster = ⟨Message.control, (m₀.links.map (·.address)).flatMap MacAddress.toBytes⟩ := by
    rw [List.flatMap_map]
    rfl
  have hknown : ∀ s ∈ ms, s.Fits ∧ s.kind ≤ m₀.linkCount := by
    intro s hs
    rw [UInt16.le_iff_toNat_le, hm.toNat_linkCount]
    exact hms s hs
  have hfits := hm.roster_fits
  rw [hroster] at hs hfits
  obtain ⟨d, s', hrun⟩ := Dispatcher.run_of_roster htolerant hcalm hfits
    (Nat.le_of_eq (by rw [List.length_map, hm.toNat_linkCount])) hknown hs s
  -- the handler that also writes down its calls answers as the one that does not
  obtain ⟨_, _, hplain⟩ := Dispatcher.run_recorded handler (.ofSource source m₀.linkCount) s []
  refine ⟨?_, d, s', hrun⟩
  rw [hrun] at hplain
  exact (congrArg Prod.fst hplain).symm

/-- **A dispatcher accepts whatever the child is fed.** At every point of every run, and cut at any
boundary behind the roster, the child's input is read to its end, in whatever pieces it comes: a
handler that fails at nothing sees the address of every link, then each frame and each command line
that was delivered before the cut, in that order, and nothing else. -/
theorem fed_child_is_dispatched {schedule : List Readiness} {awake : Readiness} {k : Nat} (hm : m₀.Fresh)
    (hr : sendRoster m₀ = (m₁, none)) (hu : upTo schedule awake k m₁ = (m, e)) :
    ∃ ms text,
      m.childInput.data.toList = m₀.roster.toBytes ++ ms.flatMap Message.toBytes ++ m.begun ∧
      (∀ i (l₀ l : Link), m₀.links[i]? = some l₀ → m.links[i]? = some l →
        l₀.Took l e (Message.payloadsOf (UInt16.ofNat (i + 1)) ms ++ l.held)) ∧
      m₀.unread = text ++ m.unread ∧
      (∀ later, Message.payloadsOf Message.control ms <+: segments (text ++ later)) ∧
      ∀ p whole, p <+: m.childInput.data.toList → Message.Takes p whole [] → whole ≠ [] →
        ∃ delivered, delivered <+: ms ∧ p = m₀.roster.toBytes ++ delivered.flatMap Message.toBytes ∧
          ∀ {σ : Type} (handler : Handler σ) (source : Source) (s : σ), handler.Tolerant → source.Calm →
            source.stream = p →
            (Dispatcher.run handler (.ofSource source m₀.linkCount) s).1 = .ok () ∧
            ∃ d s', Dispatcher.run handler.recorded (.ofSource source m₀.linkCount) (s, []) =
              (.ok (), d, s',
                (Event.rosterFrom 1 (m₀.links.map (·.address)) ++ delivered.map Message.event).map (·, .ok ())) := by
  have h := upTo_keeps (fedKnown_keeps hm.links.2) schedule awake k m₁
    ⟨[], ⟨fed_of_fresh hm hr, lined_of_fresh hm hr⟩, by simp⟩
  rw [hu] at h
  obtain ⟨ms, ⟨hf, hl⟩, hk⟩ := h
  refine ⟨ms, _, hf.data, hf.frames, hl.text, ?_, ?_⟩
  · intro later
    rw [List.append_assoc, segments_flatten_append hl.segments]
    exact List.prefix_append ..
  · intro p whole hp hw hne
    obtain ⟨delivered, later, rfl, rfl⟩ := hf.boundary hm.roster_fits hp hw hne
    have hp : p = m₀.roster.toBytes ++ delivered.flatMap Message.toBytes := by
      rw [(Message.takes_iff.mp hw).2, List.append_nil, List.flatMap_cons]
    refine ⟨delivered, List.prefix_append .., hp, ?_⟩
    intro σ handler source s htolerant hcalm hs
    have hms : ∀ s ∈ delivered, s.Fits ∧ s.kind.toNat ≤ m₀.links.length := by
      intro s hs
      have hs := List.mem_append_left later hs
      exact ⟨hf.fits s hs, hk s hs⟩
    rw [hp] at hs
    exact hm.dispatches hms htolerant hcalm hs s

def beforeFirstLine : List Message :=
  [⟨Message.control, List.replicate 6 2⟩, ⟨1, List.replicate 14 7⟩]

def inPieces : Source :=
  ⟨[.data ((beforeFirstLine.flatMap Message.toBytes).take 13), .fault ⟨.interrupted, "interrupted"⟩,
    .data ((beforeFirstLine.flatMap Message.toBytes).drop 13)]⟩

theorem typist_is_dispatched :
    typist.Fresh ∧ sendRoster typist = ((sendRoster typist).1, none) ∧ ∃ m,
      upTo (List.replicate 4 consoleReady) consoleReady 0 (sendRoster typist).1 = (m, none) ∧
      beforeFirstLine.flatMap Message.toBytes <+: m.childInput.data.toList ∧
      Message.Takes (beforeFirstLine.flatMap Message.toBytes) beforeFirstLine [] ∧ inPieces.Calm ∧
      (Dispatcher.run (fun _ n => (.ok (), n + 1)) (.ofSource inPieces typist.linkCount) 0).1 = .ok () := by
  have hm := fresh_typist
  have hr : sendRoster typist = ((sendRoster typist).1, none) := Prod.ext rfl (by decide)
  have hu : upTo (List.replicate 4 consoleReady) consoleReady 0 (sendRoster typist).1 =
      ((upTo (List.replicate 4 consoleReady) consoleReady 0 (sendRoster typist).1).1, none) :=
    Prod.ext rfl (by decide +kernel)
  have hp : beforeFirstLine.flatMap Message.toBytes <+:
      (upTo (List.replicate 4 consoleReady) consoleReady 0 (sendRoster typist).1).1.childInput.data.toList :=
    ⟨[0, 7], by decide +kernel⟩
  have hw : Message.Takes (beforeFirstLine.flatMap Message.toBytes) beforeFirstLine [] :=
    .next rfl (.next rfl (.none _))
  have hcalm : inPieces.Calm := by
    intro f hf
    simp only [inPieces, List.mem_cons, List.not_mem_nil, or_false, reduceCtorEq, false_or,
      ReadEvent.fault.injEq] at hf
    rw [hf]
    rfl
  obtain ⟨_, _, _, _, _, _, hcut⟩ := fed_child_is_dispatched hm hr hu
  obtain ⟨_, _, _, hdispatched⟩ := hcut _ _ hp hw (by decide)
  exact ⟨hm, hr, _, hu, hp, hw, hcalm, (hdispatched _ inPieces 0 (fun _ _ => rfl) hcalm (by decide)).1⟩

end

end EtherBench.Multiplexer
