import EtherBench.Command.Program
import EtherBench.Proofs.Switch.Isolation
import EtherBench.Proofs.Switch.Setup
import EtherBench.Proofs.Tool.Session

/-!
# What the exit of the switch says

Arguments that describe no interfaces are a mistake in usage, and nothing has been
read by then. Otherwise the exit tells whether the input was messages that the
switch could answer to its end. If it was not, what has been put out is whole.
-/

namespace EtherBench

namespace Switch

variable {s : Switch}

theorem react_of_admitted {e : Event} (ha : s.Admits e) : ∃ ms s', react e s = .ok (ms, s') := by
  cases e with
  | control text => exact ⟨_, s, rfl⟩
  | roster i address =>
    obtain ⟨s', he, _⟩ := enroll_of_admitted address ha.1 ha.2
    refine ⟨[], s', ?_⟩
    show (s.enroll i address).map ([], ·) = _
    rw [he]
    rfl
  | frame i b =>
    cases hl : (Event.frame i b).lesson with
    | none => exact ⟨_, _, forward_of_lesson_none hl ha.1 ha.2⟩
    | some e =>
      obtain ⟨dst, hd⟩ := exists_destination (lesson_frame_eq_some_iff.mp hl).1
      exact ⟨_, _, forward_of_lesson hl hd ha.1 ha.2⟩

theorem admits_of_known {e : Event} (h : e.Known s.count) : s.Admits e := by
  have hi : ∀ i, e.interface? = some i → i ≠ 0 ∧ i.toNat ≤ s.ports.length := by
    intro i hi
    obtain ⟨hpos, hle⟩ := h i hi
    rw [UInt16.le_iff_toNat_le] at hpos hle
    refine ⟨?_, s.toNat_count ▸ hle⟩
    rintro rfl
    exact absurd hpos (by decide)
  cases e with
  | control text => trivial
  | roster i address => exact hi i rfl
  | frame i b => exact hi i rfl

theorem serves (count : UInt16) : Tool.Serves react (fun s => s.count = count) count := by
  rintro e s rfl he
  obtain ⟨ms, s', hr⟩ := react_of_admitted (admits_of_known he)
  have hlen : s'.ports.length = s.ports.length := length_eq_of_map_eq (interfaces_of_react hr)
  refine ⟨ms, s', hr, ?_⟩
  show UInt16.ofNat s'.ports.length = UInt16.ofNat s.ports.length
  rw [hlen]

end Switch

namespace Command

theorem code_of_violation (context : String) {e : MessageError} (h : e.IsViolation) :
    (Failure.ofMessage context e).code = Exit.invalidData := by
  cases e with
  | fault => exact h.elim
  | connectionClosed => exact h.elim
  | _ => rfl

theorem parse?_of_switch {specs : List String} (h : specs ≠ []) :
    Invocation.parse? ("switch" :: "--" :: specs) = some { task := .switch specs } := by
  have hverb : Word.read "switch" = .plain := by decide
  have hdashes : Word.read "--" = .separator := by decide
  obtain ⟨spec, specs, rfl⟩ := List.exists_cons_of_ne_nil h
  simp only [Invocation.parse?, Reading.scan, hverb]
  simp only [bind, Except.bind, Invocation.ofWords, Verb.ofWord?, Verb.level, Reading.scan, hdashes]
  rfl

section
variable {args specs : List String} {format : Option Format} {input : Source}

theorem run_of_rejected (hp : Invocation.parse? args = some ⟨.switch specs, format⟩) {e : InterfaceError}
    (he : Interface.parseAll specs = .error e) :
    run args input = .ofFailure [] (.ofInterface "invalid interface" e) := by
  simp only [run, start, hp, startSwitch, he, Except.bind]

theorem run_of_accepted (hp : Invocation.parse? args = some ⟨.switch specs, format⟩) {s : Switch}
    (hs : (Interface.parseAll specs).bind Switch.ofInterfaces = .ok s) (hcalm : input.Calm) :
    ∃ result out ms bad sent,
      Tool.Concludes Switch.react s.count false s input.stream result {} out ms bad sent ∧
      (run args input).output = out.data.toList ∧
      (result = .ok () ∧ (run args input).code = Exit.success ∧ bad = [] ∨
        result ≠ .ok () ∧ (run args input).code = Exit.invalidData ∧
          Tool.StopsAt Switch.react s.count false ms s bad sent) := by
  have haccepting : ({} : Sink).Accepting := ⟨rfl, rfl⟩
  obtain ⟨ms, bad, sent, hc⟩ :=
    (Switch.serves s.count).run (s := s) rfl haccepting { source := input } hcalm false
  refine ⟨_, _, ms, bad, sent, hc, ?_⟩
  have hends := hc.ends
  simp only [run, start, hp, startSwitch, hs, Dispatcher.ofSource]
  generalize Dispatcher.run (Tool.handler Switch.react) _ (s, ({} : Sink)) = done at hends ⊢
  obtain ⟨result, d, s', out⟩ := done
  rcases hends with ⟨hok, hbad, _⟩ | ⟨⟨e, he, hviolation⟩, hstop⟩
  · simp only at hok
    subst hok
    exact ⟨rfl, .inl ⟨rfl, rfl, hbad⟩⟩
  · simp only at he
    subst he
    exact ⟨rfl, .inr ⟨fun h => (by cases h), code_of_violation _ hviolation, hstop⟩⟩

/-- **The exit of the switch tells what became of its input**, whatever the arguments and the input are.
It is a mistake in usage if the arguments describe no interfaces, a success if the input is messages that
can all be answered, and invalid data if not; then all is put out that answers the messages in front of
the first at fault, and behind it come only whole answers to that one. -/
theorem switch_exit_tells_input (hp : Invocation.parse? args = some ⟨.switch specs, format⟩) (hcalm : input.Calm) :
    ((run args input).code = Exit.usage ↔ ∃ e, Interface.parseAll specs = .error e) ∧
    ((run args input).code = Exit.usage → (run args input).output = []) ∧
    (run args input).code ∉ [Exit.failure, Exit.linkError, Exit.permissionDenied, Exit.internal] ∧
    ∀ interfaces, Interface.parseAll specs = .ok interfaces → ∃ s,
      Switch.ofInterfaces interfaces = .ok s ∧ s.count.toNat = specs.length ∧
      ((run args input).code = Exit.success ↔
        ∃ ms, input.stream = ms.flatMap Message.toBytes ∧ Tool.Accepts Switch.react s.count false ms s) ∧
      (∀ ms, input.stream = ms.flatMap Message.toBytes → Tool.Accepts Switch.react s.count false ms s →
        (run args input).output =
          (Tool.answers Switch.react s.count false ms s).flatMap Message.toBytes) ∧
      ((run args input).code ≠ Exit.success → (run args input).code = Exit.invalidData ∧
        ∃ ms bad sent, input.stream = ms.flatMap Message.toBytes ++ bad ∧
          Tool.Accepts Switch.react s.count false ms s ∧
          Tool.StopsAt Switch.react s.count false ms s bad sent ∧
          (run args input).output =
            (Tool.answers Switch.react s.count false ms s ++ sent).flatMap Message.toBytes) := by
  cases hall : Interface.parseAll specs with
  | error e =>
    have hrun : run args input = _ := run_of_rejected hp hall
    rw [hrun]
    have hcode : Exit.usage ∉ [Exit.failure, Exit.linkError, Exit.permissionDenied, Exit.internal] := by decide
    exact ⟨⟨fun _ => ⟨e, rfl⟩, fun _ => rfl⟩, fun _ => rfl, hcode, nofun⟩
  | ok interfaces =>
    obtain ⟨s, hs, hcount⟩ := Switch.ofInterfaces_of_parseAll hall
    obtain ⟨result, out, ms, bad, sent, hc, hout, hends⟩ :=
      run_of_accepted (s := s) hp (by rw [hall]; exact hs) hcalm
    have hanswers : (run args input).output =
        (Tool.answers Switch.react s.count false ms s ++ sent).flatMap Message.toBytes := by
      rw [hout, hc.output]
      rfl
    have hcodes : (run args input).code = Exit.success ∨ (run args input).code = Exit.invalidData :=
      hends.imp (fun h => h.2.1) fun h => h.2.1
    have hwhole : ∀ all, input.stream = all.flatMap Message.toBytes →
        Tool.Accepts Switch.react s.count false all s → result = .ok () ∧ ms = all ∧ sent = [] :=
      fun _ hb ha => (Switch.serves s.count).concludes_of_accepts rfl hc hb ha
    refine ⟨⟨fun h => ?_, nofun⟩, fun h => ?_, ?_, ?_⟩
    · rcases hcodes with hcode | hcode <;> rw [hcode] at h <;> cases h
    · rcases hcodes with hcode | hcode <;> rw [hcode] at h <;> cases h
    · rcases hcodes with hcode | hcode <;> rw [hcode] <;> decide
    · rintro _ ⟨⟩
      refine ⟨s, hs, hcount, ⟨fun h => ?_, fun ⟨all, hb, ha⟩ => ?_⟩, fun all hb ha => ?_, fun h => ?_⟩
      · rcases hends with ⟨_, _, hbad⟩ | ⟨_, hcode, _⟩
        · exact ⟨ms, by rw [hc.input, hbad, List.append_nil], hc.accepts⟩
        · rw [hcode] at h
          cases h
      · obtain ⟨hok, _⟩ := hwhole all hb ha
        rcases hends with ⟨_, hcode, _⟩ | ⟨hne, _⟩
        · exact hcode
        · exact absurd hok hne
      · obtain ⟨_, rfl, rfl⟩ := hwhole all hb ha
        rw [hanswers, List.append_nil]
      · rcases hends with ⟨_, hcode, _⟩ | ⟨_, hcode, hstop⟩
        · exact absurd hcode h
        · exact ⟨hcode, ms, bad, sent, hc.input, hc.accepts, hstop, hanswers⟩

def stranger : Source :=
  let b := [⟨Message.control, (Switch.station 1).toBytes ++ (Switch.station 2).toBytes⟩,
    ⟨1, Switch.greet .broadcast (Switch.station 1)⟩, ⟨3, [7]⟩].flatMap Message.toBytes
  ⟨[.data (b.take 21), .fault ⟨.interrupted, "interrupted"⟩, .data (b.drop 21)]⟩

theorem stranger_is_invalid :
    Invocation.parse? ["switch", "--", "left", "right"] = some ⟨.switch ["left", "right"], none⟩ ∧
      stranger.Calm ∧ Interface.parseAll ["left", "right"] = .ok [.plain 1 "left", .plain 2 "right"] ∧
      (run ["switch", "--", "left", "right"] stranger).code = Exit.invalidData ∧
      (run ["switch", "--", "left", "right"] stranger).output =
        Message.toBytes ⟨2, Switch.greet .broadcast (Switch.station 1)⟩ ∧
      ∃ s ms bad sent, stranger.stream = ms.flatMap Message.toBytes ++ bad ∧
        Tool.Accepts Switch.react s.count false ms s ∧
        Tool.StopsAt Switch.react s.count false ms s bad sent := by
  have hp : Invocation.parse? ["switch", "--", "left", "right"] = some ⟨.switch ["left", "right"], none⟩ :=
    parse?_of_switch (by decide)
  have hcalm : stranger.Calm := by
    intro f hf
    simp only [stranger, List.mem_cons, List.not_mem_nil, or_false, reduceCtorEq, false_or,
      ReadEvent.fault.injEq] at hf
    rw [hf]
    rfl
  have hall : Interface.parseAll ["left", "right"] = .ok [.plain 1 "left", .plain 2 "right"] := rfl
  have hcode : (run ["switch", "--", "left", "right"] stranger).code = Exit.invalidData := by decide +kernel
  have hout : (run ["switch", "--", "left", "right"] stranger).output =
      Message.toBytes ⟨2, Switch.greet .broadcast (Switch.station 1)⟩ := by decide +kernel
  obtain ⟨_, _, _, htells⟩ := switch_exit_tells_input hp hcalm
  obtain ⟨s, _, _, _, _, hinvalid⟩ := htells _ hall
  obtain ⟨_, ms, bad, sent, hinput, haccepts, hstop, _⟩ := hinvalid (by rw [hcode]; decide)
  exact ⟨hp, hcalm, hall, hcode, hout, s, ms, bad, sent, hinput, haccepts, hstop⟩

end

end Command

end EtherBench
