import EtherBench.Proofs.Stream.Calls
import EtherBench.Proofs.Switch.Copies
import EtherBench.Proofs.Tool.Output

/-!
# A stream that fails only cuts the output short

What a stream takes of the answers to one event is a front part of what a stream
takes that accepts everything, and nothing is tried after the first failure. The
tool itself does not come to know of it.
-/

namespace EtherBench

/-- What a stream that accepts everything takes of some messages: those in front of the first that is
too long. -/
def Message.accepted (ms : List Message) : Bytes := (ms.takeWhile (·.Fits)).flatMap Message.toBytes

theorem Message.accepted_of_fits {m : Message} (hm : m.Fits) (ms : List Message) :
    accepted (m :: ms) = m.toBytes ++ accepted ms := by
  simp [accepted, hm]

theorem Message.accepted_of_large {m : Message} (hm : ¬ m.Fits) (ms : List Message) :
    accepted (m :: ms) = [] := by
  simp [accepted, hm]

namespace Sink

section
variable {s t : Sink} {m : Message} {ms : List Message} {e : MessageError}

theorem Accepting.data_of_sendEach (h : s.Accepting) (ms : List Message) :
    (s.sendEach ms).2.data.toList = s.data.toList ++ Message.accepted ms := by
  induction ms generalizing s with
  | nil => exact (List.append_nil _).symm
  | cons m ms ih =>
    by_cases hm : m.Fits
    · have hnext := h.after_send m
      rw [h.send hm] at hnext
      rw [Sink.sendEach, h.send hm, Message.accepted_of_fits hm]
      simp [ih hnext]
    · rw [s.sendEach_of_head_large hm, Message.accepted_of_large hm]
      exact (List.append_nil _).symm

theorem exists_part_of_send (s : Sink) (hm : m.Fits) : ∃ part, part <+: m.toBytes ∧
    (s.send m).2.data.toList = s.data.toList ++ part ∧ ((s.send m).1 = .ok () → part = m.toBytes) := by
  obtain ⟨part, hpart, hdata, _⟩ := s.exists_part_of_writeAll m.toBytes
  unfold Sink.send
  rw [Message.encode_of_fits hm]
  simp only
  cases hw : s.writeAll m.toBytes with
  | mk outcome t =>
    rw [hw] at hdata
    cases outcome with
    | refused => exact ⟨part, hpart, hdata, by simp⟩
    | failed f => exact ⟨part, hpart, hdata, by simp⟩
    | complete =>
      have hflush := t.flushMessages_same.1
      refine ⟨m.toBytes, List.prefix_refl _, ?_, fun _ => rfl⟩
      rw [hflush]
      exact data_of_writeAll hw

theorem exists_part_of_sendEach (s : Sink) (ms : List Message) : ∃ part, part <+: Message.accepted ms ∧
    (s.sendEach ms).2.data.toList = s.data.toList ++ part ∧
    ((s.sendEach ms).1 = .ok () → part = Message.accepted ms) := by
  induction ms generalizing s with
  | nil => exact ⟨[], List.nil_prefix, (List.append_nil _).symm, fun _ => rfl⟩
  | cons m ms ih =>
    by_cases hm : m.Fits
    · obtain ⟨part, hpart, hdata, hok⟩ := s.exists_part_of_send hm
      rw [Message.accepted_of_fits hm, Sink.sendEach]
      cases hs : s.send m with
      | mk result t =>
        rw [hs] at hdata hok
        cases result with
        | error e => exact ⟨part, hpart.trans (List.prefix_append _ _), hdata, by simp⟩
        | ok _ =>
          obtain rfl := hok rfl
          obtain ⟨part', hpart', hdata', hok'⟩ := ih t
          refine ⟨m.toBytes ++ part', (List.prefix_append_right_inj _).mpr hpart', ?_, ?_⟩
          · rw [hdata', hdata, List.append_assoc]
          · exact fun h => congrArg _ (hok' h)
    · -- refused before anything is written, by every stream
      rw [s.sendEach_of_head_large hm]
      exact ⟨[], List.nil_prefix, (List.append_nil _).symm, by simp⟩

theorem exists_of_sendEach_error (h : s.sendEach ms = (.error e, t)) : ∃ before m behind mid,
    ms = before ++ m :: behind ∧ s.sendEach before = (.ok (), mid) ∧ mid.send m = (.error e, t) := by
  induction ms generalizing s with
  | nil => cases h
  | cons m ms ih =>
    rw [Sink.sendEach] at h
    cases hs : s.send m with
    | mk result u =>
      rw [hs] at h
      cases result with
      | error e' =>
        cases h
        exact ⟨[], m, ms, s, rfl, rfl, hs⟩
      | ok _ =>
        obtain ⟨before, m', behind, mid, rfl, hbefore, hfails⟩ := ih h
        refine ⟨m :: before, m', behind, mid, rfl, ?_, hfails⟩
        rw [Sink.sendEach, hs]
        exact hbefore

end

end Sink

namespace Tool

/-- How a call that writes to `out` compares with the same call on `ideal`. -/
structure CutShort {σ : Type} (call : Sink → Except MessageError Unit × σ × Sink) (out ideal : Sink) :
    Prop where
  /-- The tool is left the same. -/
  state : (call out).2.1 = (call ideal).2.1
  /-- What is written is a front part, and everything if nothing fails. -/
  output : ∃ part whole, part <+: whole ∧ (call out).2.2.data.toList = out.data.toList ++ part ∧
    (call ideal).2.2.data.toList = ideal.data.toList ++ whole ∧ ((call out).1 = .ok () → part = whole)
  /-- A failure is that of the event, or of the first message that fails, behind which nothing is sent. -/
  failure : ∀ e, (call out).1 = .error e →
    (call out).2.2 = out ∧ (call ideal).1 = .error e ∧ (call ideal).2.2 = ideal ∨
    ∃ before m behind mid, out.sendEach before = (.ok (), mid) ∧ mid.send m = (.error e, (call out).2.2) ∧
      ((call ideal).1, (call ideal).2.2) = ideal.sendEach (before ++ m :: behind)
  /-- No write and no flush is tried behind one that fails. -/
  calls : out.StopsAtFailure (call out).1 (call out).2.2

section
variable {σ : Type} {out ideal : Sink}

theorem cutShort_answer (h : ideal.Accepting) (reaction : Except MessageError (List Message × σ)) (s : σ) :
    CutShort (answer reaction s) out ideal := by
  cases reaction with
  | error e =>
    refine ⟨rfl, ⟨[], [], List.prefix_refl _, ?_, ?_, fun _ => rfl⟩, ?_, ⟨out, .refl, .rejected e⟩⟩
    · exact (List.append_nil _).symm
    · exact (List.append_nil _).symm
    · exact fun e' he => .inl ⟨rfl, he, rfl⟩
  | ok reaction =>
    obtain ⟨ms, s'⟩ := reaction
    obtain ⟨part, hpart, hdata, hok⟩ := out.exists_part_of_sendEach ms
    refine ⟨rfl, ⟨part, _, hpart, hdata, h.data_of_sendEach ms, hok⟩, ?_, out.calls_of_sendEach ms⟩
    intro e he
    have hsent : out.sendEach ms = (.error e, (out.sendEach ms).2) := Prod.ext he rfl
    obtain ⟨before, m, behind, mid, rfl, hbefore, hfails⟩ := Sink.exists_of_sendEach_error hsent
    exact .inr ⟨before, m, behind, mid, hbefore, hfails, rfl⟩

/-- **A failing stream only cuts the output short**, whatever it reports to writes and flushes. This is
so for every event that a switch or a hub is told of, and for every text that a switch is given as a
command, in whatever state they are. -/
theorem failing_stream_cuts_output_short (out : Sink) (h : ideal.Accepting) :
    (∀ (s : Switch) e, CutShort (fun o => handler Switch.react e (s, o)) out ideal) ∧
    (∀ (s : Switch) text, CutShort (fun o => answer (.ok (s.command text, s)) s o) out ideal) ∧
    ∀ (hub : Hub) e, CutShort (fun o => handler Hub.react e (hub, o)) out ideal := by
  refine ⟨?_, ?_, ?_⟩
  · exact fun s e => cutShort_answer h (Switch.react e s) s
  · exact fun s text => cutShort_answer h (.ok (s.command text, s)) s
  · exact fun hub e => cutShort_answer h (Hub.react e hub) hub

/-- A stream that takes one message, five octets of the next, and then no more. -/
def faltering : Sink :=
  { writes := [.accept 18, .accept 5, .fault ⟨.interrupted, "interrupted"⟩, .accept 0] }

def hail : Event := .frame 1 (Switch.greet .broadcast (Switch.station 1))

theorem faltering_stream_cuts_hail_short :
    ({} : Sink).Accepting ∧
      (handler Switch.react hail (Switch.mixed, faltering)).1 = .error .connectionClosed ∧
      (handler Switch.react hail (Switch.mixed, faltering)).2.2.data.size = 23 ∧
      (handler Switch.react hail (Switch.mixed, {})).2.2.data.size = 58 ∧
      CutShort (fun o => handler Switch.react hail (Switch.mixed, o)) faltering {} := by
  have ho : ({} : Sink).Accepting := ⟨rfl, rfl⟩
  exact ⟨ho, rfl, rfl, rfl, (failing_stream_cuts_output_short faltering ho).1 Switch.mixed hail⟩

end

end Tool

end EtherBench
