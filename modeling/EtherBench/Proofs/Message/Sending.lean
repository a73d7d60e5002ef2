import EtherBench.Proofs.Message.Stream
import EtherBench.Proofs.Stream.Transfer
import EtherBench.Tool

/-!
# Sending to a stream that takes everything

Such a stream takes messages that fit whole and in order, and still takes
everything afterwards.
-/

namespace EtherBench

structure Sink.Accepting (s : Sink) : Prop where
  writes : s.writes = []
  flushes : s.flushes = []

namespace Sink
variable {s : Sink}

theorem writeAll_of_nil {s : Sink} (h : s.writes = []) (b : Bytes) :
    s.writeAll b = (.complete, { s with data := s.data ++ b }) := by
  obtain ⟨writes, flushes, data, flushed⟩ := s
  subst h
  unfold writeAll
  cases b with
  | nil => rfl
  | cons x b => rfl

theorem Accepting.send (h : s.Accepting) {m : Message} (hm : m.Fits) :
    s.send m = (.ok (), { s with data := s.data ++ m.toBytes, flushed := s.flushed + 1 }) := by
  obtain ⟨writes, flushes, data, flushed⟩ := s
  obtain ⟨hw, hf⟩ := h
  subst hf
  unfold Sink.send
  simp only [Message.encode_of_fits hm, writeAll_of_nil hw]
  rfl

theorem send_of_large (s : Sink) {m : Message} (hm : ¬ m.Fits) :
    s.send m = (.error (.payloadTooLarge m.payload.length Message.maxPayload), s) := by
  have hlarge : Message.maxPayload < m.payload.length := Nat.not_le.mp hm
  simp only [Sink.send, Message.encode, Message.Header.forPayload, if_pos hlarge]

theorem Accepting.after_send (h : s.Accepting) (m : Message) : (s.send m).2.Accepting := by
  by_cases hm : m.Fits
  · rw [h.send hm]
    exact ⟨h.writes, h.flushes⟩
  · rw [s.send_of_large hm]
    exact h

theorem Accepting.after_sendEach (h : s.Accepting) (ms : List Message) : (s.sendEach ms).2.Accepting := by
  induction ms generalizing s with
  | nil => exact h
  | cons m ms ih =>
    have hm := h.after_send m
    unfold Sink.sendEach
    split
    · rename_i he
      rw [he] at hm
      exact hm
    · rename_i he
      rw [he] at hm
      exact ih hm

/-- **Messages that fit are all sent**, one behind the other. -/
theorem Accepting.sendEach (h : s.Accepting) {ms : List Message} (hms : ∀ m ∈ ms, m.Fits) :
    (s.sendEach ms).1 = .ok () ∧
      (s.sendEach ms).2.data.toList = s.data.toList ++ ms.flatMap Message.toBytes := by
  induction ms generalizing s with
  | nil => exact ⟨rfl, (List.append_nil _).symm⟩
  | cons m ms ih =>
    have hm := hms m (List.mem_cons_self ..)
    have hnext := h.after_send m
    rw [h.send hm] at hnext
    obtain ⟨hok, hdata⟩ := ih hnext fun x hx => hms x (List.mem_cons_of_mem _ hx)
    unfold Sink.sendEach
    rw [h.send hm]
    refine ⟨hok, ?_⟩
    rw [hdata, List.flatMap_cons]
    simp

theorem sendEach_of_head_large (s : Sink) {m : Message} (hm : ¬ m.Fits) (ms : List Message) :
    s.sendEach (m :: ms) = (.error (.payloadTooLarge m.payload.length Message.maxPayload), s) := by
  rw [Sink.sendEach, s.send_of_large hm]

theorem Accepting.sendEach_of_large (h : s.Accepting) {before : List Message} {m : Message}
    (hbefore : ∀ x ∈ before, x.Fits) (hm : ¬ m.Fits) (behind : List Message) :
    (s.sendEach (before ++ m :: behind)).1 =
        .error (.payloadTooLarge m.payload.length Message.maxPayload) ∧
      (s.sendEach (before ++ m :: behind)).2.data.toList =
        s.data.toList ++ before.flatMap Message.toBytes := by
  induction before generalizing s with
  | nil =>
    rw [List.nil_append, s.sendEach_of_head_large hm]
    exact ⟨rfl, (List.append_nil _).symm⟩
  | cons x before ih =>
    rw [List.forall_mem_cons] at hbefore
    have hnext := h.after_send x
    rw [h.send hbefore.1] at hnext
    obtain ⟨hfailed, hdata⟩ := ih hnext hbefore.2
    rw [List.cons_append, Sink.sendEach, h.send hbefore.1]
    refine ⟨hfailed, ?_⟩
    rw [hdata, List.flatMap_cons]
    simp

end Sink

theorem Tool.handler_of_ok {σ : Type} {tool : Tool σ} {e : Event} {s s' : σ} {ms : List Message}
    (h : tool e s = .ok (ms, s')) (out : Sink) :
    tool.handler e (s, out) = ((out.sendEach ms).1, s', (out.sendEach ms).2) := by
  show Tool.answer (tool e s) s out = _
  rw [h]
  rfl

theorem Tool.accepting_of_handler {σ : Type} (tool : Tool σ) (e : Event) {st : σ × Sink}
    (h : st.2.Accepting) : (Tool.handler tool e st).2.2.Accepting := by
  obtain ⟨s, out⟩ := st
  show (Tool.answer (tool e s) s out).2.2.Accepting
  unfold Tool.answer
  split
  · exact h
  · exact Sink.Accepting.after_sendEach h _

end EtherBench
