import EtherBench.Message.Writer
import EtherBench.Proofs.Stream.Transfer
import Mathlib.Logic.Relation

/-!
# The calls behind a message

A message goes out by writes and flushes of the stream. Each of them is made
only if none before it has failed.
-/

namespace EtherBench

namespace Sink

/-- One call after which more may follow: some octets are taken, a flush is done, or the call is
interrupted. -/
inductive Served : Sink → Sink → Prop
  | wrote {s t : Sink} {b : Bytes} {n : Nat} (h : s.write b = (.ok (n + 1), t)) : Served s t
  | flushed {s t : Sink} (h : s.flushOnce = (.ok (), t)) : Served s t
  | interrupted {s t : Sink} {b : Bytes} {f : Fault} (h : s.write b = (.error f, t))
      (hf : f.isInterruption) : Served s t
  | flushInterrupted {s t : Sink} {f : Fault} (h : s.flushOnce = (.error f, t))
      (hf : f.isInterruption) : Served s t

/-- One call that fails: none of some octets are taken, or another error is reported. -/
inductive Failed : Sink → Sink → Prop
  | refused {s t : Sink} {b : Bytes} (hb : b ≠ []) (h : s.write b = (.ok 0, t)) : Failed s t
  | write {s t : Sink} {b : Bytes} {f : Fault} (h : s.write b = (.error f, t))
      (hf : ¬ f.isInterruption) : Failed s t
  | flush {s t : Sink} {f : Fault} (h : s.flushOnce = (.error f, t)) (hf : ¬ f.isInterruption) :
      Failed s t

def ServedAll : Sink → Sink → Prop := Relation.ReflTransGen Served

/-- How calls go on from a stream that has served all before: they are over, or one more fails, or an
error comes without a call. -/
inductive Stops (s : Sink) : Except MessageError Unit → Sink → Prop
  | done : Stops s (.ok ()) s
  | failed {t : Sink} (e : MessageError) (h : Failed s t) : Stops s (.error e) t
  | rejected (e : MessageError) : Stops s (.error e) s

/-- Everything is served up to the first call that fails, and nothing is called after it. -/
def StopsAtFailure (s : Sink) (r : Except MessageError Unit) (t : Sink) : Prop :=
  ∃ mid, s.ServedAll mid ∧ mid.Stops r t

section
variable {s t u : Sink} {r : Except MessageError Unit} {e : MessageError}

theorem StopsAtFailure.served (h : s.StopsAtFailure (.ok ()) t) : s.ServedAll t := by
  obtain ⟨mid, hserved, hstops⟩ := h
  cases hstops
  exact hserved

theorem StopsAtFailure.after (hs : s.ServedAll t) (h : t.StopsAtFailure r u) : s.StopsAtFailure r u := by
  obtain ⟨mid, hserved, hstops⟩ := h
  exact ⟨mid, hs.trans hserved, hstops⟩

theorem append_append (data : Array UInt8) (b c : Bytes) : data ++ b ++ c = data ++ (b ++ c) := by
  apply Array.toList_inj.mp
  simp

theorem calls_of_make (ws : List WriteEvent) (b : Bytes) (fs : List FlushEvent) (data : Array UInt8)
    (n : Nat) :
    (Offer.make ws b).outcome = .complete ∧
        ServedAll ⟨ws, fs, data, n⟩ ⟨(Offer.make ws b).writes, fs, data ++ (Offer.make ws b).taken, n⟩ ∨
      (Offer.make ws b).outcome ≠ .complete ∧ ∃ mid, ServedAll ⟨ws, fs, data, n⟩ mid ∧
        Failed mid ⟨(Offer.make ws b).writes, fs, data ++ (Offer.make ws b).taken, n⟩ := by
  -- the induction is on the outcomes that are still to come; what has been taken is in the data
  fun_induction Offer.make ws b generalizing data with
  | case1 ws =>
    refine .inl ⟨rfl, ?_⟩
    rw [Array.appendList_nil]
    exact .refl
  | case2 b hb =>
    obtain ⟨k, hk⟩ := Nat.exists_eq_succ_of_ne_zero (mt List.length_eq_zero_iff.mp hb)
    refine .inl ⟨rfl, .single (.wrote (b := b) (n := k) ?_)⟩
    rw [write, hk]
  | case3 ws b hb =>
    have hrefused : Delivery.refused ≠ .complete := by decide
    refine .inr ⟨hrefused, _, .refl, .refused (b := b) hb ?_⟩
    rw [write, Nat.zero_min, List.take_zero]
  | case4 k ws b hb later ih =>
    have hwrite : Served ⟨.accept (k + 1) :: ws, fs, data, n⟩ ⟨ws, fs, data ++ b.take (k + 1), n⟩ := by
      have hlen := List.length_pos_iff.mpr hb
      obtain ⟨j, hj⟩ := Nat.exists_eq_succ_of_ne_zero (n := min (k + 1) b.length) (by omega)
      refine .wrote (b := b) (n := j) ?_
      rw [write, hj]
    have ih := ih (data ++ b.take (k + 1))
    rw [append_append] at ih
    rcases ih with ⟨hc, hs⟩ | ⟨hc, mid, hs, hf⟩
    · exact .inl ⟨hc, .head hwrite hs⟩
    · exact .inr ⟨hc, mid, .head hwrite hs, hf⟩
  | case5 f ws b hb hi ih =>
    have hwrite : Served ⟨.fault f :: ws, fs, data, n⟩ ⟨ws, fs, data, n⟩ := .interrupted (b := b) rfl hi
    rcases ih data with ⟨hc, hs⟩ | ⟨hc, mid, hs, hf⟩
    · exact .inl ⟨hc, .head hwrite hs⟩
    · exact .inr ⟨hc, mid, .head hwrite hs, hf⟩
  | case6 f ws b hb hi =>
    have hfailed : Delivery.failed f ≠ .complete := by simp
    refine .inr ⟨hfailed, _, .refl, ?_⟩
    rw [Array.appendList_nil]
    exact .write (b := b) rfl hi

theorem calls_of_writeAll (s : Sink) (b : Bytes) :
    (s.writeAll b).1 = .complete ∧ s.ServedAll (s.writeAll b).2 ∨
      (s.writeAll b).1 ≠ .complete ∧ ∃ mid, s.ServedAll mid ∧ Failed mid (s.writeAll b).2 := by
  obtain ⟨ws, fs, data, n⟩ := s
  exact calls_of_make ws b fs data n

theorem calls_of_settle (ws : List WriteEvent) (fs : List FlushEvent) (data : Array UInt8) (n : Nat) :
    ((flush.settle fs).1 = none ∧
        ServedAll ⟨ws, fs, data, n⟩ ⟨ws, (flush.settle fs).2, data, n + 1⟩) ∨
      ∃ f mid, (flush.settle fs).1 = some f ∧ ServedAll ⟨ws, fs, data, n⟩ mid ∧
        Failed mid ⟨ws, (flush.settle fs).2, data, n⟩ := by
  fun_induction flush.settle fs with
  | case1 => exact .inl ⟨rfl, .single (.flushed rfl)⟩
  | case2 fs => exact .inl ⟨rfl, .single (.flushed rfl)⟩
  | case3 f fs hi ih =>
    have hflush : Served ⟨ws, .fault f :: fs, data, n⟩ ⟨ws, fs, data, n⟩ := .flushInterrupted rfl hi
    rcases ih with ⟨hnone, hs⟩ | ⟨g, mid, hsome, hs, hf⟩
    · exact .inl ⟨hnone, .head hflush hs⟩
    · exact .inr ⟨g, mid, hsome, .head hflush hs, hf⟩
  | case4 f fs hi => exact .inr ⟨f, _, rfl, .refl, .flush rfl hi⟩

theorem calls_of_flushMessages (s : Sink) :
    s.StopsAtFailure s.flushMessages.1 s.flushMessages.2 := by
  obtain ⟨ws, fs, data, n⟩ := s
  unfold flushMessages flush
  have hcalls := calls_of_settle ws fs data n
  simp only
  generalize flush.settle fs = settled at hcalls ⊢
  obtain ⟨outcome, rest⟩ := settled
  rcases hcalls with ⟨hnone, hs⟩ | ⟨f, mid, hsome, hs, hf⟩
  · obtain rfl : outcome = none := hnone
    exact ⟨_, hs, .done⟩
  · obtain rfl : outcome = some f := hsome
    exact ⟨mid, hs, .failed _ hf⟩

/-- **A message goes out up to the first call that fails.** -/
theorem calls_of_send (s : Sink) (m : Message) : s.StopsAtFailure (s.send m).1 (s.send m).2 := by
  unfold send
  cases m.encode with
  | error e => exact ⟨s, .refl, .rejected e⟩
  | ok b =>
    have hcalls := s.calls_of_writeAll b
    simp only
    generalize s.writeAll b = written at hcalls ⊢
    obtain ⟨outcome, t⟩ := written
    rcases hcalls with ⟨hc, hs⟩ | ⟨hc, mid, hs, hf⟩
    · obtain rfl : outcome = .complete := hc
      exact .after hs t.calls_of_flushMessages
    · cases outcome with
      | complete => exact absurd rfl hc
      | refused => exact ⟨mid, hs, .failed _ hf⟩
      | failed f => exact ⟨mid, hs, .failed _ hf⟩

theorem calls_of_sendEach (s : Sink) (ms : List Message) :
    s.StopsAtFailure (s.sendEach ms).1 (s.sendEach ms).2 := by
  induction ms generalizing s with
  | nil => exact ⟨s, .refl, .done⟩
  | cons m ms ih =>
    have hm := s.calls_of_send m
    unfold sendEach
    split <;> rename_i he <;> rw [he] at hm
    · exact hm
    · exact .after hm.served (ih _)

end

end Sink

end EtherBench
