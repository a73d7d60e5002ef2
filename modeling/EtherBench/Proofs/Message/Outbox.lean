import EtherBench.Proofs.Message.RoundTrip
import EtherBench.Proofs.Message.Sending
import EtherBench.Proofs.Stream.Calls

/-!
# Messages put together in a buffer

A message is put together in a buffer and written from there: what the stream
has not taken yet is offered again, until all is taken and flushed or a call
fails. The same buffer serves the next message, whatever became of this one.
-/

namespace EtherBench

namespace Sink

def deliver (b : Bytes) (s : Sink) : Except MessageError Unit × Sink :=
  match s.writeAll b with
  | (.refused, s) => (.error .connectionClosed, s)
  | (.failed f, s) => (.error (.fault f), s)
  | (.complete, s) => s.flushMessages

/-- Sends every message, also behind one that has failed. -/
def sendEvery : List Message → Sink → List (Except MessageError Unit) × Sink
  | [], s => ([], s)
  | m :: ms, s =>
    let (result, s) := s.send m
    let (results, s) := sendEvery ms s
    (result :: results, s)

section
variable {s t : Sink} {b : Bytes} {f : Fault}

theorem send_of_fits (s : Sink) {m : Message} (hm : m.Fits) : s.send m = s.deliver m.toBytes := by
  rw [send, Message.encode_of_fits hm]
  rfl

theorem writeAll_of_empty (s : Sink) : s.writeAll [] = (.complete, s) := by
  simp [writeAll, Offer.make]

theorem writeAll_of_refusal (hb : b ≠ []) (h : s.write b = (.ok 0, t)) : s.writeAll b = (.refused, t) := by
  obtain ⟨writes, flushes, data, flushed⟩ := s
  have hlen := List.length_pos_iff.mpr hb
  match writes with
  | [] =>
    simp only [write, Prod.mk.injEq, Except.ok.injEq] at h
    omega
  | .fault f :: writes => cases h
  | .accept k :: writes =>
    simp only [write, Prod.mk.injEq, Except.ok.injEq] at h
    obtain ⟨hnone, rfl⟩ := h
    obtain rfl : k = 0 := by omega
    rw [writeAll, Offer.make, List.take_zero]
    exact hb

theorem writeAll_of_write {n : Nat} (h : s.write b = (.ok (n + 1), t)) :
    s.writeAll b = t.writeAll (b.drop (n + 1)) := by
  have hlen := le_of_write h
  obtain ⟨writes, flushes, data, flushed⟩ := s
  have hb : b ≠ [] := List.ne_nil_of_length_pos (by omega)
  match writes with
  | [] =>
    simp only [write, Prod.mk.injEq, Except.ok.injEq] at h
    obtain ⟨hn, rfl⟩ := h
    rw [writeAll, Offer.make, List.drop_eq_nil_iff.mpr (Nat.le_of_eq hn)]
    · simp [writeAll, Offer.make]
    · exact hb
  | .fault f :: writes => cases h
  | .accept k :: writes =>
    simp only [write, Prod.mk.injEq, Except.ok.injEq] at h
    obtain ⟨hn, rfl⟩ := h
    obtain ⟨k, rfl⟩ := Nat.exists_eq_succ_of_ne_zero (n := k) (by omega)
    have hdrop : b.drop (n + 1) = b.drop (k + 1) := by
      rw [← hn, List.drop_eq_drop_iff]
      omega
    rw [writeAll, Offer.make, hdrop]
    · simp [writeAll, append_append]
    · exact hb

theorem writeAll_of_error (hb : b ≠ []) (h : s.write b = (.error f, t)) :
    s.writeAll b = if f.isInterruption then t.writeAll b else (.failed f, t) := by
  obtain ⟨writes, flushes, data, flushed⟩ := s
  match writes with
  | [] | .accept k :: writes => cases h
  | .fault f :: writes =>
    cases h
    rw [writeAll, Offer.make]
    · split <;> rfl
    · exact hb

theorem flushMessages_of_flushOnce (h : s.flushOnce = (.ok (), t)) : s.flushMessages = (.ok (), t) := by
  obtain ⟨writes, flushes, data, flushed⟩ := s
  match flushes with
  | [] | .done :: flushes =>
    cases h
    rfl
  | .fault f :: flushes => cases h

theorem flushMessages_of_error (h : s.flushOnce = (.error f, t)) :
    s.flushMessages = if f.isInterruption then t.flushMessages else (.error (.fault f), t) := by
  obtain ⟨writes, flushes, data, flushed⟩ := s
  match flushes with
  | [] | .done :: flushes => cases h
  | .fault f :: flushes =>
    cases h
    rw [flushMessages, flush, flush.settle]
    by_cases hf : f.isInterruption
    · rw [if_pos hf, if_pos hf]
      rfl
    · rw [if_neg hf, if_neg hf]

end

end Sink

inductive Outbox.Call
  | write (offered : Bytes) (outcome : Except Fault Nat)
  | flush (outcome : Except Fault Unit)

namespace Outbox.Call

def taken : Call → Bytes
  | .write offered (.ok n) => offered.take n
  | _ => []

def isFlushed : Call → Bool
  | .flush (.ok _) => true
  | _ => false

def GoesOn : Call → Prop
  | .write _ (.ok n) => 0 < n
  | .write _ (.error f) => f.isInterruption
  | .flush (.ok _) => False
  | .flush (.error f) => f.isInterruption

/-- Behind the calls `before`, the call goes on with `b`: it offers all of `b` that has not been taken,
or there is no more of it and it flushes. -/
def Continues (b : Bytes) (before : List Call) : Call → Prop
  | .write offered _ => offered ≠ [] ∧ before.flatMap taken ++ offered = b
  | .flush _ => before.flatMap taken = b

end Outbox.Call

structure Outbox where
  stream : Sink
  buffer : Bytes := []
  calls : List Outbox.Call := []

namespace Outbox

def write (b : Bytes) (o : Outbox) : Except Fault Nat × Outbox :=
  let (outcome, stream) := o.stream.write b
  (outcome, { o with stream, calls := o.calls ++ [.write b outcome] })

def flushOnce (o : Outbox) : Except Fault Unit × Outbox :=
  let (outcome, stream) := o.stream.flushOnce
  (outcome, { o with stream, calls := o.calls ++ [.flush outcome] })

def outcomes (o : Outbox) : Nat := o.stream.writes.length + o.stream.flushes.length

structure Made (calls : List Call) (o o' : Outbox) : Prop where
  log : o'.calls = o.calls ++ calls
  data : o'.stream.data.toList = o.stream.data.toList ++ calls.flatMap Call.taken
  flushed : o'.stream.flushed = o.stream.flushed + calls.countP Call.isFlushed
  outcomes : o'.outcomes ≤ o.outcomes

section
variable {o o' o₂ : Outbox} {b : Bytes} {calls calls' : List Call}

theorem Made.refl (o : Outbox) : Made [] o o := ⟨by simp, by simp, rfl, Nat.le_refl _⟩

theorem Made.trans (h : Made calls o o') (h' : Made calls' o' o₂) : Made (calls ++ calls') o o₂ := by
  refine ⟨?_, ?_, ?_, Nat.le_trans h'.outcomes h.outcomes⟩
  · rw [h'.log, h.log, List.append_assoc]
  · rw [h'.data, h.data, List.flatMap_append, List.append_assoc]
  · rw [h'.flushed, h.flushed, List.countP_append, Nat.add_assoc]

theorem made_of_write {outcome : Except Fault Nat} (h : o.write b = (outcome, o')) :
    Made [.write b outcome] o o' ∧ o'.buffer = o.buffer ∧
      (o'.outcomes < o.outcomes ∨ outcome = .ok b.length) := by
  obtain ⟨⟨writes, flushes, data, flushed⟩, buffer, made⟩ := o
  cases h
  cases writes with
  | nil =>
    refine ⟨⟨rfl, ?_, rfl, Nat.le_refl _⟩, rfl, .inr rfl⟩
    simp [Call.taken]
  | cons event writes =>
    have hfewer : writes.length + flushes.length < (event :: writes).length + flushes.length := by simp
    cases event with
    | accept k =>
      refine ⟨⟨rfl, ?_, rfl, Nat.le_of_lt hfewer⟩, rfl, .inl hfewer⟩
      simp [Call.taken, List.take_eq_take_iff]
    | fault f =>
      refine ⟨⟨rfl, ?_, rfl, Nat.le_of_lt hfewer⟩, rfl, .inl hfewer⟩
      simp [Call.taken]

theorem made_of_flushOnce {outcome : Except Fault Unit} (h : o.flushOnce = (outcome, o')) :
    Made [.flush outcome] o o' ∧ (o'.outcomes < o.outcomes ∨ outcome = .ok ()) := by
  obtain ⟨⟨writes, flushes, data, flushed⟩, buffer, made⟩ := o
  cases h
  cases flushes with
  | nil => exact ⟨⟨rfl, by simp [Call.taken], rfl, Nat.le_refl _⟩, .inr rfl⟩
  | cons event flushes =>
    have hfewer : writes.length + flushes.length < writes.length + (event :: flushes).length := by simp
    cases event with
    | done => exact ⟨⟨rfl, by simp [Call.taken], rfl, Nat.le_of_lt hfewer⟩, .inr rfl⟩
    | fault f => exact ⟨⟨rfl, by simp [Call.taken], rfl, Nat.le_of_lt hfewer⟩, .inl hfewer⟩

theorem fewer_of_write_error {f : Fault} (h : o.write b = (.error f, o')) : o'.outcomes < o.outcomes := by
  rcases (made_of_write h).2.2 with hfewer | hok
  · exact hfewer
  · cases hok

theorem fewer_of_flushOnce_error {f : Fault} (h : o.flushOnce = (.error f, o')) : o'.outcomes < o.outcomes := by
  rcases (made_of_flushOnce h).2 with hfewer | hok
  · exact hfewer
  · cases hok

end

def flush (o : Outbox) : Except MessageError Unit × Outbox :=
  match _h : o.flushOnce with
  | (.ok (), o) => (.ok (), o)
  | (.error f, o) => if f.isInterruption then flush o else (.error (.fault f), o)
termination_by o.outcomes
decreasing_by exact fewer_of_flushOnce_error _h

def sendFrom (offset : Nat) (o : Outbox) : Except MessageError Unit × Outbox :=
  if offset < o.buffer.length then
    match _h : o.write (o.buffer.drop offset) with
    | (.ok 0, o) => (.error .connectionClosed, o)
    | (.ok (n + 1), o) => sendFrom (offset + (n + 1)) o
    | (.error f, o) => if f.isInterruption then sendFrom offset o else (.error (.fault f), o)
  else o.flush
termination_by o.outcomes + (o.buffer.length - offset)
decreasing_by
  · obtain ⟨hmade, hbuffer, -⟩ := made_of_write _h
    have := hmade.outcomes
    rw [hbuffer]
    omega
  · obtain ⟨-, hbuffer, -⟩ := made_of_write _h
    have := fewer_of_write_error _h
    rw [hbuffer]
    omega

def send (m : Message) (o : Outbox) : Except MessageError Unit × Outbox :=
  let o := { o with buffer := [] }
  match m.appendTo o.buffer with
  | (.error e, buffer) => (.error e, { o with buffer })
  | (.ok (), buffer) => sendFrom 0 { o with buffer }

def sendAll : List Message → Outbox → List (Except MessageError Unit) × Outbox
  | [], o => ([], o)
  | m :: ms, o =>
    let (result, o) := o.send m
    let (results, o) := sendAll ms o
    (result :: results, o)

/-- The calls offer `b` in turn: no octet is left out, or offered again once it has been taken. -/
def InTurn (b : Bytes) (calls : List Call) : Prop :=
  ∀ before c behind, calls = before ++ c :: behind → c.Continues b before

inductive Ends (b : Bytes) : List Call → Except MessageError Unit → Prop
  | sent {calls : List Call} (hgo : ∀ c ∈ calls, c.GoesOn) (hall : calls.flatMap Call.taken = b) :
      Ends b (calls ++ [.flush (.ok ())]) (.ok ())
  | flushFailed {calls : List Call} {f : Fault} (hgo : ∀ c ∈ calls, c.GoesOn)
      (hall : calls.flatMap Call.taken = b) (hf : ¬ f.isInterruption) :
      Ends b (calls ++ [.flush (.error f)]) (.error (.fault f))
  | refused {calls : List Call} {offered : Bytes} (hgo : ∀ c ∈ calls, c.GoesOn)
      (hpart : calls.flatMap Call.taken ++ offered = b) (hmore : offered ≠ []) :
      Ends b (calls ++ [.write offered (.ok 0)]) (.error .connectionClosed)
  | failed {calls : List Call} {offered : Bytes} {f : Fault} (hgo : ∀ c ∈ calls, c.GoesOn)
      (hpart : calls.flatMap Call.taken ++ offered = b) (hmore : offered ≠ []) (hf : ¬ f.isInterruption) :
      Ends b (calls ++ [.write offered (.error f)]) (.error (.fault f))

structure Sending where
  message : Message
  calls : List Call
  result : Except MessageError Unit

inductive Sending.Faithful : Sending → Prop
  | tooLarge {m : Message} (hm : ¬ m.Fits) :
      Faithful ⟨m, [], .error (.payloadTooLarge m.payload.length Message.maxPayload)⟩
  | fits {m : Message} {calls : List Call} {result : Except MessageError Unit} (hm : m.Fits)
      (hin : InTurn m.toBytes calls) (hends : Ends m.toBytes calls result) :
      Faithful ⟨m, calls, result⟩

inductive Sends : Bytes → List Call → Except MessageError Unit → Prop
  | flushed : Sends [] [.flush (.ok ())] (.ok ())
  | flushFailed {f : Fault} (hf : ¬ f.isInterruption) : Sends [] [.flush (.error f)] (.error (.fault f))
  | flushInterrupted {f : Fault} {calls : List Call} {r : Except MessageError Unit} (hf : f.isInterruption)
      (later : Sends [] calls r) : Sends [] (.flush (.error f) :: calls) r
  | refused {left : Bytes} (hleft : left ≠ []) : Sends left [.write left (.ok 0)] (.error .connectionClosed)
  | failed {left : Bytes} {f : Fault} (hleft : left ≠ []) (hf : ¬ f.isInterruption) :
      Sends left [.write left (.error f)] (.error (.fault f))
  | interrupted {left : Bytes} {f : Fault} {calls : List Call} {r : Except MessageError Unit}
      (hleft : left ≠ []) (hf : f.isInterruption) (later : Sends left calls r) :
      Sends left (.write left (.error f) :: calls) r
  | took {left : Bytes} {n : Nat} {calls : List Call} {r : Except MessageError Unit} (hleft : left ≠ [])
      (hn : 0 < n) (later : Sends (left.drop n) calls r) : Sends left (.write left (.ok n) :: calls) r

section
variable {o o' : Outbox} {b left : Bytes} {calls : List Call} {r : Except MessageError Unit}

theorem sends_of_flush (o : Outbox) :
    ∃ calls, Made calls o o.flush.2 ∧ Sends [] calls o.flush.1 ∧ calls.length ≤ o.outcomes + 1 := by
  fun_induction flush o with
  | case1 o o₁ h => exact ⟨_, (made_of_flushOnce h).1, .flushed, Nat.le_add_left ..⟩
  | case2 o f o₁ h hf ih =>
    obtain ⟨calls, hmade, hsends, hcount⟩ := ih
    have hfewer := fewer_of_flushOnce_error h
    refine ⟨_, (made_of_flushOnce h).1.trans hmade, .flushInterrupted hf hsends, ?_⟩
    simp only [List.length_append, List.length_singleton]
    omega
  | case3 o f o₁ h hf => exact ⟨_, (made_of_flushOnce h).1, .flushFailed hf, Nat.le_add_left ..⟩

theorem drop_ne_nil {offset : Nat} (h : offset < b.length) : b.drop offset ≠ [] :=
  mt List.drop_eq_nil_iff.mp (Nat.not_le.mpr h)

theorem sends_of_sendFrom (offset : Nat) (o : Outbox) : ∃ calls, Made calls o (o.sendFrom offset).2 ∧
    Sends (o.buffer.drop offset) calls (o.sendFrom offset).1 ∧
    calls.length ≤ o.outcomes + if offset < o.buffer.length then 2 else 1 := by
  -- each call uses an outcome up, but for a last write that takes everything and the flush behind it
  fun_induction sendFrom offset o with
  | case1 offset o hlt o₁ h =>
    have hleft := drop_ne_nil hlt
    rw [if_pos hlt]
    exact ⟨_, (made_of_write h).1, .refused hleft, Nat.le_add_left 1 (o.outcomes + 1)⟩
  | case2 offset o hlt n o₁ h ih =>
    obtain ⟨calls, hmade, hsends, hcount⟩ := ih
    obtain ⟨hwrite, hbuffer, hscript⟩ := made_of_write h
    have hleft := drop_ne_nil hlt
    rw [hbuffer, ← List.drop_drop] at hsends
    refine ⟨_, hwrite.trans hmade, .took hleft (Nat.succ_pos n) hsends, ?_⟩
    rw [if_pos hlt, List.length_append, List.length_singleton]
    have hfewer := hwrite.outcomes
    rcases hscript with hscript | hall
    · split at hcount <;> omega
    · -- all of it was taken, so that only a flush follows
      have hn : n + 1 = o.buffer.length - offset := by simpa using hall
      rw [hbuffer, if_neg (by omega)] at hcount
      omega
  | case3 offset o hlt f o₁ h hf ih =>
    obtain ⟨calls, hmade, hsends, hcount⟩ := ih
    obtain ⟨hwrite, hbuffer, -⟩ := made_of_write h
    have hfewer := fewer_of_write_error h
    have hleft := drop_ne_nil hlt
    rw [hbuffer] at hsends hcount
    refine ⟨_, hwrite.trans hmade, .interrupted hleft hf hsends, ?_⟩
    rw [if_pos hlt] at hcount ⊢
    rw [List.length_append, List.length_singleton]
    omega
  | case4 offset o hlt f o₁ h hf =>
    have hleft := drop_ne_nil hlt
    rw [if_pos hlt]
    exact ⟨_, (made_of_write h).1, .failed hleft hf, Nat.le_add_left 1 (o.outcomes + 1)⟩
  | case5 offset o hlt =>
    rw [if_neg hlt, List.drop_eq_nil_iff.mpr (Nat.not_lt.mp hlt)]
    exact sends_of_flush o

/-! ## What the calls of a message say -/

theorem inTurn_cons {first : Call} (hfirst : first.Continues b []) (hb : first.taken ++ left = b)
    (h : InTurn left calls) : InTurn b (first :: calls) := by
  intro before c behind heq
  -- a later call has the first one in front of it too
  cases before with
  | nil =>
    cases heq
    exact hfirst
  | cons x before =>
    cases heq
    have hc := h before c behind rfl
    cases c with
    | write offered outcome =>
      refine ⟨hc.1, ?_⟩
      rw [List.flatMap_cons, List.append_assoc, hc.2, hb]
    | flush outcome =>
      show (first :: before).flatMap Call.taken = b
      rw [List.flatMap_cons, hc, hb]

theorem inTurn_nil (b : Bytes) : InTurn b [] := by simp [InTurn]

theorem Sends.inTurn (h : Sends left calls r) : InTurn left calls := by
  induction h with
  | flushed => exact inTurn_cons rfl rfl (inTurn_nil _)
  | flushFailed => exact inTurn_cons rfl rfl (inTurn_nil _)
  | flushInterrupted _ _ ih => exact inTurn_cons rfl rfl ih
  | refused hleft => exact inTurn_cons ⟨hleft, rfl⟩ (List.take_append_drop 0 _) (inTurn_nil _)
  | failed hleft => exact inTurn_cons ⟨hleft, rfl⟩ rfl (inTurn_nil _)
  | interrupted hleft _ _ ih => exact inTurn_cons ⟨hleft, rfl⟩ rfl ih
  | took hleft _ _ ih => exact inTurn_cons ⟨hleft, rfl⟩ (List.take_append_drop _ _) ih

theorem Ends.cons {first : Call} (hfirst : first.GoesOn) (hb : first.taken ++ left = b)
    (h : Ends left calls r) : Ends b (first :: calls) r := by
  have hgo {cs : List Call} (hcs : ∀ c ∈ cs, c.GoesOn) : ∀ c ∈ first :: cs, c.GoesOn :=
    List.forall_mem_cons.mpr ⟨hfirst, hcs⟩
  cases h with
  | @sent cs hcs hall =>
    refine .sent (hgo hcs) ?_
    rw [List.flatMap_cons, hall, hb]
  | @flushFailed cs f hcs hall hf =>
    refine .flushFailed (hgo hcs) ?_ hf
    rw [List.flatMap_cons, hall, hb]
  | @refused cs offered hcs hpart hmore =>
    refine .refused (hgo hcs) ?_ hmore
    rw [List.flatMap_cons, List.append_assoc, hpart, hb]
  | @failed cs offered f hcs hpart hmore hf =>
    refine .failed (hgo hcs) ?_ hmore hf
    rw [List.flatMap_cons, List.append_assoc, hpart, hb]

theorem Sends.ends (h : Sends left calls r) : Ends left calls r := by
  induction h with
  | flushed => exact @Ends.sent _ [] nofun rfl
  | flushFailed hf => exact @Ends.flushFailed _ [] _ nofun rfl hf
  | flushInterrupted hf _ ih => exact ih.cons hf rfl
  | refused hleft => exact @Ends.refused _ [] _ nofun rfl hleft
  | failed hleft hf => exact @Ends.failed _ [] _ _ nofun rfl hleft hf
  | interrupted _ hf _ ih => exact ih.cons hf rfl
  | took _ hn _ ih => exact ih.cons hn (List.take_append_drop _ _)

theorem send_of_fits (o : Outbox) {m : Message} (hm : m.Fits) :
    o.send m = sendFrom 0 { o with buffer := m.toBytes } := by
  simp only [send, Message.appendTo_of_fits hm, List.nil_append]

theorem send_of_not_fits (o : Outbox) {m : Message} (hm : ¬ m.Fits) :
    o.send m = (.error (.payloadTooLarge m.payload.length Message.maxPayload), { o with buffer := [] }) := by
  simp only [send, Message.appendTo_of_not_fits hm]

theorem faithful_of_send (m : Message) (o : Outbox) : ∃ calls, Made calls o (o.send m).2 ∧
    Sending.Faithful ⟨m, calls, (o.send m).1⟩ ∧ calls.length ≤ o.outcomes + 2 := by
  by_cases hm : m.Fits
  · rw [o.send_of_fits hm]
    obtain ⟨calls, ⟨hlog, hdata, hflushed, houtcomes⟩, hsends, hcount⟩ :=
      sends_of_sendFrom 0 { o with buffer := m.toBytes }
    refine ⟨calls, ⟨hlog, hdata, hflushed, houtcomes⟩, .fits hm hsends.inTurn hsends.ends, ?_⟩
    refine Nat.le_trans hcount (Nat.add_le_add_left ?_ _)
    split <;> omega
  · rw [o.send_of_not_fits hm]
    exact ⟨[], ⟨by simp, by simp, rfl, Nat.le_refl _⟩, .tooLarge hm, Nat.zero_le _⟩

theorem faithful_of_sendAll (ms : List Message) (o : Outbox) : ∃ sendings : List Sending,
    sendings.map (·.message) = ms ∧ sendings.map (·.result) = (o.sendAll ms).1 ∧
    Made (sendings.flatMap (·.calls)) o (o.sendAll ms).2 ∧
    ∀ x ∈ sendings, x.Faithful ∧ x.calls.length ≤ o.outcomes + 2 := by
  induction ms generalizing o with
  | nil => exact ⟨[], rfl, rfl, .refl o, nofun⟩
  | cons m ms ih =>
    obtain ⟨calls, hmade, hfirst, hcount⟩ := o.faithful_of_send m
    obtain ⟨sendings, hmessages, hresults, hlater, hall⟩ := ih (o.send m).2
    refine ⟨⟨m, calls, (o.send m).1⟩ :: sendings, ?_, ?_, ?_, ?_⟩
    · rw [List.map_cons, hmessages]
    · rw [List.map_cons, hresults]
      rfl
    · exact hmade.trans hlater
    · refine List.forall_mem_cons.mpr ⟨⟨hfirst, hcount⟩, fun x hx => ?_⟩
      exact ⟨(hall x hx).1, Nat.le_trans (hall x hx).2 (Nat.add_le_add_right hmade.outcomes 2)⟩

/-! ## The stream alone -/

theorem stream_of_write {outcome : Except Fault Nat} {o' : Outbox} (h : o.write b = (outcome, o')) :
    o.stream.write b = (outcome, o'.stream) := by
  cases h
  rfl

theorem stream_of_flushOnce {outcome : Except Fault Unit} {o' : Outbox} (h : o.flushOnce = (outcome, o')) :
    o.stream.flushOnce = (outcome, o'.stream) := by
  cases h
  rfl

theorem flushMessages_stream (o : Outbox) : o.stream.flushMessages = (o.flush.1, o.flush.2.stream) := by
  fun_induction flush o with
  | case1 o o₁ h => exact Sink.flushMessages_of_flushOnce (stream_of_flushOnce h)
  | case2 o f o₁ h hf ih => rw [Sink.flushMessages_of_error (stream_of_flushOnce h), if_pos hf, ih]
  | case3 o f o₁ h hf => rw [Sink.flushMessages_of_error (stream_of_flushOnce h), if_neg hf]

theorem deliver_stream (offset : Nat) (o : Outbox) : o.stream.deliver (o.buffer.drop offset) =
    ((o.sendFrom offset).1, (o.sendFrom offset).2.stream) := by
  fun_induction sendFrom offset o with
  | case1 offset o hlt o₁ h =>
    rw [Sink.deliver, Sink.writeAll_of_refusal (drop_ne_nil hlt) (stream_of_write h)]
  | case2 offset o hlt n o₁ h ih =>
    rw [(made_of_write h).2.1, ← List.drop_drop] at ih
    rw [Sink.deliver, Sink.writeAll_of_write (stream_of_write h), ← ih, Sink.deliver]
  | case3 offset o hlt f o₁ h hf ih =>
    rw [(made_of_write h).2.1] at ih
    rw [Sink.deliver, Sink.writeAll_of_error (drop_ne_nil hlt) (stream_of_write h), if_pos hf, ← ih,
      Sink.deliver]
  | case4 offset o hlt f o₁ h hf =>
    rw [Sink.deliver, Sink.writeAll_of_error (drop_ne_nil hlt) (stream_of_write h), if_neg hf]
  | case5 offset o hlt =>
    rw [List.drop_eq_nil_iff.mpr (Nat.not_lt.mp hlt), Sink.deliver, Sink.writeAll_of_empty]
    exact o.flushMessages_stream

theorem send_stream (m : Message) (o : Outbox) : o.stream.send m = ((o.send m).1, (o.send m).2.stream) := by
  by_cases hm : m.Fits
  · rw [o.stream.send_of_fits hm, o.send_of_fits hm]
    exact deliver_stream 0 { o with buffer := m.toBytes }
  · rw [o.stream.send_of_large hm, o.send_of_not_fits hm]

theorem sendEvery_stream (ms : List Message) (o : Outbox) :
    o.stream.sendEvery ms = ((o.sendAll ms).1, (o.sendAll ms).2.stream) := by
  induction ms generalizing o with
  | nil => rfl
  | cons m ms ih => simp only [Sink.sendEvery, o.send_stream m, ih, sendAll]

/-- **Whatever a stream reports, messages stay apart.** This is so for any messages, control text among
them, that are sent one after the other, also behind one that has failed. The calls that are made for a
message are bounded by what the stream has scripted, they offer its own octets alone, in turn and none
again that was taken, and the result is what the last of them says. A message that is too large makes no
call. What the stream has taken in the end is what these calls had it take, in the order of the messages.
A stream is left the same without the buffer. -/
theorem sendings_stay_apart (ms : List Message) (o : Outbox) :
    (∃ sendings : List Sending, sendings.map (·.message) = ms ∧
      sendings.map (·.result) = (o.sendAll ms).1 ∧
      Made (sendings.flatMap (·.calls)) o (o.sendAll ms).2 ∧
      ∀ x ∈ sendings, x.Faithful ∧ x.calls.length ≤ o.outcomes + 2) ∧
    o.stream.sendEvery ms = ((o.sendAll ms).1, (o.sendAll ms).2.stream) :=
  ⟨faithful_of_sendAll ms o, sendEvery_stream ms o⟩

example : ({ writes := [.accept 5, .accept 0] } : Sink).sendEvery [⟨1, [7, 8]⟩, ⟨2, [9]⟩] =
    ([.error .connectionClosed, .ok ()], { data := #[0, 6, 0, 1, 7, 0, 5, 0, 2, 9], flushed := 1 }) := rfl

end

end Outbox

end EtherBench
