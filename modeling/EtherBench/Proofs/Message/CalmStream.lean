import EtherBench.Proofs.Message.Dispatching

/-!
# A stream of whole messages

A stream that is only ever interrupted, and whose bytes are messages for
interfaces that exist, is dispatched to its end: the roster entry by entry, then
one event for each message, whatever the pieces in which it comes.
-/

namespace EtherBench

def Source.Calm (s : Source) : Prop := ∀ f, .fault f ∈ s.events → f.isInterruption

def Handler.Tolerant {σ : Type} (handler : Handler σ) : Prop := ∀ e s, (handler e s).1 = .ok ()

/-- What was read is at fault, and not the reading or the writing of it. -/
def MessageError.IsViolation : MessageError → Prop
  | .fault _ => False
  | .connectionClosed => False
  | _ => True

/-- What a message says once the roster has been seen. -/
def Message.event (m : Message) : Event :=
  if m.kind = control then .control m.payload else .frame m.kind m.payload

section
variable {r : Reader} {m : Message} {rest : Bytes}

theorem chunk_of_calm {events : List ReadEvent} (h : Source.Calm ⟨events⟩) :
    ∃ b t, Reader.chunk events = (.ok b, t) ∧ t.Calm ∧
      (b = [] → Source.stream ⟨events⟩ = []) ∧ (b ≠ [] → Source.stream ⟨events⟩ = b ++ t.stream) := by
  induction events with
  | nil => exact ⟨[], ⟨[]⟩, rfl, h, fun _ => rfl, fun hb => absurd rfl hb⟩
  | cons e rest ih =>
    cases e with
    | fault f =>
      rw [Reader.chunk, if_pos (h f (List.mem_cons_self ..))]
      exact ih fun g hg => h g (List.mem_cons_of_mem _ hg)
    | data d =>
      obtain ⟨o, t, hr⟩ : ∃ o t, Source.read Reader.chunkSize ⟨.data d :: rest⟩ = (o, t) := ⟨_, _, rfl⟩
      obtain ⟨_, hfaults⟩ := Source.faults_of_read hr
      cases o with
      | error f =>
        unfold Source.read at hr
        simp only at hr
        split at hr <;> cases hr
      | ok b =>
        refine ⟨b, t, hr, fun f hf => h f (hfaults f hf), ?_, fun hb => Source.stream_of_read hr hb⟩
        rintro rfl
        exact Source.stream_of_read_nil (by decide) hr

theorem Reader.next_of_calm (hr : r.source.Calm) (hm : m.Fits)
    (hs : r.buffer ++ r.source.stream = m.toBytes ++ rest) :
    ∃ r', r.next = (.ok m, r') ∧ r'.source.Calm ∧ r'.buffer ++ r'.source.stream = rest := by
  have hfront : Message.decode (r.buffer ++ r.source.stream) = .complete m rest := by
    rw [hs]
    exact Message.decode_toBytes_append hm rest
  fun_induction Reader.next r with
  | case1 r m' left hd =>
    rw [Message.decode_append_of_complete hd] at hfront
    cases hfront
    exact ⟨_, rfl, hr, rfl⟩
  | case2 r size hd =>
    rw [Message.decode_append_of_malformed hd] at hfront
    cases hfront
  | case3 r hd f source hc =>
    obtain ⟨b, t, hchunk, _⟩ := chunk_of_calm hr
    rw [hchunk] at hc
    cases hc
  | case4 r hd source hc =>
    obtain ⟨b, t, hchunk, _, hend, _⟩ := chunk_of_calm hr
    rw [hchunk] at hc
    cases hc
    have hstream : r.source.stream = [] := hend rfl
    rw [hstream, List.append_nil, hd] at hfront
    cases hfront
  | case5 r hd x xs source hc ih =>
    obtain ⟨b, t, hchunk, hcalm, _, hmore⟩ := chunk_of_calm hr
    rw [hchunk] at hc
    cases hc
    have hstream : r.source.stream = x :: xs ++ source.stream := hmore (List.cons_ne_nil x xs)
    rw [hstream, ← List.append_assoc] at hs hfront
    exact ih hcalm hs hfront

theorem Reader.next_of_ended (hr : r.source.Calm) (hs : r.buffer ++ r.source.stream = []) :
    ∃ r', r.next = (.error .connectionClosed, r') := by
  obtain ⟨hbuffer, hstream⟩ := List.append_eq_nil_iff.mp hs
  obtain ⟨b, t, hchunk, _, _, hmore⟩ := chunk_of_calm hr
  have hb : b = [] := by
    by_cases hb : b = []
    · exact hb
    · have hstream' : r.source.stream = b ++ t.stream := hmore hb
      rw [hstream] at hstream'
      exact (List.append_eq_nil_iff.mp hstream'.symm).1
  fun_cases Reader.next r with
  | case1 m rest hd =>
    rw [hbuffer] at hd
    cases hd
  | case2 size hd =>
    rw [hbuffer] at hd
    cases hd
  | case3 _ f source hc =>
    rw [hchunk] at hc
    cases hc
  | case4 _ source hc => exact ⟨_, by rw [hbuffer]; rfl⟩
  | case5 _ x xs source hc =>
    rw [hchunk, hb] at hc
    cases hc

/-- Octets that are no whole message are at fault, whether they are malformed or too few. -/
theorem Reader.next_of_stuck (hr : r.source.Calm) (hne : r.buffer ++ r.source.stream ≠ [])
    (hfront : ∀ m rest, Message.decode (r.buffer ++ r.source.stream) ≠ .complete m rest) :
    ∃ e r', r.next = (.error e, r') ∧ e.IsViolation := by
  fun_induction Reader.next r with
  | case1 r m rest hd => exact absurd (Message.decode_append_of_complete hd _) (hfront _ _)
  | case2 r size hd => exact ⟨_, r, rfl, trivial⟩
  | case3 r hd f source hc =>
    obtain ⟨b, t, hchunk, _⟩ := chunk_of_calm hr
    rw [hchunk] at hc
    cases hc
  | case4 r hd source hc =>
    obtain ⟨b, t, hchunk, _, hend, _⟩ := chunk_of_calm hr
    rw [hchunk] at hc
    cases hc
    have hstream : r.source.stream = [] := hend rfl
    rw [hstream, List.append_nil, ← List.isEmpty_eq_false_iff] at hne
    exact ⟨_, _, rfl, by rw [hne]; trivial⟩
  | case5 r hd x xs source hc ih =>
    obtain ⟨b, t, hchunk, hcalm, _, hmore⟩ := chunk_of_calm hr
    rw [hchunk] at hc
    cases hc
    have hstream : r.source.stream = x :: xs ++ source.stream := hmore (List.cons_ne_nil x xs)
    rw [hstream, ← List.append_assoc] at hne hfront
    exact ih hcalm hne hfront

end

/-! ## Events -/

section
variable {σ : Type} {handler : Handler σ} {m : Message} {ms : List Message} {count : UInt16}
  {addresses : List MacAddress}

theorem MacAddress.listOfBytes_flatMap (addresses : List MacAddress) :
    listOfBytes (addresses.flatMap toBytes) = addresses := by
  induction addresses with
  | nil => rfl
  | cons a addresses ih =>
    obtain ⟨⟨⟨octets⟩, hsize⟩⟩ := a
    match octets, hsize with
    | [a, b, c, d, e, f], _ => exact congrArg (_ :: ·) ih

theorem Event.ofMessage_of_known (h : m.kind ≤ count) : ofMessage count true m = ([m.event], none) := by
  unfold ofMessage Message.event
  by_cases hk : m.kind = Message.control
  · simp [hk]
  · simp [hk, UInt16.not_lt.mpr h]

theorem Event.ofMessage_roster (h : addresses.length ≤ count.toNat) :
    ofMessage count false ⟨Message.control, addresses.flatMap MacAddress.toBytes⟩ =
      (rosterFrom 1 addresses, none) := by
  rw [ofMessage, if_pos rfl, MacAddress.listOfBytes_flatMap, if_neg Bool.false_ne_true,
    ofRoster_of_le (by omega)]

theorem Event.deliver_of_tolerant (h : handler.Tolerant) (events : List Event) (s : σ) :
    (deliver handler events s).1 = .ok () := by
  induction events generalizing s with
  | nil => rfl
  | cons e events ih =>
    have he := h e s
    unfold deliver
    split <;> rename_i hr <;> rw [hr] at he
    · cases he
    · exact ih _

namespace Dispatcher

theorem dispatch_of_tolerant (h : handler.Tolerant) {d : Dispatcher} {events : List Event}
    (he : Event.ofMessage d.count d.rosterSeen m = (events, none)) (s : σ) (log : List Call) :
    ∃ s', dispatch handler.recorded m d (s, log) =
      (.ok (), { d with rosterSeen := d.rosterSeen || m.kind = Message.control }, s',
        log ++ events.map (·, .ok ())) := by
  have hok := Event.deliver_of_tolerant h events s
  obtain ⟨calls, hrec, hends⟩ := Event.deliver_recorded handler events s log
  obtain ⟨_, rfl⟩ := hends.resolve_right fun ⟨_, _, _, _, _, _, herr⟩ => by simp [hok] at herr
  refine ⟨(Event.deliver handler events s).2, ?_⟩
  unfold dispatch
  simp only [he, hrec, hok]

theorem run_of_messages (h : handler.Tolerant) {reader : Reader} (hcalm : reader.source.Calm)
    (hms : ∀ m ∈ ms, m.Fits ∧ m.kind ≤ count)
    (hs : reader.buffer ++ reader.source.stream = ms.flatMap Message.toBytes) (s : σ) (log : List Call) :
    ∃ d s', run handler.recorded ⟨reader, count, true⟩ (s, log) =
      (.ok (), d, s', log ++ ms.map fun m => (m.event, .ok ())) := by
  induction ms generalizing reader s log with
  | nil =>
    obtain ⟨reader', hn⟩ := Reader.next_of_ended hcalm hs
    exact ⟨_, s, by rw [run_of_error _ _ hn, if_pos rfl, List.map_nil, List.append_nil]⟩
  | cons m ms ih =>
    rw [List.forall_mem_cons] at hms
    obtain ⟨⟨hfits, hkind⟩, hms⟩ := hms
    obtain ⟨reader', hn, hcalm', hs'⟩ := Reader.next_of_calm hcalm hfits hs
    obtain ⟨s', hd⟩ := dispatch_of_tolerant (d := ⟨reader', count, true⟩) h
      (Event.ofMessage_of_known hkind) s log
    obtain ⟨d, s'', hrun⟩ := ih hcalm' hms hs' s' (log ++ [(m.event, .ok ())])
    refine ⟨d, s'', ?_⟩
    rw [run_of_message _ _ hn, hd]
    simp only [Bool.true_or, List.map_cons, List.map_nil]
    rw [hrun, List.append_assoc]
    rfl

/-- **A roster and then messages for interfaces that it lists** are dispatched to the end. -/
theorem run_of_roster (h : handler.Tolerant) {source : Source} (hcalm : source.Calm)
    (hroster : Message.Fits ⟨Message.control, addresses.flatMap MacAddress.toBytes⟩)
    (hcount : addresses.length ≤ count.toNat) (hms : ∀ m ∈ ms, m.Fits ∧ m.kind ≤ count)
    (hs : source.stream = Message.toBytes ⟨Message.control, addresses.flatMap MacAddress.toBytes⟩ ++
      ms.flatMap Message.toBytes) (s : σ) :
    ∃ d s', run handler.recorded (ofSource source count) (s, []) =
      (.ok (), d, s', (Event.rosterFrom 1 addresses ++ ms.map Message.event).map (·, .ok ())) := by
  obtain ⟨reader, hn, hcalm', hs'⟩ := Reader.next_of_calm (r := ⟨source, []⟩) hcalm hroster hs
  obtain ⟨s', hd⟩ := dispatch_of_tolerant (d := ⟨reader, count, false⟩) h
    (Event.ofMessage_roster hcount) s []
  obtain ⟨d, s'', hrun⟩ := run_of_messages h hcalm' hms hs' s'
    ((Event.rosterFrom 1 addresses).map (·, .ok ()))
  refine ⟨d, s'', ?_⟩
  rw [run_of_message _ _ (d := ofSource source count) hn]
  simp only [ofSource, hd, List.nil_append, decide_true, Bool.or_true, hrun, List.map_append,
    List.map_map]
  rfl

end Dispatcher

end

end EtherBench
