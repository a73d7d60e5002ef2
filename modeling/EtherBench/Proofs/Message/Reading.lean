import EtherBench.Message.Reader
import EtherBench.Proofs.Message.Stream
import EtherBench.Proofs.Stream.Transfer

/-!
# Reading on after every outcome

Whatever the reads of a stream report, no byte is lost, repeated or moved: the
messages returned so far and the bytes still buffered are what the reads have
brought. A failure or an end of the stream stops the call that meets it and no
other, so the messages of a stream do not depend on how it is cut into reads.
-/

namespace EtherBench

inductive Stop
  | fault (f : Fault)
  | ended
  deriving DecidableEq

namespace Stop

/-- An empty read is the end of the stream; an interruption stops nothing. -/
def ofRead? : Except Fault Bytes → Option Stop
  | .ok [] => some .ended
  | .ok (_ :: _) => none
  | .error f => if f.isInterruption then none else some (.fault f)

def ofResult? : Except MessageError Message → Option Stop
  | .error (.fault f) => some (.fault f)
  | .error .connectionClosed => some .ended
  | .error (.closedMidMessage _) => some .ended
  | _ => none

end Stop

namespace Reader

def messages (results : List (Except MessageError Message)) : List Message :=
  results.filterMap Except.toOption

def calls : Nat → Reader → List (Except MessageError Message) × Reader
  | 0, r => ([], r)
  | n + 1, r => (r.next.1 :: (calls n r.next.2).1, (calls n r.next.2).2)

/-- The states between the reads of one call. -/
inductive Passes : Reader → Reader → Prop
  | here (r : Reader) : Passes r r
  | read {r r' : Reader} {x : UInt8} {b : Bytes} {source : Source}
      (hd : Message.decode r.buffer = .incomplete)
      (hc : chunk r.source.events = (.ok (x :: b), source))
      (later : Passes ⟨source, r.buffer ++ x :: b⟩ r') : Passes r r'

inductive Ends (r : Reader) : Except MessageError Message → Reader → Prop
  | message {m : Message} {rest : Bytes} (hd : Message.decode r.buffer = .complete m rest) :
      Ends r (.ok m) { r with buffer := rest }
  | malformed {size : Nat} (hd : Message.decode r.buffer = .malformed size) :
      Ends r (.error (.sizeBelowHeader size Message.headerSize)) r
  | fault {f : Fault} {source : Source} (hd : Message.decode r.buffer = .incomplete)
      (hc : chunk r.source.events = (.error f, source)) :
      Ends r (.error (.fault f)) { r with source }
  | closed {source : Source} (hd : Message.decode r.buffer = .incomplete)
      (hc : chunk r.source.events = (.ok [], source)) (hb : r.buffer = []) :
      Ends r (.error .connectionClosed) { r with source }
  | closedMidMessage {source : Source} (hd : Message.decode r.buffer = .incomplete)
      (hc : chunk r.source.events = (.ok [], source)) (hb : r.buffer ≠ []) :
      Ends r (.error (.closedMidMessage r.buffer.length)) { r with source }

/-- Calls one after the other, each of which went on reading until it ended. -/
inductive Gives : Reader → List (Except MessageError Message) → Reader → Prop
  | none (r : Reader) : Gives r [] r
  | call {r mid after r' : Reader} {res : Except MessageError Message}
      {results : List (Except MessageError Message)} (hp : r.Passes mid) (he : mid.Ends res after)
      (later : Gives after results r') : Gives r (res :: results) r'

/-- Reads that reported `outs` have led from `r` to `r'`, and to these results on the way. -/
structure Yields (r : Reader) (outs : List (Except Fault Bytes))
    (results : List (Except MessageError Message)) (r' : Reader) : Prop where
  reads : r.source.Reads chunkSize outs r'.source
  bytes : r.buffer ++ outs.flatMap Source.brought =
    (messages results).flatMap Message.toBytes ++ r'.buffer
  fits : ∀ m ∈ messages results, m.Fits
  stops : outs.filterMap Stop.ofRead? = results.filterMap Stop.ofResult?

section
variable {r r' r'' : Reader} {outs outs' : List (Except Fault Bytes)}
  {results results' : List (Except MessageError Message)} {res : Except MessageError Message}

theorem messages_append (results results' : List (Except MessageError Message)) :
    messages (results ++ results') = messages results ++ messages results' :=
  List.filterMap_append

theorem Yields.mem_ended (h : r.Yields outs results r') :
    .ok [] ∈ outs ↔ Stop.ended ∈ results.filterMap Stop.ofResult? := by
  rw [← h.stops, List.mem_filterMap]
  constructor
  · intro ho
    exact ⟨.ok [], ho, rfl⟩
  · rintro ⟨o, ho, hs⟩
    match o with
    | .ok [] => exact ho
    | .ok (_ :: _) => cases hs
    | .error f =>
      simp only [Stop.ofRead?] at hs
      split at hs <;> cases hs

theorem Yields.refl (r : Reader) : r.Yields [] [] r :=
  ⟨.none _, List.append_nil _, (fun _ h => nomatch h), rfl⟩

theorem Yields.trans (h : r.Yields outs results r') (h' : r'.Yields outs' results' r'') :
    r.Yields (outs ++ outs') (results ++ results') r'' := by
  refine ⟨h.reads.append h'.reads, ?_, ?_, ?_⟩
  · rw [List.flatMap_append, ← List.append_assoc, h.bytes, List.append_assoc, h'.bytes,
      messages_append, List.flatMap_append, List.append_assoc]
  · rw [messages_append]
    exact List.forall_mem_append.mpr ⟨h.fits, h'.fits⟩
  · rw [List.filterMap_append, List.filterMap_append, h.stops, h'.stops]

theorem Yields.stream (h : r.Yields outs results r') :
    r.buffer ++ r.source.bytes =
      (messages results).flatMap Message.toBytes ++ (r'.buffer ++ r'.source.bytes) := by
  rw [h.reads.bytes, ← List.append_assoc, h.bytes, List.append_assoc]

theorem Yields.split_stream (h : r.Yields outs results r') :
    (Message.split (r.buffer ++ r.source.bytes)).1 =
      messages results ++ (Message.split (r'.buffer ++ r'.source.bytes)).1 := by
  rw [h.stream, Message.split_flatMap_append h.fits]

/-! ## One call -/

/-- A chunk is what the first read brings that is not interrupted. -/
theorem exists_read_of_chunk {events : List ReadEvent} {o : Except Fault Bytes} {t : Source}
    (h : chunk events = (o, t)) : ∃ faults : List Fault, ∃ rest, events = faults.map .fault ++ rest ∧
      (∀ f ∈ faults, f.isInterruption = true) ∧ Source.read chunkSize ⟨rest⟩ = (o, t) ∧
      ∀ f, o = .error f → f.isInterruption = false := by
  induction events with
  | nil =>
    cases h
    exact ⟨[], [], rfl, (fun _ h => nomatch h), rfl, fun _ he => nomatch he⟩
  | cons e rest ih =>
    cases e with
    | data d =>
      refine ⟨[], .data d :: rest, rfl, (fun _ h => nomatch h), h, ?_⟩
      rintro f rfl
      simp only [chunk, Source.read] at h
      split at h <;> cases h
    | fault f =>
      simp only [chunk] at h
      split at h
      · rename_i hf
        obtain ⟨faults, behind, rfl, hfaults, hread⟩ := ih h
        exact ⟨f :: faults, behind, rfl, List.forall_mem_cons.mpr ⟨hf, hfaults⟩, hread⟩
      · rename_i hf
        cases h
        refine ⟨[], .fault f :: rest, rfl, (fun _ h => nomatch h), rfl, ?_⟩
        rintro g ⟨⟩
        exact Bool.eq_false_iff.mpr hf

theorem reads_of_chunk {events : List ReadEvent} {o : Except Fault Bytes} {t : Source}
    (h : chunk events = (o, t)) :
    (∃ outs, Source.Reads chunkSize ⟨events⟩ (outs ++ [o]) t ∧
      outs.flatMap Source.brought = [] ∧ outs.filterMap Stop.ofRead? = []) ∧
      ∀ f, o = .error f → f.isInterruption = false := by
  obtain ⟨faults, rest, rfl, hfaults, hread, hi⟩ := exists_read_of_chunk h
  refine ⟨⟨faults.map .error, ?_, ?_, ?_⟩, hi⟩
  · clear h hfaults
    induction faults with
    | nil => exact .read hread (.none _)
    | cons f faults ih => exact .read rfl ih
  · rw [List.flatMap_map, List.flatMap_eq_nil_iff]
    exact fun _ _ => rfl
  · rw [List.filterMap_map, List.filterMap_eq_nil_iff]
    intro f hf
    simp [Stop.ofRead?, hfaults f hf]

theorem Passes.next_eq (h : r.Passes r') : r.next = r'.next := by
  induction h with
  | here => rfl
  | @read r r' x b source hd hc _ ih =>
    rw [next]
    split
    · rename_i he
      rw [hd] at he
      cases he
    · rename_i he
      rw [hd] at he
      cases he
    · split
      · rename_i he
        rw [hc] at he
        cases he
      · rename_i he
        rw [hc] at he
        cases he
      · rename_i he
        rw [hc] at he
        cases he
        exact ih

theorem yields_of_chunk (results : List (Except MessageError Message)) {o : Except Fault Bytes}
    {source : Source} (hc : chunk r.source.events = (o, source)) (hm : messages results = [])
    (hs : (∀ f, o = .error f → f.isInterruption = false) →
      [o].filterMap Stop.ofRead? = results.filterMap Stop.ofResult?) :
    ∃ outs, r.Yields outs results ⟨source, r.buffer ++ Source.brought o⟩ := by
  obtain ⟨⟨outs, hr, hb, hstop⟩, hi⟩ := reads_of_chunk hc
  refine ⟨outs ++ [o], hr, ?_, ?_, ?_⟩
  · rw [List.flatMap_append, hb, hm, List.flatMap_singleton]
    rfl
  · rw [hm]
    exact fun _ h => nomatch h
  · rw [List.filterMap_append, hstop, hs hi]
    rfl

theorem Passes.yields (h : r.Passes r') : ∃ outs, r.Yields outs [] r' := by
  induction h with
  | here r => exact ⟨[], .refl r⟩
  | read _ hc _ ih =>
    obtain ⟨outs, h⟩ := yields_of_chunk [] hc rfl fun _ => rfl
    obtain ⟨outs', h'⟩ := ih
    exact ⟨_, h.trans h'⟩

/-- **A call reads until its buffer decides**, or until a read stops it. -/
theorem next_ends (r : Reader) : ∃ r', r.Passes r' ∧ r'.Ends r.next.1 r.next.2 := by
  fun_induction next r with
  | case1 r m rest hd => exact ⟨r, .here r, .message hd⟩
  | case2 r size hd => exact ⟨r, .here r, .malformed hd⟩
  | case3 r hd f source hc => exact ⟨r, .here r, .fault hd hc⟩
  | case4 r hd source hc =>
    refine ⟨r, .here r, ?_⟩
    by_cases hb : r.buffer = []
    · rw [if_pos (List.isEmpty_iff.mpr hb)]
      exact .closed hd hc hb
    · rw [if_neg (fun he => hb (List.isEmpty_iff.mp he))]
      exact .closedMidMessage hd hc hb
  | case5 r hd b bs source hc ih =>
    obtain ⟨r', hp, he⟩ := ih
    exact ⟨r', .read hd hc hp, he⟩

theorem Ends.next_eq (h : r.Ends res r') : r.next = (res, r') := by
  fun_cases next r with
  | case1 m rest hd =>
    cases h with
    | message hd' =>
      cases hd.symm.trans hd'
      rfl
    | malformed hd' | fault hd' | closed hd' | closedMidMessage hd' => cases hd.symm.trans hd'
  | case2 size hd =>
    cases h with
    | malformed hd' =>
      cases hd.symm.trans hd'
      rfl
    | message hd' | fault hd' | closed hd' | closedMidMessage hd' => cases hd.symm.trans hd'
  | case3 hd f source hc =>
    cases h with
    | fault _ hc' =>
      cases hc.symm.trans hc'
      rfl
    | message hd' | malformed hd' => cases hd.symm.trans hd'
    | closed _ hc' | closedMidMessage _ hc' => cases hc.symm.trans hc'
  | case4 hd source hc =>
    cases h with
    | closed _ hc' hb =>
      cases hc.symm.trans hc'
      rw [hb]
      rfl
    | closedMidMessage _ hc' hb =>
      cases hc.symm.trans hc'
      rw [if_neg (by simpa using hb)]
    | message hd' | malformed hd' => cases hd.symm.trans hd'
    | fault _ hc' => cases hc.symm.trans hc'
  | case5 hd b bs source hc =>
    cases h with
    | message hd' | malformed hd' => cases hd.symm.trans hd'
    | fault _ hc' | closed _ hc' | closedMidMessage _ hc' => cases hc.symm.trans hc'

theorem Ends.yields (h : r.Ends res r') : ∃ outs, r.Yields outs [res] r' := by
  cases h with
  | message hd =>
    obtain ⟨hb, hm⟩ := Message.eq_of_decode hd
    refine ⟨[], .none _, ?_, List.forall_mem_singleton.mpr hm, rfl⟩
    simpa [messages, Except.toOption] using hb
  | malformed hd => exact ⟨[], .none _, List.append_nil _, (fun _ h => nomatch h), rfl⟩
  | @fault f source hd hc =>
    have h := yields_of_chunk [.error (.fault f)] hc rfl fun hi => by
      simp [Stop.ofRead?, Stop.ofResult?, hi f rfl]
    rwa [Source.brought, List.append_nil] at h
  | closed hd hc hb =>
    have h := yields_of_chunk [.error .connectionClosed] hc rfl fun _ => rfl
    rwa [Source.brought, List.append_nil] at h
  | closedMidMessage hd hc hb =>
    have h := yields_of_chunk [.error (.closedMidMessage r.buffer.length)] hc rfl
      fun _ => rfl
    rwa [Source.brought, List.append_nil] at h

theorem Ends.buffered (h : r.Ends res r') :
    (res = .error .connectionClosed → r'.buffer = []) ∧
      ∀ k, res = .error (.closedMidMessage k) → r'.buffer.length = k ∧ 0 < k := by
  cases h with
  | message | malformed | fault => exact ⟨nofun, nofun⟩
  | closed _ _ hb => exact ⟨fun _ => hb, nofun⟩
  | closedMidMessage _ _ hb =>
    refine ⟨nofun, ?_⟩
    intro k hk
    injection hk with hk
    injection hk with hk
    exact ⟨hk, hk ▸ List.length_pos_iff.mpr hb⟩

theorem next_buffered (r : Reader) :
    (r.next.1 = .error .connectionClosed → r.next.2.buffer = []) ∧
      ∀ k, r.next.1 = .error (.closedMidMessage k) → r.next.2.buffer.length = k ∧ 0 < k := by
  obtain ⟨_, _, he⟩ := r.next_ends
  exact he.buffered

/-! ## Many calls -/

theorem gives_of_next (hn : r.next = (res, r')) (later : r'.Gives results r'') :
    r.Gives (res :: results) r'' := by
  obtain ⟨mid, hp, he⟩ := r.next_ends
  rw [hn] at he
  exact .call hp he later

theorem Gives.append (h : r.Gives results r') (h' : r'.Gives results' r'') :
    r.Gives (results ++ results') r'' := by
  induction h with
  | none => exact h'
  | call hp he _ ih => exact .call hp he (ih h')

/-- **Calls give what their buffers and reads decide**, and nothing else. -/
theorem gives_iff : r.Gives results r' ↔ calls results.length r = (results, r') := by
  constructor
  · intro h
    induction h with
    | none => rfl
    | call hp he _ ih => rw [List.length_cons, calls, hp.next_eq, he.next_eq, ih]
  · intro h
    induction results generalizing r with
    | nil =>
      cases h
      exact .none _
    | cons res results ih =>
      rw [List.length_cons, calls, Prod.mk.injEq, List.cons.injEq] at h
      obtain ⟨⟨hres, hresults⟩, hr⟩ := h
      exact gives_of_next (Prod.ext hres rfl) (ih (Prod.ext hresults hr))

theorem Gives.yields (h : r.Gives results r') : ∃ outs, r.Yields outs results r' := by
  induction h with
  | none r => exact ⟨[], .refl r⟩
  | call hp he _ ih =>
    obtain ⟨outs, h⟩ := hp.yields
    obtain ⟨outs', h'⟩ := he.yields
    obtain ⟨outs'', h''⟩ := ih
    exact ⟨_, (h.trans h').trans h''⟩

theorem length_calls (n : Nat) (r : Reader) : (calls n r).1.length = n := by
  induction n generalizing r with
  | zero => rfl
  | succ n ih => rw [calls, List.length_cons, ih]

theorem calls_yield (n : Nat) (r : Reader) : ∃ outs, r.Yields outs (calls n r).1 (calls n r).2 :=
  (gives_iff.mpr (by rw [length_calls])).yields

/-- More than the calls that can still return something new. -/
def load (r : Reader) : Nat := r.buffer.length + r.source.weight

structure Exhausted (r : Reader) : Prop where
  front : ∀ m rest, Message.decode r.buffer ≠ .complete m rest
  source : r.source.events = [] ∨ ∃ size, Message.decode r.buffer = .malformed size

theorem weight_lt_of_chunk {events : List ReadEvent} {o : Except Fault Bytes} {t : Source}
    (h : chunk events = (o, t)) (ho : Source.brought o = []) :
    t.weight < Source.weight ⟨events⟩ ∨ events = [] := by
  induction events with
  | nil => exact .inr rfl
  | cons e rest ih =>
    refine .inl ?_
    have hrest : Source.weight ⟨rest⟩ < Source.weight ⟨e :: rest⟩ := by
      simp [Source.weight, ReadEvent.weight]
    cases e with
    | data d =>
      simp only [chunk, Source.read] at h
      split at h
      · injection h with _ h
        subst h
        exact hrest
      · rename_i hd
        injection h with h _
        subst h
        rcases List.take_eq_nil_iff.mp ho with h₀ | h₀
        · cases h₀
        · rw [h₀, List.drop_nil] at hd
          exact absurd rfl hd
    | fault f =>
      simp only [chunk] at h
      split at h
      · rcases ih h with hlt | hnil
        · exact Nat.lt_trans hlt hrest
        · subst hnil
          injection h with _ h
          subst h
          exact hrest
      · injection h with _ h
        subst h
        exact hrest

theorem Passes.load_le (h : r.Passes r') : r'.load ≤ r.load := by
  induction h with
  | here => exact Nat.le_refl _
  | @read r _ x b source _ hc _ ih =>
    have hw : source.weight + (x :: b).length ≤ r.source.weight := weight_of_chunk hc
    simp only [load, List.length_append] at ih ⊢
    omega

theorem Ends.load_lt (h : r.Ends res r') : r'.load < r.load ∨ r'.Exhausted := by
  -- a read that brings nothing still uses up an event, if there is one
  have hstop : ∀ {o source}, Message.decode r.buffer = .incomplete →
      chunk r.source.events = (o, source) → Source.brought o = [] →
      load { r with source } < r.load ∨ Exhausted { r with source } := by
    intro o source hd hc ho
    rcases weight_lt_of_chunk hc ho with hlt | hnil
    · exact .inl (Nat.add_lt_add_left hlt _)
    · rw [hnil] at hc
      injection hc with _ hc
      subst hc
      refine .inr ⟨?_, .inl rfl⟩
      intro m rest hm
      rw [hd] at hm
      cases hm
  cases h with
  | message hd =>
    have := Message.length_of_decode hd
    simp only [Message.headerSize] at this
    simp only [load]
    omega
  | malformed hd =>
    refine .inr ⟨?_, .inr ⟨_, hd⟩⟩
    intro m rest hm
    rw [hd] at hm
    cases hm
  | fault hd hc => exact hstop hd hc rfl
  | closed hd hc _ => exact hstop hd hc rfl
  | closedMidMessage hd hc _ => exact hstop hd hc rfl

theorem next_load_lt (r : Reader) : r.next.2.load < r.load ∨ r.next.2.Exhausted := by
  obtain ⟨r', hp, he⟩ := r.next_ends
  rcases he.load_lt with hlt | hx
  · exact .inl (Nat.lt_of_lt_of_le hlt hp.load_le)
  · exact .inr hx

theorem next_of_malformed {size : Nat} (h : Message.decode r.buffer = .malformed size) :
    r.next = (.error (.sizeBelowHeader size Message.headerSize), r) := (Ends.malformed h).next_eq

/-- **Nothing gets past a malformed header**: every later call reports it again. -/
theorem calls_of_malformed {size : Nat} (h : Message.decode r.buffer = .malformed size) (n : Nat) :
    calls n r = (List.replicate n (.error (.sizeBelowHeader size Message.headerSize)), r) := by
  induction n with
  | zero => rfl
  | succ n ih => rw [calls, next_of_malformed h, ih, List.replicate_succ]

theorem Exhausted.next (h : r.Exhausted) : r.next.2 = r := by
  obtain ⟨⟨events⟩, buffer⟩ := r
  rcases h.source with hs | ⟨size, hd⟩
  · subst hs
    rw [Reader.next]
    split
    · rename_i m rest hd
      exact absurd hd (h.front m rest)
    · rfl
    · rfl
  · rw [next_of_malformed hd]

theorem exhausted_of_load_le {n : Nat} (h : r.load ≤ n) : (calls n r).2.Exhausted := by
  induction n generalizing r with
  | zero =>
    obtain ⟨⟨events⟩, buffer⟩ := r
    simp only [load, Nat.le_zero, Nat.add_eq_zero_iff, List.length_eq_zero_iff] at h
    obtain ⟨rfl, hw⟩ := h
    refine ⟨fun _ _ => nofun, .inl ?_⟩
    cases events with
    | nil => rfl
    | cons e rest => simp [Source.weight, ReadEvent.weight] at hw
  | succ n ih =>
    rcases r.next_load_lt with hlt | hx
    · exact ih (Nat.le_of_lt_succ (Nat.lt_of_lt_of_le hlt h))
    · have hstay : ∀ k, (calls k r.next.2).2 = r.next.2 := by
        intro k
        induction k with
        | zero => rfl
        | succ k ihk => rw [calls, hx.next, ihk]
      rw [calls, hstay]
      exact hx

theorem Exhausted.split_stream (h : r.Exhausted) :
    (Message.split (r.buffer ++ r.source.bytes)).1 = [] := by
  rw [Message.split_of_not_complete]
  intro m rest hm
  rcases h.source with hs | ⟨size, hd⟩
  · rw [Source.bytes, hs, List.flatMap_nil, List.append_nil] at hm
    exact h.front m rest hm
  · rw [Message.decode_append_of_malformed hd] at hm
    cases hm

theorem messages_calls (source : Source) (n : Nat) :
    messages (calls n { source }).1 <+: (Message.split source.bytes).1 ∧
      (source.weight ≤ n → messages (calls n { source }).1 = (Message.split source.bytes).1) := by
  obtain ⟨outs, h⟩ := calls_yield n { source }
  have hs := h.split_stream
  rw [List.nil_append] at hs
  refine ⟨⟨_, hs.symm⟩, ?_⟩
  intro hn
  have hx : (calls n { source }).2.Exhausted := by
    refine exhausted_of_load_le ?_
    rwa [load, List.length_nil, Nat.zero_add]
  rw [hs, hx.split_stream, List.append_nil]

theorem decode_of_short {b : Bytes} {h : Message.Header} (hp : Message.Header.parse? b = some h)
    (hs : h.size.toNat < Message.headerSize) : Message.decode b = .malformed h.size.toNat := by
  rw [Message.decode, hp]
  exact if_neg (Nat.not_le.mpr hs)

/-- **Reading conserves the stream.** At every point of any number of calls the messages returned and
the bytes buffered are what the reads have brought, and each failure and each end of the stream
that the reads have reported has been reported once, in order. The messages are those that the
bytes spell, however they came. -/
theorem calls_conserve_stream {source : Source} {n : Nat}
    {results : List (Except MessageError Message)} (h : calls n { source } = (results, r)) :
    (∀ r', r.Passes r' → ∃ outs, source.Reads chunkSize outs r'.source ∧
      (messages results).flatMap Message.toBytes ++ r'.buffer = outs.flatMap Source.brought ∧
      results.filterMap Stop.ofResult? = outs.filterMap Stop.ofRead?) ∧
    (∀ m ∈ messages results, m.encode = .ok m.toBytes) ∧
    (r.next.1 = .error .connectionClosed → r.next.2.buffer = []) ∧
    (∀ k, r.next.1 = .error (.closedMidMessage k) → r.next.2.buffer.length = k ∧ 0 < k) ∧
    (∀ r' short, r.Passes r' → Message.Header.parse? r'.buffer = some short →
      short.size.toNat < Message.headerSize → ∀ k, calls (k + 1) r =
        (List.replicate (k + 1) (.error (.sizeBelowHeader short.size.toNat Message.headerSize)), r')) ∧
    messages results <+: (Message.split source.bytes).1 ∧
    (source.weight ≤ n → messages results = (Message.split source.bytes).1) ∧
    ∀ source' n', source'.bytes = source.bytes → source.weight ≤ n → source'.weight ≤ n' →
      messages (calls n' { source := source' }).1 = messages results := by
  obtain ⟨outs, hy⟩ := calls_yield n { source }
  obtain ⟨hfront, hall⟩ := messages_calls source n
  rw [h] at hy hfront hall
  refine ⟨?_, fun m hm => Message.encode_of_fits (hy.fits m hm), r.next_buffered.1,
    r.next_buffered.2, ?_, hfront, hall, ?_⟩
  · intro r' hp
    obtain ⟨outs', hy'⟩ := hp.yields
    have := hy.trans hy'
    rw [List.append_nil] at this
    exact ⟨_, this.reads, this.bytes.symm, this.stops.symm⟩
  · intro r' short hp hparse hsize k
    have hd := decode_of_short hparse hsize
    rw [calls, hp.next_eq, next_of_malformed hd, calls_of_malformed hd, List.replicate_succ]
  · intro source' n' hbytes hn hn'
    rw [hall hn, (messages_calls source' n').2 hn', hbytes]

/-- Two messages in three pieces, with an interruption, a failure and an end of the stream between
them, and a header that is too short behind them. -/
def patchy : Source :=
  ⟨[.data [0, 5, 0], .fault ⟨.interrupted, "interrupted"⟩, .data [1, 7, 0], .fault ⟨.timedOut, "late"⟩,
    .data [], .data [4, 0, 0, 0, 3, 0, 0, 9]]⟩

theorem patchy_conserves_stream :
    calls 6 { source := patchy } =
      ([.ok ⟨1, [7]⟩, .error (.fault ⟨.timedOut, "late"⟩), .error (.closedMidMessage 1), .ok ⟨0, []⟩,
        .error (.sizeBelowHeader 3 4), .error (.sizeBelowHeader 3 4)],
        ⟨⟨[]⟩, [0, 3, 0, 0, 9]⟩) ∧
      ∃ outs, patchy.Reads chunkSize outs ⟨[]⟩ ∧
        Message.toBytes ⟨1, [7]⟩ ++ Message.toBytes ⟨0, []⟩ ++ [0, 3, 0, 0, 9] =
          outs.flatMap Source.brought := by
  have h : calls 6 { source := patchy } =
      ([.ok ⟨1, [7]⟩, .error (.fault ⟨.timedOut, "late"⟩), .error (.closedMidMessage 1), .ok ⟨0, []⟩,
        .error (.sizeBelowHeader 3 4), .error (.sizeBelowHeader 3 4)],
        ⟨⟨[]⟩, [0, 3, 0, 0, 9]⟩) := by with_unfolding_all rfl
  refine ⟨h, ?_⟩
  obtain ⟨outs, hr, hb, _⟩ := (calls_conserve_stream h).1 _ (.here _)
  exact ⟨outs, hr, hb⟩

end

end Reader

end EtherBench
