import EtherBench.Message.Dispatch
import EtherBench.Proofs.Message.Reading

/-!
# What a handler is called with

A handler is called with the events of the messages in stream order, however the
stream is cut, wherever it fails and wherever the handler does. Each message is
dispatched once: the first control message as the roster, in part if the handler
or the number of interfaces stops it, all later ones as text.
-/

namespace EtherBench

abbrev Call := Event × Except MessageError Unit

variable {σ τ : Type}

def Handler.recorded (handler : Handler σ) : Handler (σ × List Call)
  | e, (s, calls) => ((handler e s).1, ((handler e s).2, calls ++ [(e, (handler e s).1)]))

namespace Event

def interface? : Event → Option UInt16
  | .roster i _ => some i
  | .frame i _ => some i
  | .control _ => none

def rosterFrom (n : Nat) (addresses : List MacAddress) : List Event :=
  (addresses.zipIdx n).map fun a => .roster (UInt16.ofNat a.2) a.1

/-- What a message calls for: events, and perhaps an error after them. -/
inductive Owed (count : UInt16) (rosterSeen : Bool) (m : Message) :
    List Event → Option MessageError → Prop
  | frame (hpos : 1 ≤ m.kind) (hle : m.kind ≤ count) :
      Owed count rosterSeen m [.frame m.kind m.payload] none
  | unknown (hlt : count < m.kind) :
      Owed count rosterSeen m [] (some (.unknownInterface m.kind count))
  | control (hk : m.kind = Message.control) (hs : rosterSeen = true) :
      Owed count rosterSeen m [.control m.payload] none
  | roster {addresses : List MacAddress} {odd : Bytes} (hk : m.kind = Message.control)
      (hs : rosterSeen = false) (hp : m.payload = addresses.flatMap MacAddress.toBytes ++ odd)
      (ho : odd.length < MacAddress.size) (hle : addresses.length ≤ count.toNat) :
      Owed count rosterSeen m (rosterFrom 1 addresses) none
  | longRoster {addresses : List MacAddress} {odd : Bytes} (hk : m.kind = Message.control)
      (hs : rosterSeen = false) (hp : m.payload = addresses.flatMap MacAddress.toBytes ++ odd)
      (ho : odd.length < MacAddress.size) (hlt : count.toNat < addresses.length) :
      Owed count rosterSeen m (rosterFrom 1 (addresses.take count.toNat))
        (some (.unknownInterface (count + 1) count))

/-- The calls made for some events, and the result: all of them and then the error that is due, or
those up to the first that the handler fails at. -/
inductive Called (events : List Event) :
    Option MessageError → List Call → Except MessageError Unit → Prop
  | all : Called events none (events.map (·, .ok ())) (.ok ())
  | refused {e : MessageError} : Called events (some e) (events.map (·, .ok ())) (.error e)
  | failed {refusal : Option MessageError} {before after : List Event} {e : Event}
      {err : MessageError} (h : events = before ++ e :: after) :
      Called events refusal (before.map (·, .ok ()) ++ [(e, .error err)]) (.error err)

end Event

structure Answer where
  message : Message
  calls : List Call
  result : Except MessageError Unit

namespace Dispatcher

/-- Every message got the calls that it was owed, the first control message as the roster. -/
def Answered (count : UInt16) : Bool → List Answer → Prop
  | _, [] => True
  | rosterSeen, a :: later =>
    (∃ events refusal, Event.Owed count rosterSeen a.message events refusal ∧
      Event.Called events refusal a.calls a.result) ∧
    Answered count (rosterSeen || a.message.kind = Message.control) later

/-- A run takes the results of its reader one by one. A message is answered, and if it is answered well
the next result is asked for; a result that is no message ends the run, well if it is the end of the
stream. -/
inductive Concluded : List Answer → List (Except MessageError Message) →
    Except MessageError Unit → Prop
  | closed : Concluded [] [.error .connectionClosed] (.ok ())
  | failure {e : MessageError} (he : e ≠ .connectionClosed) : Concluded [] [.error e] (.error e)
  | answer {a : Answer} {e : MessageError} (ha : a.result = .error e) :
      Concluded [a] [.ok a.message] (.error e)
  | next {a : Answer} {answers : List Answer} {results : List (Except MessageError Message)}
      {result : Except MessageError Unit} (ha : a.result = .ok ())
      (later : Concluded answers results result) :
      Concluded (a :: answers) (.ok a.message :: results) result

structure Round (d : Dispatcher) (answers : List Answer) (result : Except MessageError Unit)
    (d' : Dispatcher) : Prop where
  count : d'.count = d.count
  rosterSeen : d'.rosterSeen =
    (d.rosterSeen || answers.any fun a => a.message.kind = Message.control)
  answered : Answered d.count d.rosterSeen answers
  reader : ∃ outs results, d.reader.Gives results d'.reader ∧ d.reader.Yields outs results d'.reader ∧
    Concluded answers results result ∧ (result = .ok () ↔ .ok [] ∈ outs ∧ d'.reader.buffer = [])

inductive Rounds : Dispatcher → List (List Answer × Except MessageError Unit) → Dispatcher → Prop
  | none (d : Dispatcher) : Rounds d [] d
  | next {d d' d'' : Dispatcher} {answers : List Answer} {result : Except MessageError Unit}
      {rounds : List (List Answer × Except MessageError Unit)} (h : Round d answers result d')
      (later : Rounds d' rounds d'') : Rounds d ((answers, result) :: rounds) d''

def runs (handler : Handler σ) :
    Nat → Dispatcher → σ → List (Except MessageError Unit) × Dispatcher × σ
  | 0, d, s => ([], d, s)
  | n + 1, d, s =>
    match run handler d s with
    | (result, d, s) =>
      match runs handler n d s with
      | (results, d, s) => (result :: results, d, s)

end Dispatcher

/-! ## Events of a message -/

section
variable {count : UInt16} {addresses : List MacAddress}

theorem MacAddress.listOfBytes_spec (b : Bytes) : ∃ odd,
    b = (MacAddress.listOfBytes b).flatMap MacAddress.toBytes ++ odd ∧ odd.length < MacAddress.size := by
  fun_induction MacAddress.listOfBytes b with
  | case1 a b c d e f rest ih =>
    obtain ⟨odd, hb, ho⟩ := ih
    refine ⟨odd, ?_, ho⟩
    rw [List.flatMap_cons, List.append_assoc, ← hb]
    rfl
  | case2 b h =>
    refine ⟨b, rfl, ?_⟩
    match b with
    | [] | [_] | [_, _] | [_, _, _] | [_, _, _, _] | [_, _, _, _, _] => simp [MacAddress.size]
    | a :: b :: c :: d :: e :: f :: rest => exact absurd rfl (h a b c d e f rest)

theorem Event.ofRoster_of_le {n : Nat} (h : n + addresses.length ≤ count.toNat + 1) :
    Event.ofRoster count n addresses = (Event.rosterFrom n addresses, none) := by
  induction addresses generalizing n with
  | nil => rfl
  | cons a rest ih =>
    rw [List.length_cons] at h
    rw [Event.ofRoster, if_neg (by omega), ih (by omega)]
    rfl

theorem Event.ofRoster_of_lt {n : Nat} (hn : n ≤ count.toNat + 1)
    (h : count.toNat + 1 < n + addresses.length) :
    Event.ofRoster count n addresses =
      (Event.rosterFrom n (addresses.take (count.toNat + 1 - n)),
        some (.unknownInterface (UInt16.ofNat (min (count.toNat + 1) 65535)) count)) := by
  induction addresses generalizing n with
  | nil =>
    rw [List.length_nil] at h
    omega
  | cons a rest ih =>
    rw [List.length_cons] at h
    rw [Event.ofRoster]
    by_cases hlt : count.toNat < n
    · have hn : n = count.toNat + 1 := by omega
      subst hn
      rw [if_pos hlt, Nat.sub_self]
      rfl
    · rw [if_neg hlt, ih (by omega) (by omega),
        show count.toNat + 1 - n = (count.toNat + 1 - (n + 1)) + 1 by omega, List.take_succ_cons]
      rfl

theorem Event.length_addresses {m : Message} (hm : m.Fits) {odd : Bytes}
    (hp : m.payload = addresses.flatMap MacAddress.toBytes ++ odd) :
    addresses.length ≤ Message.maxInterfaces := by
  have hlen : (addresses.flatMap MacAddress.toBytes).length = addresses.length * MacAddress.size := by
    simp only [List.length_flatMap, MacAddress.length_toBytes, List.map_const', List.sum_replicate_nat]
  rw [Message.Fits, hp, List.length_append, hlen] at hm
  simp only [Message.maxInterfaces, MacAddress.size] at hm ⊢
  omega

theorem Event.owed_ofMessage {m : Message} (hm : m.Fits) (count : UInt16) (rosterSeen : Bool) :
    Event.Owed count rosterSeen m (Event.ofMessage count rosterSeen m).1
      (Event.ofMessage count rosterSeen m).2 := by
  unfold Event.ofMessage
  by_cases hk : m.kind = Message.control
  · rw [if_pos hk]
    cases rosterSeen with
    | true => exact .control hk rfl
    | false =>
      obtain ⟨odd, hp, ho⟩ := MacAddress.listOfBytes_spec m.payload
      by_cases hle : (MacAddress.listOfBytes m.payload).length ≤ count.toNat
      · rw [if_neg Bool.false_ne_true, Event.ofRoster_of_le (by omega)]
        exact .roster hk rfl hp ho hle
      · have hlt : count.toNat < (MacAddress.listOfBytes m.payload).length := Nat.not_le.mp hle
        have hnext : UInt16.ofNat (min (count.toNat + 1) 65535) = count + 1 := by
          -- one message has no room for as many addresses as there are numbers
          have hmax := Event.length_addresses hm hp
          apply UInt16.toNat_inj.mp
          rw [UInt16.toNat_ofNat', UInt16.toNat_add]
          simp only [Message.maxInterfaces, Message.maxPayload, Message.maxSize, Message.headerSize,
            UInt16.toNat_one] at hmax ⊢
          omega
        rw [if_neg Bool.false_ne_true, Event.ofRoster_of_lt (by omega) (by omega), hnext,
          Nat.add_sub_cancel]
        exact .longRoster hk rfl hp ho hlt
  · rw [if_neg hk]
    by_cases hlt : count < m.kind
    · rw [if_pos hlt]
      exact .unknown hlt
    · rw [if_neg hlt]
      refine .frame ?_ (UInt16.not_lt.mp hlt)
      rw [UInt16.le_iff_toNat_le]
      exact Nat.pos_of_ne_zero fun h₀ => hk (UInt16.toNat_inj.mp h₀)

theorem Event.interface_of_owed {rosterSeen : Bool} {m : Message} {events : List Event}
    {refusal : Option MessageError} (h : Event.Owed count rosterSeen m events refusal) :
    ∀ e ∈ events, ∀ i, e.interface? = some i → 1 ≤ i ∧ i ≤ count := by
  have hroster : ∀ addresses : List MacAddress, addresses.length ≤ count.toNat →
      ∀ e ∈ Event.rosterFrom 1 addresses, ∀ i, e.interface? = some i → 1 ≤ i ∧ i ≤ count := by
    intro addresses hle e he i hi
    obtain ⟨⟨a, k⟩, ha, rfl⟩ := List.mem_map.mp he
    obtain ⟨hlo, hhi, _⟩ := List.mem_zipIdx ha
    injection hi with hi
    subst hi
    have hmax : count.toNat < 65536 := count.toNat_lt
    rw [UInt16.le_iff_toNat_le, UInt16.le_iff_toNat_le, UInt16.toNat_ofNat', UInt16.toNat_one]
    omega
  cases h with
  | frame hpos hle =>
    intro e he i hi
    rw [List.mem_singleton.mp he] at hi
    injection hi with hi
    exact hi ▸ ⟨hpos, hle⟩
  | unknown _ => exact fun _ he => nomatch he
  | control _ _ =>
    intro e he i hi
    rw [List.mem_singleton.mp he] at hi
    cases hi
  | roster _ _ _ _ hle => exact hroster _ hle
  | longRoster _ _ _ _ _ => exact hroster _ (List.length_take_le ..)

theorem Event.mem_of_called {events : List Event} {refusal : Option MessageError} {calls : List Call}
    {result : Except MessageError Unit} (h : Event.Called events refusal calls result) :
    ∀ c ∈ calls, c.1 ∈ events := by
  have hmap : ∀ before : List Event, ∀ c ∈ before.map ((·, .ok ()) : Event → Call), c.1 ∈ before := by
    intro before c hc
    obtain ⟨e, he, rfl⟩ := List.mem_map.mp hc
    exact he
  cases h with
  | all | refused => exact hmap events
  | failed h =>
    intro c hc
    rw [h]
    rcases List.mem_append.mp hc with hc | hc
    · exact List.mem_append_left _ (hmap _ c hc)
    · rw [List.mem_singleton.mp hc]
      exact List.mem_append_right _ (List.mem_cons_self ..)

/-! ## One message -/

theorem Event.deliver_recorded (handler : Handler σ) (events : List Event) (s : σ) (log : List Call) :
    ∃ calls, Event.deliver handler.recorded events (s, log) =
        ((Event.deliver handler events s).1, (Event.deliver handler events s).2, log ++ calls) ∧
      ((Event.deliver handler events s).1 = .ok () ∧ calls = events.map (·, .ok ()) ∨
        ∃ before after e err, events = before ++ e :: after ∧
          calls = before.map (·, .ok ()) ++ [(e, .error err)] ∧
          (Event.deliver handler events s).1 = .error err) := by
  induction events generalizing s log with
  | nil => exact ⟨[], by rw [List.append_nil]; rfl, .inl ⟨rfl, rfl⟩⟩
  | cons e events ih =>
    cases hres : handler e s with
    | mk result s' =>
      cases result with
      | error err =>
        refine ⟨[(e, .error err)], ?_, .inr ⟨[], events, e, err, rfl, rfl, ?_⟩⟩
        · simp only [Event.deliver, Handler.recorded, hres]
        · simp only [Event.deliver, hres]
      | ok u =>
        obtain ⟨calls, hc, hends⟩ := ih s' (log ++ [(e, .ok ())])
        simp only [Event.deliver, Handler.recorded, hres, hc]
        refine ⟨(e, .ok ()) :: calls, ?_, ?_⟩
        · rw [List.append_assoc]
          rfl
        · rcases hends with ⟨hok, rfl⟩ | ⟨before, after, x, err, rfl, rfl, herr⟩
          · exact .inl ⟨hok, rfl⟩
          · exact .inr ⟨e :: before, after, x, err, rfl, rfl, herr⟩

end

namespace Dispatcher

/-- **A message gets the calls that it is owed**, and the roster is not asked for again. -/
theorem dispatch_recorded (handler : Handler σ) {m : Message} (hm : m.Fits) (d : Dispatcher) (s : σ)
    (log : List Call) :
    (dispatch handler m d s).2.1 =
        { d with rosterSeen := d.rosterSeen || m.kind = Message.control } ∧
      ∃ calls, dispatch handler.recorded m d (s, log) =
          ((dispatch handler m d s).1, (dispatch handler m d s).2.1, (dispatch handler m d s).2.2,
            log ++ calls) ∧
        ∃ events refusal, Event.Owed d.count d.rosterSeen m events refusal ∧
          Event.Called events refusal calls (dispatch handler m d s).1 := by
  have howed := Event.owed_ofMessage hm d.count d.rosterSeen
  unfold dispatch
  generalize Event.ofMessage d.count d.rosterSeen m = due at howed
  obtain ⟨events, refusal⟩ := due
  obtain ⟨calls, hrec, hends⟩ := Event.deliver_recorded handler events s log
  simp only [hrec]
  cases hd : Event.deliver handler events s with
  | mk result s' =>
    rw [hd] at hends
    rcases hends with ⟨rfl, rfl⟩ | ⟨before, after, e, err, he, rfl, rfl⟩
    · cases refusal with
      | none => exact ⟨rfl, _, rfl, events, none, howed, .all⟩
      | some refused => exact ⟨rfl, _, rfl, events, some refused, howed, .refused⟩
    · exact ⟨rfl, _, rfl, events, refusal, howed, .failed he⟩

/-! ## One run -/

section
variable {d d' : Dispatcher} {answers : List Answer} {result : Except MessageError Unit}
  {outs : List (Except Fault Bytes)} {results : List (Except MessageError Message)} {reader : Reader}

theorem Concluded.messages (h : Concluded answers results result) :
    Reader.messages results = answers.map (·.message) := by
  induction h with
  | closed | failure | answer => rfl
  | next _ _ ih => exact congrArg (_ :: ·) ih

/-- A run ends well where its reader met the end of the stream with nothing buffered. -/
theorem Concluded.ok_iff (h : Concluded answers results result) {r r' : Reader}
    (hg : r.Gives results r') :
    result = .ok () ↔ Stop.ended ∈ results.filterMap Stop.ofResult? ∧ r'.buffer = [] := by
  induction h generalizing r with
  | closed =>
    obtain _ | ⟨_, he, _ | _⟩ := hg
    exact ⟨fun _ => ⟨List.mem_singleton_self _, he.buffered.1 rfl⟩, fun _ => rfl⟩
  | @failure e hne =>
    obtain _ | ⟨_, he, _ | _⟩ := hg
    constructor
    · intro h
      cases h
    rintro ⟨hended, hb⟩
    cases e with
    | connectionClosed => exact absurd rfl hne
    | closedMidMessage k =>
      obtain ⟨hlen, hpos⟩ := he.buffered.2 k rfl
      rw [hb, List.length_nil] at hlen
      omega
    | sizeBelowHeader | payloadTooLarge | unknownInterface | fault => simp [Stop.ofResult?] at hended
  | answer =>
    constructor
    · intro h
      cases h
    · rintro ⟨hended, _⟩
      cases hended
  | next _ _ ih =>
    obtain _ | ⟨_, _, hg⟩ := hg
    exact ih hg

theorem Round.of_concluded (hcount : d'.count = d.count)
    (hseen : d'.rosterSeen = (d.rosterSeen || answers.any fun a => a.message.kind = Message.control))
    (hanswered : Answered d.count d.rosterSeen answers) (hg : d.reader.Gives results d'.reader)
    (hc : Concluded answers results result) : Round d answers result d' := by
  obtain ⟨outs, hy⟩ := hg.yields
  refine ⟨hcount, hseen, hanswered, outs, results, hg, hy, hc, ?_⟩
  rw [hc.ok_iff hg, hy.mem_ended]

theorem Round.of_error {e : MessageError} (hn : d.reader.next = (.error e, reader)) :
    Round d [] (if e = .connectionClosed then .ok () else .error e) { d with reader } := by
  refine .of_concluded rfl (Bool.or_false _).symm trivial (Reader.gives_of_next hn (.none _)) ?_
  split
  · rename_i he
    rw [he]
    exact .closed
  · rename_i he
    exact .failure he

theorem Round.cons {a : Answer} {events : List Event} {refusal : Option MessageError}
    (hn : d.reader.next = (.ok a.message, reader))
    (howed : Event.Owed d.count d.rosterSeen a.message events refusal)
    (hcalled : Event.Called events refusal a.calls a.result) (ha : a.result = .ok ())
    (h : Round ⟨reader, d.count, d.rosterSeen || a.message.kind = Message.control⟩ answers result d') :
    Round d (a :: answers) result d' := by
  obtain ⟨_, results, hg, _, hc, _⟩ := h.reader
  refine .of_concluded h.count ?_ ⟨⟨events, refusal, howed, hcalled⟩, h.answered⟩
    (Reader.gives_of_next hn hg) (.next ha hc)
  rw [h.rosterSeen, List.any_cons, Bool.or_assoc]

theorem Round.last {a : Answer} {events : List Event} {refusal : Option MessageError} {e : MessageError}
    (hn : d.reader.next = (.ok a.message, reader))
    (howed : Event.Owed d.count d.rosterSeen a.message events refusal)
    (hcalled : Event.Called events refusal a.calls a.result) (ha : a.result = .error e) :
    Round d [a] (.error e) ⟨reader, d.count, d.rosterSeen || a.message.kind = Message.control⟩ := by
  refine .of_concluded rfl ?_ ⟨⟨events, refusal, howed, hcalled⟩, trivial⟩
    (Reader.gives_of_next hn (.none _)) (.answer ha)
  rw [List.any_cons, List.any_nil, Bool.or_false]

theorem fits_of_next {r : Reader} {m : Message} (hn : r.next = (.ok m, reader)) : m.Fits := by
  obtain ⟨outs, hy⟩ := (Reader.gives_of_next hn (.none _)).yields
  exact hy.fits m (List.mem_cons_self ..)

end

section
variable {d : Dispatcher} {reader : Reader}

theorem run_of_error (handler : Handler σ) (s : σ) {e : MessageError}
    (hn : d.reader.next = (.error e, reader)) :
    run handler d s = (if e = .connectionClosed then .ok () else .error e, { d with reader }, s) := by
  rw [run]
  split
  · rename_i he
    rw [hn] at he
    cases he
    rfl
  · rename_i hne he
    rw [hn] at he
    cases he
    rw [if_neg hne]
  · rename_i he
    rw [hn] at he
    cases he

theorem run_of_message (handler : Handler σ) (s : σ) {m : Message}
    (hn : d.reader.next = (.ok m, reader)) :
    run handler d s =
      match dispatch handler m { d with reader } s with
      | (.error e, d', s') => (.error e, d', s')
      | (.ok (), d', s') => run handler d' s' := by
  rw [run]
  split
  · rename_i he
    rw [hn] at he
    cases he
  · rename_i he
    rw [hn] at he
    cases he
  · rename_i he
    rw [hn] at he
    cases he
    split <;> rename_i hd <;> rw [hd]

end

/-- **A run answers the messages that it reads**, each once and in order, up to the first answer that
is an error. It ends well where a read finds the end of the stream and nothing is buffered, and
nowhere else. -/
theorem run_recorded (handler : Handler σ) (d : Dispatcher) (s : σ) (log : List Call) :
    ∃ answers, Round d answers (run handler d s).1 (run handler d s).2.1 ∧
      run handler.recorded d (s, log) = ((run handler d s).1, (run handler d s).2.1,
        (run handler d s).2.2, log ++ answers.flatMap (·.calls)) := by
  fun_induction run handler d s generalizing log with
  | case1 d s reader hn =>
    refine ⟨[], Round.of_error hn, ?_⟩
    rw [run_of_error _ _ hn, List.flatMap_nil, List.append_nil]
    rfl
  | case2 d s reader e hne hn =>
    have h := Round.of_error hn
    rw [if_neg hne] at h
    refine ⟨[], h, ?_⟩
    rw [run_of_error _ _ hn, if_neg hne, List.flatMap_nil, List.append_nil]
  | case3 d s m reader hn e d' s' hd =>
    obtain ⟨hst, calls, hrec, events, refusal, howed, hcalled⟩ :=
      dispatch_recorded handler (fits_of_next hn) { d with reader } s log
    rw [hd] at hst hcalled hrec
    simp only at hst
    subst hst
    refine ⟨[⟨m, calls, .error e⟩], Round.last hn howed hcalled rfl, ?_⟩
    rw [run_of_message _ _ hn, hrec, List.flatMap_singleton]
  | case4 d s m reader hn d' s' hd ih =>
    obtain ⟨hst, calls, hrec, events, refusal, howed, hcalled⟩ :=
      dispatch_recorded handler (fits_of_next hn) { d with reader } s log
    rw [hd] at hst hcalled hrec
    simp only at hst
    subst hst
    obtain ⟨answers, h, hcalls⟩ := ih (log ++ calls)
    refine ⟨⟨m, calls, .ok ()⟩ :: answers, h.cons hn howed hcalled rfl, ?_⟩
    rw [run_of_message _ _ hn, hrec, List.flatMap_cons, ← List.append_assoc]
    exact hcalls

/-! ## Many runs -/

theorem answered_append {count : UInt16} {rosterSeen : Bool} {answers later : List Answer}
    (h : Answered count rosterSeen answers)
    (hl : Answered count (rosterSeen || answers.any fun a => a.message.kind = Message.control) later) :
    Answered count rosterSeen (answers ++ later) := by
  induction answers generalizing rosterSeen with
  | nil =>
    rw [List.any_nil, Bool.or_false] at hl
    exact hl
  | cons a answers ih =>
    rw [List.any_cons, ← Bool.or_assoc] at hl
    exact ⟨h.1, ih h.2 hl⟩

theorem Rounds.history {d d' : Dispatcher} {rounds : List (List Answer × Except MessageError Unit)}
    (h : Rounds d rounds d') :
    Answered d.count d.rosterSeen (rounds.flatMap (·.1)) ∧
      ∃ results, d.reader.Gives results d'.reader ∧
        Reader.messages results = (rounds.flatMap (·.1)).map (·.message) := by
  induction h with
  | none d => exact ⟨trivial, [], .none _, rfl⟩
  | @next d d' d'' answers result rounds h _ ih =>
    obtain ⟨hans, results', hg', hm'⟩ := ih
    obtain ⟨_, results, hg, _, hc, _⟩ := h.reader
    rw [h.count, h.rosterSeen] at hans
    refine ⟨answered_append h.answered hans, _, hg.append hg', ?_⟩
    rw [Reader.messages_append, hc.messages, hm', List.flatMap_cons, List.map_append]

theorem Answered.interface {count : UInt16} {rosterSeen : Bool} {answers : List Answer}
    (h : Answered count rosterSeen answers) :
    ∀ a ∈ answers, ∀ c ∈ a.calls, ∀ i, c.1.interface? = some i → 1 ≤ i ∧ i ≤ count := by
  induction answers generalizing rosterSeen with
  | nil => exact fun _ ha => nomatch ha
  | cons x answers ih =>
    obtain ⟨⟨events, refusal, howed, hcalled⟩, hl⟩ := h
    intro a ha
    rcases List.mem_cons.mp ha with rfl | ha
    · exact fun c hc => Event.interface_of_owed howed _ (Event.mem_of_called hcalled c hc)
    · exact ih hl a ha

theorem runs_recorded (handler : Handler σ) (n : Nat) (d : Dispatcher) (s : σ) (log : List Call) :
    ∃ rounds d' s', Rounds d rounds d' ∧ runs handler n d s = (rounds.map (·.2), d', s') ∧
      runs handler.recorded n d (s, log) =
        (rounds.map (·.2), d', s', log ++ (rounds.flatMap (·.1)).flatMap (·.calls)) := by
  induction n generalizing d s log with
  | zero => exact ⟨[], d, s, .none d, rfl, by rw [List.flatMap_nil, List.flatMap_nil, List.append_nil]; rfl⟩
  | succ n ih =>
    obtain ⟨answers, hround, hrec⟩ := run_recorded handler d s log
    obtain ⟨rounds, d', s', hrounds, hruns, hrecs⟩ :=
      ih (run handler d s).2.1 (run handler d s).2.2 (log ++ answers.flatMap (·.calls))
    refine ⟨(answers, (run handler d s).1) :: rounds, d', s', .next hround hrounds, ?_, ?_⟩
    · rw [runs]
      simp only [hruns, List.map_cons]
    · rw [runs]
      simp only [hrec, hrecs, List.map_cons, List.flatMap_cons, List.flatMap_append, List.append_assoc]

/-- **Every message of the stream is answered once and in order**, over any number of runs and whatever
reads and handler do. The calls noted down are those that the messages are owed, each run goes on until
an answer or the reader ends it, and no run takes anything from the reader but what it answers or
reports. What is not answered yet is still to be read. -/
theorem runs_answer_stream (handler : Handler σ) (source : Source) (count : UInt16) (s : σ) (n : Nat) :
    ∃ rounds d s', Rounds (ofSource source count) rounds d ∧
      runs handler n (ofSource source count) s = (rounds.map (·.2), d, s') ∧
      runs handler.recorded n (ofSource source count) (s, []) =
        (rounds.map (·.2), d, s', (rounds.flatMap (·.1)).flatMap (·.calls)) ∧
      Answered count false (rounds.flatMap (·.1)) ∧
      (∀ a ∈ rounds.flatMap (·.1), ∀ c ∈ a.calls, ∀ i, c.1.interface? = some i → 1 ≤ i ∧ i ≤ count) ∧
      (∃ results, Reader.calls results.length { source } = (results, d.reader) ∧
        Reader.messages results = (rounds.flatMap (·.1)).map (·.message)) ∧
      (∃ outs, source.Reads Reader.chunkSize outs d.reader.source ∧
        outs.flatMap Source.brought =
          (rounds.flatMap (·.1)).flatMap (·.message.toBytes) ++ d.reader.buffer) ∧
      (Message.split source.bytes).1 = (rounds.flatMap (·.1)).map (·.message) ++
        (Message.split (d.reader.buffer ++ d.reader.source.bytes)).1 := by
  obtain ⟨rounds, d, s', hrounds, hruns, hrec⟩ := runs_recorded handler n (ofSource source count) s []
  obtain ⟨hans, results, hg, hm⟩ := hrounds.history
  obtain ⟨outs, hy⟩ := hg.yields
  refine ⟨rounds, d, s', hrounds, hruns, hrec, hans, hans.interface,
    ⟨results, Reader.gives_iff.mp hg, hm⟩, ⟨outs, hy.reads, ?_⟩, ?_⟩
  · have hb := hy.bytes
    rw [hm, List.flatMap_map] at hb
    exact hb
  · have hs := hy.split_stream
    rw [hm] at hs
    exact hs

def stumble : Handler Nat := fun _ k => (if k = 1 then .error .connectionClosed else .ok (), k + 1)

/-- A roster of three entries, and a text in two pieces. -/
def threeEntries : Source :=
  ⟨[.data ([0, 22, 0, 0] ++ List.replicate 18 2 ++ [0, 5, 0]), .data [0, 109]]⟩

/-- The failure of the handler ends the first run and is not taken for the end of the stream. The second
run goes on behind the roster, and the next control message is text. -/
theorem stumble_loses_third_entry :
    ∃ rounds d, Rounds (ofSource threeEntries 3) rounds d ∧
      rounds.map (·.2) = [.error .connectionClosed, .ok ()] ∧
      (rounds.flatMap (·.1)).flatMap (·.calls) =
        [(.roster 1 ⟨Vector.replicate 6 2⟩, .ok ()),
          (.roster 2 ⟨Vector.replicate 6 2⟩, .error .connectionClosed), (.control [109], .ok ())] := by
  obtain ⟨rounds, d, s', hrounds, _, hrec, _⟩ := runs_answer_stream stumble threeEntries 3 0 2
  refine ⟨rounds, d, hrounds, ?_, ?_⟩
  · have hresults : (runs stumble.recorded 2 (ofSource threeEntries 3) (0, [])).1 =
        [.error .connectionClosed, .ok ()] := by with_unfolding_all rfl
    rwa [hrec] at hresults
  · have hcalls : (runs stumble.recorded 2 (ofSource threeEntries 3) (0, [])).2.2.2 =
        [(.roster 1 ⟨Vector.replicate 6 2⟩, .ok ()),
          (.roster 2 ⟨Vector.replicate 6 2⟩, .error .connectionClosed), (.control [109], .ok ())] := by
      with_unfolding_all rfl
    rwa [hrec] at hcalls

end Dispatcher

end EtherBench
