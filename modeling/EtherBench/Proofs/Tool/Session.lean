import EtherBench.Proofs.Message.CalmStream
import EtherBench.Proofs.Message.Sending

/-!
# A tool from its input to its output

On an input of which no read fails and an output that takes everything, a run is
settled by the octets of the input. The tool answers message after message, to
the end or up to the first that is at fault: one that is malformed or cut off, is
for an interface that the tool does not have, lists too many addresses, or would
have to be answered with a payload that no message holds.
-/

namespace EtherBench

variable {σ : Type}

namespace Event

def Known (count : UInt16) (e : Event) : Prop := ∀ i, e.interface? = some i → 1 ≤ i ∧ i ≤ count

/-- The events that some messages call for. The first control message is the roster, unless there has
been one. -/
def ofMessages (count : UInt16) : Bool → List Message → List Event
  | _, [] => []
  | rosterSeen, m :: ms =>
    (ofMessage count rosterSeen m).1 ++ ofMessages count (rosterSeen || m.kind = Message.control) ms

section
variable {count : UInt16} {rosterSeen : Bool} {m : Message}

theorem known_ofMessage (hm : m.Fits) (count : UInt16) (rosterSeen : Bool) :
    ∀ e ∈ (ofMessage count rosterSeen m).1, e.Known count :=
  interface_of_owed (owed_ofMessage hm count rosterSeen)

theorem ofMessage_refuses_none_iff :
    (ofMessage count rosterSeen m).2 = none ↔
      m.kind ≤ count ∧ (rosterSeen = false → m.kind = Message.control →
        (MacAddress.listOfBytes m.payload).length ≤ count.toNat) := by
  unfold ofMessage
  by_cases hk : m.kind = Message.control
  · have hzero : m.kind ≤ count := by
      rw [hk, UInt16.le_iff_toNat_le]
      exact Nat.zero_le _
    rw [if_pos hk]
    cases rosterSeen with
    | true => simp [hzero]
    | false =>
      by_cases hle : (MacAddress.listOfBytes m.payload).length ≤ count.toNat
      · rw [if_neg Bool.false_ne_true, ofRoster_of_le (by omega)]
        simp [hzero, hle]
      · rw [if_neg Bool.false_ne_true, ofRoster_of_lt (by omega) (by omega)]
        simp [hk, hle]
  · rw [if_neg hk]
    by_cases hlt : count < m.kind
    · simp [hlt, UInt16.not_le.mpr hlt]
    · simp [hlt, UInt16.not_lt.mp hlt, hk]

end

end Event

namespace Tool

/-! ## Answers -/

def respond (tool : Tool σ) : List Event → σ → List Message × σ
  | [], s => ([], s)
  | e :: events, s =>
    match tool e s with
    | .error _ => ([], s)
    | .ok (ms, s) =>
      let (later, s) := respond tool events s
      (ms ++ later, s)

def answers (tool : Tool σ) (count : UInt16) (rosterSeen : Bool) (ms : List Message) (s : σ) : List Message :=
  (tool.respond (Event.ofMessages count rosterSeen ms) s).1

/-- In the states of `I` the tool refuses no event about one of its interfaces. -/
def Serves (tool : Tool σ) (I : σ → Prop) (count : UInt16) : Prop :=
  ∀ e s, I s → e.Known count → ∃ ms s', tool e s = .ok (ms, s') ∧ I s'

structure Accepts (tool : Tool σ) (count : UInt16) (rosterSeen : Bool) (ms : List Message) (s : σ) : Prop where
  whole : ∀ m ∈ ms, m.Fits
  known : ∀ m ∈ ms, m.kind ≤ count
  roster : rosterSeen = false → ∀ m, ms.find? (·.kind = Message.control) = some m →
    (MacAddress.listOfBytes m.payload).length ≤ count.toNat
  fits : ∀ a ∈ tool.answers count rosterSeen ms s, a.Fits

/-- Behind the messages `ms` the octets `bad` are at fault, and the messages `sent` have gone out in
answer to them. -/
inductive StopsAt (tool : Tool σ) (count : UInt16) (rosterSeen : Bool) (ms : List Message) (s : σ) :
    (bad : Bytes) → (sent : List Message) → Prop
  | cut {bad : Bytes} (hne : bad ≠ []) (hd : ∀ m rest, Message.decode bad ≠ .complete m rest) :
      StopsAt tool count rosterSeen ms s bad []
  | message {bad rest : Bytes} {m : Message} {sent left : List Message}
      (hd : Message.decode bad = .complete m rest)
      (hrefused : ¬ tool.Accepts count rosterSeen (ms ++ [m]) s)
      (hanswers : tool.answers count rosterSeen (ms ++ [m]) s =
        tool.answers count rosterSeen ms s ++ sent ++ left)
      (hsent : ∀ a ∈ sent, a.Fits) (hleft : ∀ a ∈ left.head?, ¬ a.Fits) :
      StopsAt tool count rosterSeen ms s bad sent

section
variable {tool : Tool σ} {I : σ → Prop} {count : UInt16} {s : σ} {events : List Event}

theorem Serves.respond (h : tool.Serves I count) (hs : I s) (he : ∀ e ∈ events, e.Known count) :
    I (tool.respond events s).2 ∧ ∀ later, tool.respond (events ++ later) s =
      ((tool.respond events s).1 ++ (tool.respond later (tool.respond events s).2).1,
        (tool.respond later (tool.respond events s).2).2) := by
  induction events generalizing s with
  | nil => exact ⟨hs, fun _ => rfl⟩
  | cons e events ih =>
    rw [List.forall_mem_cons] at he
    obtain ⟨ms, s', hr, hs'⟩ := h e s hs he.1
    obtain ⟨hi, hlater⟩ := ih hs' he.2
    simp only [List.cons_append, Tool.respond, hr]
    refine ⟨hi, fun later => ?_⟩
    rw [hlater later, List.append_assoc]

theorem Serves.answers_cons (h : tool.Serves I count) (hs : I s) {m : Message} (hm : m.Fits)
    (rosterSeen : Bool) (ms : List Message) :
    tool.answers count rosterSeen (m :: ms) s =
      (tool.respond (Event.ofMessage count rosterSeen m).1 s).1 ++
        tool.answers count (rosterSeen || m.kind = Message.control) ms
          (tool.respond (Event.ofMessage count rosterSeen m).1 s).2 := by
  rw [answers, Event.ofMessages, (h.respond hs (Event.known_ofMessage hm _ _)).2]
  rfl

theorem accepts_nil (count : UInt16) (rosterSeen : Bool) (s : σ) : tool.Accepts count rosterSeen [] s :=
  ⟨List.forall_mem_nil _, List.forall_mem_nil _, fun _ _ h => (by cases h), List.forall_mem_nil _⟩

theorem Serves.accepts_cons_iff (h : tool.Serves I count) (hs : I s) {m : Message} (hm : m.Fits)
    {rosterSeen : Bool} {ms : List Message} :
    tool.Accepts count rosterSeen (m :: ms) s ↔
      (Event.ofMessage count rosterSeen m).2 = none ∧
        (∀ a ∈ (tool.respond (Event.ofMessage count rosterSeen m).1 s).1, a.Fits) ∧
        tool.Accepts count (rosterSeen || m.kind = Message.control) ms
          (tool.respond (Event.ofMessage count rosterSeen m).1 s).2 := by
  rw [Event.ofMessage_refuses_none_iff]
  constructor
  · rintro ⟨hwhole, hknown, hroster, hfits⟩
    rw [h.answers_cons hs hm, List.forall_mem_append] at hfits
    rw [List.forall_mem_cons] at hwhole hknown
    refine ⟨⟨hknown.1, fun hseen hk => hroster hseen m ?_⟩, hfits.1, hwhole.2, hknown.2, ?_, hfits.2⟩
    · exact List.find?_cons_of_pos (by simpa using hk)
    · intro hseen first hfirst
      rw [Bool.or_eq_false_iff, decide_eq_false_iff_not] at hseen
      refine hroster hseen.1 first ?_
      rwa [List.find?_cons_of_neg (by simpa using hseen.2)]
  · rintro ⟨⟨hkind, hlist⟩, hfits, hwhole, hknown, hroster, hlater⟩
    refine ⟨List.forall_mem_cons.mpr ⟨hm, hwhole⟩, List.forall_mem_cons.mpr ⟨hkind, hknown⟩, ?_, ?_⟩
    · intro hseen first hfirst
      by_cases hk : m.kind = Message.control
      · rw [List.find?_cons_of_pos (by simpa using hk), Option.some.injEq] at hfirst
        exact hfirst ▸ hlist hseen hk
      · rw [List.find?_cons_of_neg (by simpa using hk)] at hfirst
        exact hroster (by simp [hseen, hk]) first hfirst
    · rw [h.answers_cons hs hm, List.forall_mem_append]
      exact ⟨hfits, hlater⟩

theorem Serves.accepts_of_append (h : tool.Serves I count) (hs : I s) {rosterSeen : Bool}
    {ms later : List Message} (ha : tool.Accepts count rosterSeen (ms ++ later) s) :
    tool.Accepts count rosterSeen ms s := by
  induction ms generalizing s rosterSeen with
  | nil => exact accepts_nil ..
  | cons m ms ih =>
    have hm := ha.whole m (List.mem_cons_self ..)
    rw [List.cons_append, h.accepts_cons_iff hs hm] at ha
    obtain ⟨hdue, hfits, hlater⟩ := ha
    have hs' := (h.respond hs (Event.known_ofMessage hm count rosterSeen)).1
    exact (h.accepts_cons_iff hs hm).mpr ⟨hdue, hfits, ih hs' hlater⟩

theorem Serves.stopsAt_cons (h : tool.Serves I count) (hs : I s) {m : Message} (hm : m.Fits)
    {rosterSeen : Bool} {ms : List Message} {bad : Bytes} {sent : List Message}
    (hstop : tool.StopsAt count (rosterSeen || m.kind = Message.control) ms
      (tool.respond (Event.ofMessage count rosterSeen m).1 s).2 bad sent) :
    tool.StopsAt count rosterSeen (m :: ms) s bad sent := by
  cases hstop with
  | cut hne hd => exact .cut hne hd
  | message hd hrefused hanswers hsent hleft =>
    refine .message hd (fun ha => hrefused ?_) ?_ hsent hleft
    · rw [List.cons_append, h.accepts_cons_iff hs hm] at ha
      exact ha.2.2
    · rw [List.cons_append, h.answers_cons hs hm, hanswers, h.answers_cons hs hm]
      simp only [List.append_assoc]

end

/-! ## What goes out -/

/-- Of some messages those that fit have gone out, up to the first that does not. -/
inductive Sent (out out' : Sink) (ms : List Message) : Except MessageError Unit → List Message → Prop
  | all (fits : ∀ m ∈ ms, m.Fits)
      (data : out'.data.toList = out.data.toList ++ ms.flatMap Message.toBytes) : Sent out out' ms (.ok ()) ms
  | some {sent left : List Message} {m : Message} {e : MessageError} (split : ms = sent ++ m :: left)
      (fits : ∀ m ∈ sent, m.Fits) (large : ¬ m.Fits) (violation : e.IsViolation)
      (data : out'.data.toList = out.data.toList ++ sent.flatMap Message.toBytes) :
      Sent out out' ms (.error e) sent

section
variable {out out' out'' : Sink} {ms ms' sent : List Message} {result : Except MessageError Unit}

theorem Sent.append (h : ∀ m ∈ ms, m.Fits)
    (hd : out'.data.toList = out.data.toList ++ ms.flatMap Message.toBytes)
    (h' : Sent out' out'' ms' result sent) : Sent out out'' (ms ++ ms') result (ms ++ sent) := by
  cases h' with
  | all fits data =>
    refine .all (List.forall_mem_append.mpr ⟨h, fits⟩) ?_
    rw [data, hd, List.flatMap_append, List.append_assoc]
  | some split fits large violation data =>
    refine .some (by rw [split, List.append_assoc]) (List.forall_mem_append.mpr ⟨h, fits⟩) large violation ?_
    rw [data, hd, List.flatMap_append, List.append_assoc]

theorem sent_sendEach (h : out.Accepting) (ms : List Message) :
    ∃ sent, Sent out (out.sendEach ms).2 ms (out.sendEach ms).1 sent := by
  induction ms generalizing out with
  | nil => exact ⟨[], .all (List.forall_mem_nil _) (List.append_nil _).symm⟩
  | cons m ms ih =>
    by_cases hm : m.Fits
    · have hnext := h.after_send m
      rw [h.send hm] at hnext
      obtain ⟨sent, hsent⟩ := ih hnext
      simp only [Sink.sendEach, h.send hm]
      have hfirst : ∀ a ∈ [m], a.Fits := List.forall_mem_singleton.mpr hm
      exact ⟨m :: sent, .append hfirst (by simp) hsent⟩
    · simp only [Sink.sendEach, out.send_of_large hm]
      exact ⟨[], .some (List.nil_append _).symm (List.forall_mem_nil _) hm trivial (List.append_nil _).symm⟩

end

section
variable {tool : Tool σ} {I : σ → Prop} {count : UInt16} {s : σ} {out : Sink}

/-- **The answers to some events go out**, up to the first that does not fit. -/
theorem Serves.deliver (h : tool.Serves I count) (hs : I s) (ho : out.Accepting) {events : List Event}
    (he : ∀ e ∈ events, e.Known count) :
    ∃ result s' out' sent, Event.deliver tool.handler events (s, out) = (result, s', out') ∧
      Sent out out' (tool.respond events s).1 result sent ∧ out'.Accepting ∧
      (result = .ok () → s' = (tool.respond events s).2) := by
  induction events generalizing s out with
  | nil =>
    exact ⟨_, s, out, [], rfl, .all (List.forall_mem_nil _) (List.append_nil _).symm, ho, fun _ => rfl⟩
  | cons e events ih =>
    rw [List.forall_mem_cons] at he
    obtain ⟨ms, s', hr, hs'⟩ := h e s hs he.1
    obtain ⟨sent, hsent⟩ := sent_sendEach ho ms
    have hout := ho.after_sendEach ms
    simp only [Event.deliver, Tool.respond, handler_of_ok hr, hr]
    cases hresult : (out.sendEach ms).1 with
    | error err =>
      rw [hresult] at hsent
      cases hsent with
      | @some _ left m _ split fits large violation data =>
        have hsplit : ms ++ (tool.respond events s').1 =
            sent ++ m :: (left ++ (tool.respond events s').1) := by
          rw [split, List.append_assoc, List.cons_append]
        exact ⟨_, s', _, sent, rfl, .some hsplit fits large violation data, hout, fun h => by cases h⟩
    | ok u =>
      rw [hresult] at hsent
      cases hsent with
      | all fits data =>
        obtain ⟨result, s'', out'', sent', hdeliver, hsent', hout'', hstate⟩ := ih hs' hout he.2
        exact ⟨result, s'', out'', ms ++ sent', hdeliver, hsent'.append fits data, hout'', hstate⟩

theorem Serves.dispatch (h : tool.Serves I count) (hs : I s) (ho : out.Accepting) {m : Message} (hm : m.Fits)
    (reader : Reader) (rosterSeen : Bool) :
    ∃ result s' out' sent left, Dispatcher.dispatch tool.handler m ⟨reader, count, rosterSeen⟩ (s, out) =
        (result, ⟨reader, count, rosterSeen || m.kind = Message.control⟩, s', out') ∧
      (tool.respond (Event.ofMessage count rosterSeen m).1 s).1 = sent ++ left ∧ (∀ a ∈ sent, a.Fits) ∧
      (∀ a ∈ left.head?, ¬ a.Fits) ∧ out'.Accepting ∧
      out'.data.toList = out.data.toList ++ sent.flatMap Message.toBytes ∧
      (result = .ok () ∧ (Event.ofMessage count rosterSeen m).2 = none ∧ left = [] ∧
          s' = (tool.respond (Event.ofMessage count rosterSeen m).1 s).2 ∨
        (∃ e, result = .error e ∧ e.IsViolation) ∧
          ((Event.ofMessage count rosterSeen m).2 = none → left ≠ [])) := by
  obtain ⟨result, s', out', sent, hdeliver, hsent, hout, hstate⟩ :=
    h.deliver hs ho (Event.known_ofMessage hm count rosterSeen)
  have howed := Event.owed_ofMessage hm count rosterSeen
  unfold Dispatcher.dispatch
  generalize Event.ofMessage count rosterSeen m = due at hdeliver hsent hstate howed ⊢
  obtain ⟨events, refusal⟩ := due
  simp only [hdeliver]
  cases hsent with
  | @some _ left a e split fits large violation data =>
    exact ⟨_, s', out', sent, a :: left, rfl, split, fits, by simpa using large, hout, data,
      .inr ⟨⟨e, rfl, violation⟩, fun _ h => nomatch h⟩⟩
  | all fits data =>
    cases refusal with
    | none =>
      exact ⟨_, s', out', _, [], rfl, (List.append_nil _).symm, fits, by simp, hout, data,
        .inl ⟨rfl, rfl, rfl, hstate rfl⟩⟩
    | some e =>
      have hviolation : e.IsViolation := by cases howed <;> trivial
      exact ⟨_, s', out', _, [], rfl, (List.append_nil _).symm, fits, by simp, hout, data,
        .inr ⟨⟨e, rfl, hviolation⟩, nofun⟩⟩

/-- What a run over some octets comes to: all of them are messages and answered, or it is stopped by what
is behind the messages that were. -/
structure Concludes (tool : Tool σ) (count : UInt16) (rosterSeen : Bool) (s : σ) (b : Bytes)
    (result : Except MessageError Unit) (out out' : Sink) (ms : List Message) (bad : Bytes)
    (sent : List Message) : Prop where
  input : b = ms.flatMap Message.toBytes ++ bad
  accepts : tool.Accepts count rosterSeen ms s
  output : out'.data.toList =
    out.data.toList ++ (tool.answers count rosterSeen ms s ++ sent).flatMap Message.toBytes
  ends : result = .ok () ∧ bad = [] ∧ sent = [] ∨
    (∃ e, result = .error e ∧ e.IsViolation) ∧ tool.StopsAt count rosterSeen ms s bad sent

/-- **A run answers the messages of its input**, to the end or to the first that is at fault, in whatever
pieces they come. -/
theorem Serves.run (h : tool.Serves I count) (hs : I s) (ho : out.Accepting) (reader : Reader)
    (hcalm : reader.source.Calm) (rosterSeen : Bool) :
    ∃ ms bad sent, Concludes tool count rosterSeen s (reader.buffer ++ reader.source.stream)
      (Dispatcher.run tool.handler ⟨reader, count, rosterSeen⟩ (s, out)).1 out
      (Dispatcher.run tool.handler ⟨reader, count, rosterSeen⟩ (s, out)).2.2.2 ms bad sent := by
  -- the induction is on the octets that are left
  generalize hb : reader.buffer ++ reader.source.stream = b
  induction b using Message.front_induction generalizing reader s out rosterSeen with
  | complete b m rest hd ih =>
    obtain ⟨hbytes, hm⟩ := Message.eq_of_decode hd
    obtain ⟨reader', hn, hcalm', hrest⟩ := Reader.next_of_calm hcalm hm (hb.trans hbytes)
    obtain ⟨result, s', out', sent, left, hdispatch, hanswers, hsent, hleft, hout, hdata, hends⟩ :=
      h.dispatch hs ho hm reader' rosterSeen
    rw [Dispatcher.run_of_message _ _ (d := ⟨reader, count, rosterSeen⟩) hn, hdispatch]
    rcases hends with ⟨rfl, hdue, rfl, rfl⟩ | ⟨⟨e, rfl, hviolation⟩, hfault⟩
    · rw [List.append_nil] at hanswers
      have hs' := (h.respond hs (Event.known_ofMessage hm count rosterSeen)).1
      obtain ⟨later, bad, sent', hinput, haccepts, houtput, hlater⟩ := ih hs' hout reader' hcalm' _ hrest
      refine ⟨m :: later, bad, sent', ?_, ?_, ?_, ?_⟩
      · rw [hbytes, hinput, List.flatMap_cons, List.append_assoc]
      · exact (h.accepts_cons_iff hs hm).mpr ⟨hdue, hanswers ▸ hsent, haccepts⟩
      · simp only at houtput ⊢
        rw [houtput, hdata, h.answers_cons hs hm, hanswers]
        simp only [List.flatMap_append, List.append_assoc]
      · exact hlater.imp id (And.imp id (h.stopsAt_cons hs hm))
    · refine ⟨[], b, sent, (List.nil_append _).symm, accepts_nil .., hdata, .inr ⟨⟨e, rfl, hviolation⟩, ?_⟩⟩
      have hall : tool.answers count rosterSeen ([] ++ [m]) s = sent ++ left := by
        rw [List.nil_append, h.answers_cons hs hm, hanswers]
        exact List.append_nil _
      refine .message hd ?_ (hall.trans (by rfl)) hsent hleft
      rw [List.nil_append, h.accepts_cons_iff hs hm, hanswers]
      rintro ⟨hdue, hfits, _⟩
      obtain ⟨a, left, rfl⟩ := List.exists_cons_of_ne_nil (hfault hdue)
      exact hleft a rfl (hfits a (by simp))
  | stuck b hstuck =>
    by_cases hnil : b = []
    · obtain ⟨reader', hn⟩ := Reader.next_of_ended hcalm (hb.trans hnil)
      rw [Dispatcher.run_of_error _ _ (d := ⟨reader, count, rosterSeen⟩) hn, if_pos rfl, hnil]
      exact ⟨[], [], [], rfl, accepts_nil .., (List.append_nil _).symm, .inl ⟨rfl, rfl, rfl⟩⟩
    · obtain ⟨e, reader', hn, hviolation⟩ := Reader.next_of_stuck hcalm (hb ▸ hnil) (hb ▸ hstuck)
      rw [Dispatcher.run_of_error _ _ (d := ⟨reader, count, rosterSeen⟩) hn, if_neg]
      · exact ⟨[], b, [], rfl, accepts_nil .., (List.append_nil _).symm,
          .inr ⟨⟨e, rfl, hviolation⟩, .cut hnil hstuck⟩⟩
      · rintro rfl
        exact hviolation

theorem Serves.concludes_of_accepts (h : tool.Serves I count) (hs : I s) {rosterSeen : Bool} {b bad : Bytes}
    {result : Except MessageError Unit} {out' : Sink} {ms all sent : List Message}
    (hc : Concludes tool count rosterSeen s b result out out' ms bad sent)
    (hb : b = all.flatMap Message.toBytes) (ha : tool.Accepts count rosterSeen all s) :
    result = .ok () ∧ ms = all ∧ sent = [] := by
  have hnil : Message.split [] = ([], []) := Message.split_of_not_complete fun _ _ => nofun
  -- the octets come apart into messages in one way only
  have hall : all = ms ++ (Message.split bad).1 ∧ (Message.split bad).2 = [] := by
    have hsplit := Message.split_flatMap_append hc.accepts.whole bad
    rw [← hc.input, hb, ← List.append_nil (all.flatMap Message.toBytes),
      Message.split_flatMap_append ha.whole, hnil, List.append_nil] at hsplit
    injection hsplit with hms hleft
    exact ⟨hms, hleft.symm⟩
  rcases hc.ends with ⟨hok, rfl, hsent⟩ | ⟨_, hstop⟩
  · rw [hnil, List.append_nil] at hall
    exact ⟨hok, hall.1.symm, hsent⟩
  · exfalso
    cases hstop with
    | cut hne hd =>
      rw [Message.split_of_not_complete hd] at hall
      exact hne hall.2
    | message hd hrefused =>
      rw [Message.split_of_complete hd] at hall
      rw [hall.1, ← List.singleton_append, ← List.append_assoc] at ha
      exact hrefused (h.accepts_of_append hs ha)

end

end Tool

end EtherBench
