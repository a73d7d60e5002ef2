import EtherBench.Ethernet.Address
import EtherBench.Message.Reader

/-!
# Dispatching a message stream

A tool with so many interfaces reads a stream of messages. The first control
message is the roster, one hardware address after the other for interfaces
1, 2, …; every later one is operator text, and all other messages are frames. A
message for an interface that the tool does not have ends the stream.
-/

namespace EtherBench

inductive Event
  | roster (interface : UInt16) (address : MacAddress)
  | control (text : Bytes)
  | frame (interface : UInt16) (frame : Bytes)
  deriving DecidableEq, Repr

/-- A consumer of events; it may fail at any of them, and its state goes on. -/
abbrev Handler (σ : Type) := Event → σ → Except MessageError Unit × σ

namespace Event

/-- A list of addresses from interface `n` on, up to the first that is out of range. -/
def ofRoster (count : UInt16) : Nat → List MacAddress → List Event × Option MessageError
  | _, [] => ([], none)
  | n, a :: rest =>
    if count.toNat < n then ([], some (.unknownInterface (UInt16.ofNat (min n 65535)) count))
    else
      let (events, e) := ofRoster count (n + 1) rest
      (.roster (UInt16.ofNat n) a :: events, e)

/-- The events of one message, and the error that ends them, if one does. -/
def ofMessage (count : UInt16) (rosterSeen : Bool) (m : Message) :
    List Event × Option MessageError :=
  if m.kind = Message.control then
    if rosterSeen then ([.control m.payload], none)
    else ofRoster count 1 (MacAddress.listOfBytes m.payload)
  else if count < m.kind then ([], some (.unknownInterface m.kind count))
  else ([.frame m.kind m.payload], none)

/-- Hands events to a consumer, up to the first that it fails at. -/
def deliver {σ : Type} (handler : Handler σ) : List Event → σ → Except MessageError Unit × σ
  | [], s => (.ok (), s)
  | e :: events, s =>
    match handler e s with
    | (.error err, s) => (.error err, s)
    | (.ok (), s) => deliver handler events s

end Event

structure Dispatcher where
  reader : Reader
  count : UInt16
  rosterSeen : Bool := false
  deriving DecidableEq, Repr

namespace Dispatcher

variable {σ : Type}

def ofSource (source : Source) (count : UInt16) : Dispatcher := { reader := { source }, count }

def dispatch (handler : Handler σ) (m : Message) (d : Dispatcher) (s : σ) :
    Except MessageError Unit × Dispatcher × σ :=
  let (events, e) := Event.ofMessage d.count d.rosterSeen m
  let d := { d with rosterSeen := d.rosterSeen || m.kind = Message.control }
  match Event.deliver handler events s with
  | (.error err, s) => (.error err, d, s)
  | (.ok (), s) =>
    match e with
    | some err => (.error err, d, s)
    | none => (.ok (), d, s)

section

theorem next_weight {r r' : Reader} {m : Message} (h : r.next = (.ok m, r')) :
    r'.buffer.length + r'.source.weight < r.buffer.length + r.source.weight := by
  fun_induction Reader.next r with
  | case1 r m' rest hd =>
    injection h with _ h
    subst h
    have := Message.length_of_decode hd
    simp only [Message.headerSize] at this ⊢
    omega
  | case2 => cases h
  | case3 => cases h
  | case4 => cases h
  | case5 r hd b bs source hc ih =>
    have hw := Reader.weight_of_chunk hc
    have := ih h
    simp only [List.length_append, List.length_cons] at this hw
    have he : Source.weight ⟨r.source.events⟩ = r.source.weight := rfl
    rw [he] at hw
    omega

@[simp] theorem dispatch_reader (handler : Handler σ) (m : Message) (d : Dispatcher) (s : σ) :
    (dispatch handler m d s).2.1.reader = d.reader := by
  unfold dispatch
  simp only
  split
  · rfl
  · split <;> rfl

end

/-- Hands over messages until the stream ends. The end at a message boundary is
the good one; all else is reported, and a later run goes on from there. -/
def run (handler : Handler σ) (d : Dispatcher) (s : σ) :
    Except MessageError Unit × Dispatcher × σ :=
  match _h : d.reader.next with
  | (.error .connectionClosed, reader) => (.ok (), { d with reader }, s)
  | (.error e, reader) => (.error e, { d with reader }, s)
  | (.ok m, reader) =>
    match _hd : dispatch handler m { d with reader } s with
    | (.error e, d', s') => (.error e, d', s')
    | (.ok (), d', s') => run handler d' s'
termination_by d.reader.buffer.length + d.reader.source.weight
decreasing_by
  have hr := dispatch_reader handler m { d with reader } s
  rw [_hd] at hr
  simp only at hr
  rw [hr]
  exact next_weight _h

end Dispatcher

end EtherBench
