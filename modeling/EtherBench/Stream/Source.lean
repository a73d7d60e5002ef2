import EtherBench.Bytes
import EtherBench.Fault

/-!
# Readable streams

A stream is what its next reads will report. One read takes at most the room it
is offered and leaves the rest of a piece for the reads after it; an empty piece
is the end of the stream, and so is every read past the last event.
-/

namespace EtherBench

inductive ReadEvent
  | data (piece : Bytes)
  | fault (f : Fault)
  deriving DecidableEq, Repr

structure Source where
  events : List ReadEvent := []
  deriving DecidableEq, Repr

namespace ReadEvent

def bytes : ReadEvent → Bytes
  | .data d => d
  | .fault _ => []

/-- How much an event can still keep reads busy. -/
def weight (e : ReadEvent) : Nat := e.bytes.length + 1

end ReadEvent

namespace Source

def bytes (s : Source) : Bytes := s.events.flatMap ReadEvent.bytes

def weight (s : Source) : Nat := (s.events.map ReadEvent.weight).foldr (· + ·) 0

/-- One read into `room` bytes; no bytes mean the end of the stream. -/
def read (room : Nat) (s : Source) : Except Fault Bytes × Source :=
  match s.events with
  | [] => (.ok [], s)
  | .fault f :: rest => (.error f, ⟨rest⟩)
  | .data d :: rest =>
    match d.drop room with
    | [] => (.ok d, ⟨rest⟩)
    | left => (.ok (d.take room), ⟨.data left :: rest⟩)

/-- `more` arrives behind what is queued, in one piece with it where that is data, unless the
writing side has closed. -/
def push (more : Bytes) (s : Source) : Source :=
  if more.isEmpty then s
  else
    match s.events.getLast? with
    | some (.data []) => s
    | some (.data d) => ⟨s.events.dropLast ++ [.data (d ++ more)]⟩
    | _ => ⟨s.events ++ [.data more]⟩

def close (s : Source) : Source := ⟨s.events ++ [.data []]⟩

/-- Whether a read would report something at once. -/
def isReady (s : Source) : Bool := !s.events.isEmpty

end Source

end EtherBench
