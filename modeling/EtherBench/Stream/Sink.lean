import EtherBench.Bytes
import EtherBench.Fault

/-!
# Writable streams

A stream is what its next writes and flushes will report, together with what it
has taken so far. A write takes at most so many bytes; taking none of them is a
refusal. Past the last scripted outcome everything is taken.
-/

namespace EtherBench

inductive WriteEvent
  | accept (limit : Nat)
  | fault (f : Fault)
  deriving DecidableEq, Repr

inductive FlushEvent
  | done
  | fault (f : Fault)
  deriving DecidableEq, Repr

structure Sink where
  writes : List WriteEvent := []
  flushes : List FlushEvent := []
  data : Array UInt8 := #[]
  flushed : Nat := 0
  deriving DecidableEq, Repr

inductive Delivery
  | complete
  | refused
  | failed (f : Fault)
  deriving DecidableEq, Repr

/-- What became of an offer: how it ended, what was taken, and the outcomes left for later. -/
structure Offer where
  outcome : Delivery
  taken : Bytes
  writes : List WriteEvent
  deriving DecidableEq, Repr

namespace Offer

/-- Offers `b` until all of it is taken. An interruption changes nothing. -/
def make : List WriteEvent → Bytes → Offer
  | ws, [] => ⟨.complete, [], ws⟩
  | [], b => ⟨.complete, b, []⟩
  | .accept 0 :: ws, _ => ⟨.refused, [], ws⟩
  | .accept (n + 1) :: ws, b =>
    let later := make ws (b.drop (n + 1))
    { later with taken := b.take (n + 1) ++ later.taken }
  | .fault f :: ws, b => if f.isInterruption then make ws b else ⟨.failed f, [], ws⟩

end Offer

namespace Sink

def write (b : Bytes) : Sink → Except Fault Nat × Sink
  | ⟨[], fs, data, n⟩ => (.ok b.length, ⟨[], fs, data ++ b, n⟩)
  | ⟨.accept k :: ws, fs, data, n⟩ => (.ok (min k b.length), ⟨ws, fs, data ++ b.take k, n⟩)
  | ⟨.fault f :: ws, fs, data, n⟩ => (.error f, ⟨ws, fs, data, n⟩)

def writeAll (b : Bytes) : Sink → Delivery × Sink
  | ⟨ws, fs, data, n⟩ =>
    let offer := Offer.make ws b
    (offer.outcome, ⟨offer.writes, fs, data ++ offer.taken, n⟩)

def flushOnce : Sink → Except Fault Unit × Sink
  | ⟨ws, [], data, n⟩ => (.ok (), ⟨ws, [], data, n + 1⟩)
  | ⟨ws, .done :: fs, data, n⟩ => (.ok (), ⟨ws, fs, data, n + 1⟩)
  | ⟨ws, .fault f :: fs, data, n⟩ => (.error f, ⟨ws, fs, data, n⟩)

/-- Flushes, again after every interruption. -/
def flush : Sink → Except Fault Unit × Sink
  | ⟨ws, fs, data, n⟩ =>
    match settle fs with
    | (some f, fs) => (.error f, ⟨ws, fs, data, n⟩)
    | (none, fs) => (.ok (), ⟨ws, fs, data, n + 1⟩)
where
  settle : List FlushEvent → Option Fault × List FlushEvent
    | [] => (none, [])
    | .done :: fs => (none, fs)
    | .fault f :: fs => if f.isInterruption then settle fs else (some f, fs)

/-- The sink with what it has taken carried away. -/
def drained (s : Sink) : Sink := { s with data := #[] }

end Sink

end EtherBench
