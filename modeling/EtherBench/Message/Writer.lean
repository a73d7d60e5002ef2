import EtherBench.Message.Codec
import EtherBench.Stream.Sink

/-!
# Writing messages

A message goes out as one run of octets and is flushed. A payload that does not
fit is refused before anything is written, and the first failure cuts a series
of messages short.
-/

namespace EtherBench.Sink

/-- Flushes; a failure is one of the message stream. -/
def flushMessages (s : Sink) : Except MessageError Unit × Sink :=
  match s.flush with
  | (.ok (), s) => (.ok (), s)
  | (.error f, s) => (.error (.fault f), s)

def send (m : Message) (s : Sink) : Except MessageError Unit × Sink :=
  match m.encode with
  | .error e => (.error e, s)
  | .ok b =>
    match s.writeAll b with
    | (.refused, s) => (.error .connectionClosed, s)
    | (.failed f, s) => (.error (.fault f), s)
    | (.complete, s) => s.flushMessages

def sendEach : List Message → Sink → Except MessageError Unit × Sink
  | [], s => (.ok (), s)
  | m :: ms, s =>
    match s.send m with
    | (.error e, s) => (.error e, s)
    | (.ok (), s) => sendEach ms s

end EtherBench.Sink
