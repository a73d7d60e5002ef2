import EtherBench.Fault

/-!
# What can go wrong on a message stream
-/

namespace EtherBench

inductive MessageError
  | sizeBelowHeader (size header : Nat)
  | payloadTooLarge (size max : Nat)
  | unknownInterface (interface count : UInt16)
  | fault (source : Fault)
  | connectionClosed
  | closedMidMessage (buffered : Nat)
  deriving DecidableEq, Repr

namespace MessageError

def text : MessageError → String
  | .sizeBelowHeader size header =>
    s!"message size {size} is smaller than the {header}-byte header"
  | .payloadTooLarge size max => s!"payload too large ({size} bytes, max {max})"
  | .unknownInterface interface count =>
    s!"message for interface {interface}, but only {count} interfaces are configured"
  | .fault source => s!"message I/O error: {source.text}"
  | .connectionClosed => "connection closed"
  | .closedMidMessage buffered =>
    s!"connection closed with {buffered} bytes of an incomplete message buffered"

end MessageError

end EtherBench
