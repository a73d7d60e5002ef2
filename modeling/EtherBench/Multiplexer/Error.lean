import EtherBench.Message.Error

/-!
# What ends a multiplexer early
-/

namespace EtherBench

inductive MultiplexerError
  | noLinks
  | tooManyLinks (count max : Nat)
  | fault (activity : String) (source : Fault)
  | nothingAccepted (activity : String)
  | childClosedMidMessage (buffered : Nat)
  | sizeBelowHeader (size : Nat)
  | unknownInterface (interface count : UInt16)
  | frameExceedsMtu (name : String) (len limit : Nat)
  | linkClosed (name : String)
  | message (e : MessageError)
  deriving DecidableEq, Repr

namespace MultiplexerError

def text : MultiplexerError → String
  | .noLinks => "no network links to multiplex"
  | .tooManyLinks count max => s!"{count} links configured, at most {max} fit into one roster"
  | .fault activity source => s!"{activity}: {source.text}"
  | .nothingAccepted activity => s!"{activity}: write accepted no data"
  | .childClosedMidMessage buffered =>
    s!"child closed its output with {buffered} bytes of an incomplete message buffered"
  | .sizeBelowHeader size => s!"child sent a message of size {size}, smaller than the header"
  | .unknownInterface interface count =>
    s!"child sent a frame for interface {interface}, but only {count} are configured"
  | .frameExceedsMtu name len limit =>
    s!"captured a {len}-byte frame on {name}, limit is {limit}"
  | .linkClosed name => s!"link {name} closed"
  | .message e => e.text

end MultiplexerError

end EtherBench
