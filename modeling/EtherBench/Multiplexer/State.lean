import EtherBench.Ethernet.Frame
import EtherBench.Message.Codec
import EtherBench.Multiplexer.Error
import EtherBench.Stream.Sink
import EtherBench.Stream.Source

/-!
# The state of the multiplexer

A multiplexer stands between network links, an operator's console and a child
program. A captured frame waits as a message in the slot of its link; typed text
waits behind the room for one header. At most one message is on its way to the
child, and at most one frame of the child's on its way to a link. Messages of
the child are taken from the front of its buffer, and a frame stays there until
its link has taken all of it.
-/

namespace EtherBench

/-- What one receive on a link reports: a frame with the tag that was taken out
of it, a frame of some other interface, or a failure. -/
inductive Arrival
  | frame (frame : Bytes) (tag : Option Tag)
  | foreign (interface : Int)
  | fault (f : Fault)
  deriving DecidableEq, Repr

/-- A network link: what its next receives and sends report, what it has sent,
and the message that waits in its slot, if the slot is not empty. -/
structure Link where
  name : String
  address : MacAddress
  mtu : Nat
  arrivals : List Arrival := []
  sends : List WriteEvent := []
  sent : Array Bytes := #[]
  slot : Bytes := []
  deriving DecidableEq, Repr

/-- Where the message on its way to the child stands: in the slot of a link, or
in the first octets of the console buffer. -/
inductive Origin
  | slot (link : Nat)
  | console (stop : Nat)
  deriving DecidableEq, Repr

/-- A message on its way to the child, of which `offset` octets are written. -/
structure Inbound where
  origin : Origin
  offset : Nat
  deriving DecidableEq, Repr

/-- A frame on its way to a link: what is left of it lies between `offset` and
`stop` in the child's buffer. -/
structure Outbound where
  link : Nat
  offset : Nat
  stop : Nat
  deriving DecidableEq, Repr

structure Statistics where
  captured : Nat := 0
  injected : Nat := 0
  commands : Nat := 0
  consoleMessages : Nat := 0
  deriving DecidableEq, Repr

structure Multiplexer where
  links : List Link
  childInput : Sink := {}
  childOutput : Source := {}
  console : Option Source := none
  display : Sink := {}
  childBuffer : Bytes := []
  childEnded : Bool := false
  typed : Bytes := []
  inbound : Option Inbound := none
  outbound : Option Outbound := none
  statistics : Statistics := {}
  deriving DecidableEq, Repr

inductive Ending
  | consoleClosed
  | childClosed
  | failed (e : MultiplexerError)
  deriving DecidableEq, Repr

namespace Multiplexer

/-- Console and child each have a buffer of one largest message. -/
def bufferSize : Nat := Message.maxSize

/-- Fails without a link, and with more links than one roster can list. -/
def ofLinks (links : List Link) (console : Option Source) : Except MultiplexerError Multiplexer :=
  if links.isEmpty then .error .noLinks
  else if Message.maxInterfaces < links.length then
    .error (.tooManyLinks links.length Message.maxInterfaces)
  else .ok { links, console }

def linkCount (m : Multiplexer) : UInt16 := UInt16.ofNat m.links.length

/-- How far the console buffer is filled, the room for a header included. -/
def consoleFilled (m : Multiplexer) : Nat := Message.headerSize + m.typed.length

def slot (i : Nat) (m : Multiplexer) : Bytes := ((m.links[i]?).map Link.slot).getD []

/-- The console buffer once a header is put in front of a line that ends at `stop`. -/
def consoleBuffer (stop : Nat) (m : Multiplexer) : Bytes :=
  (Message.Header.mk (UInt16.ofNat stop) Message.control).toBytes ++ m.typed

def message (origin : Origin) (m : Multiplexer) : Bytes :=
  match origin with
  | .slot i => m.slot i
  | .console stop => (m.consoleBuffer stop).take stop

/-- What is still to be written of a message on its way to the child. -/
def pendingInput (job : Inbound) (m : Multiplexer) : Bytes :=
  (m.message job.origin).drop job.offset

def pendingFrame (job : Outbound) (m : Multiplexer) : Bytes :=
  (m.childBuffer.take job.stop).drop job.offset

end Multiplexer

/-- Which descriptors the loop waits for, and which of them are ready. -/
structure Readiness where
  console : Bool
  childInput : Bool
  outbound : Bool
  childOutput : Bool
  links : List Bool
  deriving DecidableEq, Repr

namespace Readiness

def inter (a b : Readiness) : Readiness :=
  { console := a.console && b.console
    childInput := a.childInput && b.childInput
    outbound := a.outbound && b.outbound
    childOutput := a.childOutput && b.childOutput
    links := a.links.zipWith (· && ·) b.links }

def any (r : Readiness) : Bool :=
  r.console || r.childInput || r.outbound || r.childOutput || r.links.any id

def link (i : Nat) (r : Readiness) : Bool := (r.links[i]?).getD false

end Readiness

namespace Multiplexer

def interest (m : Multiplexer) : Readiness :=
  { console := m.console.isSome && m.consoleFilled < bufferSize
    childInput := m.inbound.isSome
    outbound := m.outbound.isSome
    childOutput := !m.childEnded && m.childBuffer.length < bufferSize
    links := m.links.map (·.slot.isEmpty) }

/-- The descriptors that would report something at once. -/
def queued (m : Multiplexer) : Readiness :=
  { console := (m.console.map Source.isReady).getD false
    childInput := true
    outbound := true
    childOutput := m.childOutput.isReady
    links := m.links.map fun l => !l.arrivals.isEmpty }

end Multiplexer

end EtherBench
