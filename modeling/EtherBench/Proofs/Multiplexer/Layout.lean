import EtherBench.Multiplexer.Run
import EtherBench.Proofs.Ethernet.Tagging

/-!
# The multiplexer in its buffers

What the multiplexer keeps lies in buffers, each of the size of one largest
message: a front part is filled, and behind it is what earlier messages left.
Here the phases of a turn work on these buffers in place, and every access is
checked. A range outside its buffer, a difference below zero, a sum or a number
that its word does not hold, and an empty offer to a descriptor have no result;
nor has a call that reports nothing without the stream being at its end or its
other side refusing.
-/

namespace EtherBench

def Source.isOver (s : Source) : Bool :=
  match s.events with
  | [] => true
  | .data d :: _ => d.isEmpty
  | .fault _ :: _ => false

def WriteEvent.refuses : List WriteEvent → Bool
  | .accept 0 :: _ => true
  | _ => false

namespace Checked

/-- A read into some room, which is to find something unless the stream is over. -/
def read (room : Bytes) (s : Source) : Option (Except Fault Bytes × Source) :=
  if room.isEmpty then none
  else
    match s.read room.length with
    | (.ok [], after) => if s.isOver then some (.ok [], after) else none
    | report => some report

def write (b : Bytes) (s : Sink) : Option (Except Fault Nat × Sink) :=
  if b.isEmpty then none
  else
    match s.write b with
    | (.ok 0, after) => if WriteEvent.refuses s.writes then some (.ok 0, after) else none
    | report => some report

def send (frame : Bytes) (l : Link) : Option (Except Fault Nat × Link) :=
  if frame.isEmpty then none
  else
    match Multiplexer.sendOn frame l with
    | (.ok 0, after) => if WriteEvent.refuses l.sends then some (.ok 0, after) else none
    | report => some report

end Checked

/-- A link and the buffer of its slot. The link's own record of the slot is not looked at. -/
structure Port where
  link : Link
  buffer : Bytes
  filled : Nat

namespace Port

def view (p : Port) : Link := { p.link with slot := p.buffer.take p.filled }

def restoreTag (buffer : Bytes) (len : Nat) : Option Tag → Option (Nat × Bytes)
  | none => some (len, buffer)
  | some tag => do
    let frame ← Checked.slice buffer Message.headerSize buffer.length
    match ← Checked.insertTag frame len tag with
    | none => some (len, buffer)
    | some (len, frame) => do
      let buffer ← Checked.overwrite buffer Message.headerSize frame
      some (len, buffer)

def complete (i : Nat) (len : Nat) (p : Port) : Option (Port × Option Ending) := do
  let limit ← Checked.add p.link.mtu Frame.headerSize
  let limit ← Checked.add limit Tag.size
  if limit < len then
    some (p, some (.failed (.frameExceedsMtu p.link.name len limit)))
  else do
    let filled ← Checked.add Message.headerSize len
    let size ← Checked.half filled
    let kind ← Checked.half (i + 1)
    let buffer ← Checked.overwrite p.buffer 0 (Message.Header.mk size kind).toBytes
    some ({ p with buffer, filled }, none)

def receive (i : Nat) (p : Port) : Option (Port × Option Ending) := do
  let stop ← Checked.sub p.buffer.length Tag.size
  let room ← Checked.slice p.buffer Message.headerSize stop
  if room.isEmpty then none
  else
    match p.link.arrivals with
    | [] => some (p, none)
    | .fault f :: arrivals =>
      some ({ p with link := { p.link with arrivals } }, Multiplexer.stopAt "receive frame on link" f)
    | .foreign _ :: arrivals => some ({ p with link := { p.link with arrivals } }, none)
    | .frame frame tag :: arrivals =>
      match frame.take room.length with
      | [] =>
        if frame.isEmpty then
          some ({ p with link := { p.link with arrivals } }, some (.failed (.linkClosed p.link.name)))
        else none
      | frame => do
        let buffer ← Checked.overwrite p.buffer Message.headerSize frame
        let (len, buffer) ← restoreTag buffer frame.length tag
        complete i len { p with link := { p.link with arrivals }, buffer }

end Port

structure Layout where
  ports : List Port
  childInput : Sink
  childOutput : Source
  console : Option Source
  display : Sink
  childBuffer : Bytes
  childFilled : Nat
  childEnded : Bool
  consoleBuffer : Bytes
  consoleFilled : Nat
  inbound : Option Inbound
  outbound : Option Outbound
  statistics : Statistics

namespace Layout

/-- What is in the filled parts of the buffers. -/
def view (w : Layout) : Multiplexer :=
  { links := w.ports.map Port.view
    childInput := w.childInput
    childOutput := w.childOutput
    console := w.console
    display := w.display
    childBuffer := w.childBuffer.take w.childFilled
    childEnded := w.childEnded
    typed := (w.consoleBuffer.take w.consoleFilled).drop Message.headerSize
    inbound := w.inbound
    outbound := w.outbound
    statistics := w.statistics }

def blank : Bytes := List.replicate Multiplexer.bufferSize 0

def start (m : Multiplexer) : Layout :=
  { ports := m.links.map fun link => { link, buffer := blank, filled := 0 }
    childInput := m.childInput
    childOutput := m.childOutput
    console := m.console
    display := m.display
    childBuffer := blank
    childFilled := 0
    childEnded := m.childEnded
    consoleBuffer := blank
    consoleFilled := Message.headerSize
    inbound := m.inbound
    outbound := m.outbound
    statistics := m.statistics }

/-- A phase on the buffers, which has no result where an access fails. -/
abbrev Step := Layout → Option (Layout × Option Ending)

def Step.andThen (first second : Step) : Step := fun w =>
  match first w with
  | none => none
  | some (w, some e) => some (w, some e)
  | some (w, none) => second w

def Step.when (ready : Bool) (step : Step) : Step := fun w =>
  if ready then step w else some (w, none)

def Step.sequence : List Step → Step
  | [] => fun w => some (w, none)
  | p :: ps => p.andThen (sequence ps)

section Console

def readConsole : Step := fun w =>
  match w.console with
  | none => some (w, none)
  | some source => do
    let room ← Checked.slice w.consoleBuffer w.consoleFilled w.consoleBuffer.length
    match ← Checked.read room source with
    | (.error f, source) => some ({ w with console := some source }, Multiplexer.stopAt "read console" f)
    | (.ok [], source) => some ({ w with console := some source }, some .consoleClosed)
    | (.ok b, source) => do
      let consoleBuffer ← Checked.overwrite w.consoleBuffer w.consoleFilled b
      let consoleFilled ← Checked.add w.consoleFilled b.length
      some ({ w with console := some source, consoleBuffer, consoleFilled }, none)

def lineEnd (w : Layout) : Option (Option Nat) := do
  let line ← Checked.slice w.consoleBuffer Message.headerSize w.consoleFilled
  match line.idxOf? 10 with
  | some i => do
    let stop ← Checked.add Message.headerSize i
    let stop ← Checked.add stop 1
    some (some stop)
  | none => some (if w.consoleFilled = w.consoleBuffer.length then some w.consoleFilled else none)

def queueLine : Step := fun w =>
  if w.inbound.isSome then some (w, none)
  else do
    match ← w.lineEnd with
    | none => some (w, none)
    | some stop => do
      let size ← Checked.half stop
      let consoleBuffer ← Checked.overwrite w.consoleBuffer 0 (Message.Header.mk size Message.control).toBytes
      some
        ({ w with
            consoleBuffer
            inbound := some ⟨.console stop, 0⟩
            statistics := { w.statistics with commands := w.statistics.commands + 1 } }, none)

end Console

section ChildInput

def pendingInput (job : Inbound) (w : Layout) : Option Bytes :=
  match job.origin with
  | .slot i => do
    let p ← w.ports[i]?
    Checked.slice p.buffer job.offset p.filled
  | .console stop => Checked.slice w.consoleBuffer job.offset stop

/-- Text behind a line that has been delivered moves up to the room for a header. -/
def delivered (origin : Origin) (w : Layout) : Option Layout :=
  match origin with
  | .slot i =>
    some { w with
      ports := w.ports.modify i fun p => { p with filled := 0 }
      inbound := none
      statistics := { w.statistics with captured := w.statistics.captured + 1 } }
  | .console stop => do
    let consoleBuffer ← Checked.copyWithin w.consoleBuffer stop w.consoleFilled Message.headerSize
    let freed ← Checked.sub stop Message.headerSize
    let consoleFilled ← Checked.sub w.consoleFilled freed
    some { w with consoleBuffer, consoleFilled, inbound := none }

def writeInput : Step := fun w =>
  match w.inbound with
  | none => some (w, none)
  | some job => do
    let pending ← w.pendingInput job
    match ← Checked.write pending w.childInput with
    | (.error f, childInput) => some ({ w with childInput }, Multiplexer.stopAt "write to child" f)
    | (.ok 0, childInput) =>
      some ({ w with childInput }, some (.failed (.nothingAccepted "write to child")))
    | (.ok n, childInput) => do
      let offset ← Checked.add job.offset n
      if n < pending.length then
        some ({ w with childInput, inbound := some { job with offset } }, none)
      else do
        let w ← delivered job.origin { w with childInput }
        some (w, none)

end ChildInput

section ChildOutput

def consume (size : Nat) (w : Layout) : Option Layout := do
  let childBuffer ← Checked.copyWithin w.childBuffer size w.childFilled 0
  let childFilled ← Checked.sub w.childFilled size
  some { w with childBuffer, childFilled }

def writeFrame : Step := fun w =>
  match w.outbound with
  | none => some (w, none)
  | some job => do
    let p ← w.ports[job.link]?
    let frame ← Checked.slice w.childBuffer job.offset job.stop
    let (result, link) ← Checked.send frame p.link
    let w := { w with ports := w.ports.set job.link { p with link } }
    match result with
    | .error f => some (w, Multiplexer.stopAt "send frame on link" f)
    | .ok 0 => some (w, some (.failed (.nothingAccepted "send frame on link")))
    | .ok n => do
      let offset ← Checked.add job.offset n
      if offset < job.stop then some ({ w with outbound := some { job with offset } }, none)
      else do
        let w ← consume job.stop w
        some
          ({ w with
              outbound := none
              statistics := { w.statistics with injected := w.statistics.injected + 1 } }, none)

def readChild : Step := fun w => do
  let room ← Checked.slice w.childBuffer w.childFilled w.childBuffer.length
  match ← Checked.read room w.childOutput with
  | (.error f, childOutput) => some ({ w with childOutput }, Multiplexer.stopAt "read from child" f)
  | (.ok [], childOutput) => some ({ w with childOutput, childEnded := true }, none)
  | (.ok b, childOutput) => do
    let childBuffer ← Checked.overwrite w.childBuffer w.childFilled b
    let childFilled ← Checked.add w.childFilled b.length
    some ({ w with childOutput, childBuffer, childFilled }, none)

def print (size : Nat) : Step := fun w => do
  let text ← Checked.slice w.childBuffer Message.headerSize size
  match w.display.writeAll text with
  | (.failed f, display) => some ({ w with display }, some (.failed (.fault "write console" f)))
  | (.refused, display) =>
    some ({ w with display }, some (.failed (.fault "write console" Fault.incompleteWrite)))
  | (.complete, display) =>
    match display.flushOnce with
    | (.error f, display) => some ({ w with display }, some (.failed (.fault "write console" f)))
    | (.ok (), display) =>
      some
        ({ w with
            display
            statistics :=
              { w.statistics with consoleMessages := w.statistics.consoleMessages + 1 } }, none)

/-- What is done with the message of `size` octets at the front of the child's buffer: a frame sets
out, and anything else is taken off, after it was shown if it is control text. -/
def takeMessage (size : Nat) (kind : UInt16) : Step := fun w => do
  let count ← Checked.half w.ports.length
  if kind = Message.control then
    match ← w.print size with
    | (w, some e) => some (w, some e)
    | (w, none) => do
      let w ← consume size w
      some (w, none)
  else if count < kind then some (w, some (.failed (.unknownInterface kind count)))
  else if size = Message.headerSize then do
    let w ← consume size w
    some (w, none)
  else do
    let link ← Checked.sub kind.toNat 1
    some ({ w with outbound := some ⟨link, Message.headerSize, size⟩ }, none)

def takeMessages : Nat → Layout → Option (Layout × Option Ending)
  | 0, w => some (w, none)
  | n + 1, w =>
    if w.outbound.isSome then some (w, none)
    else do
      let filled ← Checked.slice w.childBuffer 0 w.childFilled
      match Message.Header.parse? filled with
      | none => some (w, none)
      | some header =>
        let size := header.size.toNat
        if size < Message.headerSize then some (w, some (.failed (.sizeBelowHeader size)))
        else if w.childFilled < size then some (w, none)
        else (takeMessage size header.kind).andThen (takeMessages n) w

def endOfChild : Step := fun w =>
  if w.childEnded && w.outbound.isNone then
    if w.childFilled = 0 then some (w, some .childClosed)
    else some (w, some (.failed (.childClosedMidMessage w.childFilled)))
  else some (w, none)

end ChildOutput

section Links

def captureIfReady (ready : Readiness) (i : Nat) : Step := fun w => do
  let p ← w.ports[i]?
  if ready.link i && p.filled == 0 then do
    let (p, e) ← p.receive i
    some ({ w with ports := w.ports.set i p }, e)
  else some (w, none)

def queueSlot (i : Nat) : Step := fun w => do
  let p ← w.ports[i]?
  if w.inbound.isNone && p.filled != 0 then some ({ w with inbound := some ⟨.slot i, 0⟩ }, none)
  else some (w, none)

end Links

/-- Whether a frame is on its way. It needs its link. -/
def isSending (w : Layout) : Option Bool :=
  match w.outbound with
  | none => some false
  | some job => (w.ports[job.link]?).map fun _ => true

def interest (w : Layout) : Option Readiness := do
  let outbound ← w.isSending
  some
    { console := w.console.isSome && w.consoleFilled < w.consoleBuffer.length
      childInput := w.inbound.isSome
      outbound
      childOutput := !w.childEnded && w.childFilled < w.childBuffer.length
      links := w.ports.map (·.filled == 0) }

/-- The phases of a turn in which the descriptors of `ready` are waited for and found ready. -/
def steps (ready : Readiness) (links : Nat) : List Step :=
  [.when ready.console readConsole, .when ready.childInput writeInput,
    .when ready.outbound writeFrame, queueLine, .when ready.childOutput readChild,
    -- a message takes up at least its header, so that the buffer cannot hold more of them
    fun w => takeMessages (w.childFilled + 1) w,
    endOfChild] ++
  (List.range links).flatMap fun i => [captureIfReady ready i, queueSlot i]

def firstSteps (awake : Readiness) (k : Nat) : Step := fun w => do
  let interest ← w.interest
  Step.sequence ((steps (interest.inter awake) w.ports.length).take k) w

def turn (awake : Readiness) : Step := fun w => do
  let interest ← w.interest
  Step.sequence (steps (interest.inter awake) w.ports.length) w

def upTo (schedule : List Readiness) (awake : Readiness) (k : Nat) : Step :=
  (Step.sequence (schedule.map turn)).andThen (firstSteps awake k)

end Layout

end EtherBench
