import EtherBench.Link.Limits
import EtherBench.Multiplexer.State

/-!
# One turn of the loop

A turn looks at the descriptors that the loop waits for and goes through its
phases in a fixed order: console, child's input, outbound frame, next command
line, child's output, links. Each phase may end the run.
-/

namespace EtherBench.Multiplexer

/-- A phase leaves a state, and an ending where the run stops at it. -/
abbrev Phase := Multiplexer → Multiplexer × Option Ending

def Phase.andThen (first second : Phase) : Phase := fun m =>
  match first m with
  | (m, some e) => (m, some e)
  | (m, none) => second m

def Phase.when (ready : Bool) (phase : Phase) : Phase := fun m =>
  if ready then phase m else (m, none)

/-- Phases in order, up to the one that ends the run. -/
def Phase.sequence : List Phase → Phase
  | [] => fun m => (m, none)
  | p :: ps => p.andThen (sequence ps)

/-- A fault ends the run, save one after which the call is just made again later. -/
def stopAt (activity : String) (f : Fault) : Option Ending :=
  if f.isTransient then none else some (.failed (.fault activity f))

section Console

def readConsole : Phase := fun m =>
  match m.console with
  | none => (m, none)
  | some source =>
    match source.read (bufferSize - m.consoleFilled) with
    | (.error f, source) => ({ m with console := some source }, stopAt "read console" f)
    | (.ok [], source) => ({ m with console := some source }, some .consoleClosed)
    | (.ok b, source) => ({ m with console := some source, typed := m.typed ++ b }, none)

/-- Where the next command line ends in the console buffer: behind its newline,
or at the end of a full buffer that has none. -/
def lineEnd (m : Multiplexer) : Option Nat :=
  match m.typed.idxOf? 10 with
  | some i => some (Message.headerSize + i + 1)
  | none => if m.consoleFilled = bufferSize then some m.consoleFilled else none

def queueLine : Phase := fun m =>
  match m.inbound, lineEnd m with
  | none, some stop =>
    ({ m with
        inbound := some ⟨.console stop, 0⟩
        statistics := { m.statistics with commands := m.statistics.commands + 1 } }, none)
  | _, _ => (m, none)

end Console

section ChildInput

/-- The message on its way to the child has been written whole. -/
def delivered (origin : Origin) (m : Multiplexer) : Multiplexer :=
  match origin with
  | .slot i =>
    { m with
      links := m.links.modify i fun l => { l with slot := [] }
      inbound := none
      statistics := { m.statistics with captured := m.statistics.captured + 1 } }
  | .console stop =>
    { m with typed := m.typed.drop (stop - Message.headerSize), inbound := none }

def writeInput : Phase := fun m =>
  match m.inbound with
  | none => (m, none)
  | some job =>
    let pending := m.pendingInput job
    match m.childInput.write pending with
    | (.error f, childInput) => ({ m with childInput }, stopAt "write to child" f)
    | (.ok 0, childInput) =>
      ({ m with childInput }, some (.failed (.nothingAccepted "write to child")))
    | (.ok n, childInput) =>
      if n < pending.length then
        ({ m with childInput, inbound := some { job with offset := job.offset + n } }, none)
      else (delivered job.origin { m with childInput }, none)

end ChildInput

section ChildOutput

/-- What a link reports when it is offered a frame, and the link after it. -/
def sendOn (frame : Bytes) (l : Link) : Except Fault Nat × Link :=
  match l.sends with
  | [] => (.ok frame.length, { l with sent := l.sent.push frame })
  | .accept 0 :: sends => (.ok 0, { l with sends })
  | .accept n :: sends =>
    (.ok (min n frame.length), { l with sends, sent := l.sent.push (frame.take n) })
  | .fault f :: sends => (.error f, { l with sends })

def writeFrame : Phase := fun m =>
  match m.outbound with
  | none => (m, none)
  | some job =>
    match m.links[job.link]? with
    | none => (m, none)
    | some l =>
      let (result, l) := sendOn (m.pendingFrame job) l
      let m := { m with links := m.links.set job.link l }
      match result with
      | .error f => (m, stopAt "send frame on link" f)
      | .ok 0 => (m, some (.failed (.nothingAccepted "send frame on link")))
      | .ok n =>
        if job.offset + n < job.stop then
          ({ m with outbound := some { job with offset := job.offset + n } }, none)
        else
          ({ m with
              childBuffer := m.childBuffer.drop job.stop
              outbound := none
              statistics := { m.statistics with injected := m.statistics.injected + 1 } }, none)

def readChild : Phase := fun m =>
  match m.childOutput.read (bufferSize - m.childBuffer.length) with
  | (.error f, childOutput) => ({ m with childOutput }, stopAt "read from child" f)
  | (.ok [], childOutput) => ({ m with childOutput, childEnded := true }, none)
  | (.ok b, childOutput) => ({ m with childOutput, childBuffer := m.childBuffer ++ b }, none)

def print (text : Bytes) : Phase := fun m =>
  match m.display.writeAll text with
  | (.failed f, display) => ({ m with display }, some (.failed (.fault "write console" f)))
  | (.refused, display) =>
    ({ m with display }, some (.failed (.fault "write console" Fault.incompleteWrite)))
  | (.complete, display) =>
    match display.flushOnce with
    | (.error f, display) => ({ m with display }, some (.failed (.fault "write console" f)))
    | (.ok (), display) =>
      ({ m with
          display
          statistics :=
            { m.statistics with consoleMessages := m.statistics.consoleMessages + 1 } }, none)

/-- Takes whole messages off the child's buffer. Control text is shown at once,
empty frames are dropped, and the first other frame sets out for its link. -/
def takeMessages (m : Multiplexer) : Multiplexer × Option Ending :=
  if m.outbound.isSome then (m, none)
  else
    match _h : Message.decode m.childBuffer with
    | .incomplete => (m, none)
    | .malformed size => (m, some (.failed (.sizeBelowHeader size)))
    | .complete ⟨kind, payload⟩ rest =>
      if kind = Message.control then
        match print payload m with
        | (m', some e) => (m', some e)
        | (m', none) => takeMessages { m' with childBuffer := rest }
      else if m.linkCount < kind then
        (m, some (.failed (.unknownInterface kind m.linkCount)))
      else if payload.isEmpty then takeMessages { m with childBuffer := rest }
      else
        ({ m with
            outbound := some
              ⟨kind.toNat - 1, Message.headerSize, Message.headerSize + payload.length⟩ }, none)
termination_by m.childBuffer.length
decreasing_by
  all_goals
    have := Message.length_of_decode _h
    simp only [Message.headerSize] at this
    omega

/-- The end of the child's output ends the run once no frame is on its way. -/
def endOfChild : Phase := fun m =>
  if m.childEnded && m.outbound.isNone then
    match m.childBuffer with
    | [] => (m, some .childClosed)
    | b => (m, some (.failed (.childClosedMidMessage b.length)))
  else (m, none)

end ChildOutput

section Links

/-- A receive is offered the room of a buffer less a header and a tag. -/
def captureRoom : Nat := bufferSize - Tag.size - Message.headerSize

/-- A frame with the tag that was taken out of it, where it is long enough to have had one. -/
def restoreTag (frame : Bytes) : Option Tag → Bytes
  | none => frame
  | some tag => (Frame.insertTag frame tag).getD frame

def receive (i : Nat) (l : Link) : Link × Option Ending :=
  match l.arrivals with
  | [] => (l, none)
  | .fault f :: arrivals => ({ l with arrivals }, stopAt "receive frame on link" f)
  | .foreign _ :: arrivals => ({ l with arrivals }, none)
  | .frame frame tag :: arrivals =>
    match frame.take captureRoom with
    | [] => ({ l with arrivals }, some (.failed (.linkClosed l.name)))
    | frame =>
      let frame := restoreTag frame tag
      let limit := Link.frameLimit l.mtu
      if limit < frame.length then
        ({ l with arrivals }, some (.failed (.frameExceedsMtu l.name frame.length limit)))
      else
        let size := Message.headerSize + frame.length
        let header : Message.Header := ⟨UInt16.ofNat size, UInt16.ofNat (i + 1)⟩
        ({ l with arrivals, slot := header.toBytes ++ frame }, none)

def capture (i : Nat) : Phase := fun m =>
  match m.links[i]? with
  | none => (m, none)
  | some l =>
    let (l, e) := receive i l
    ({ m with links := m.links.set i l }, e)

def queueSlot (i : Nat) : Phase := fun m =>
  if m.inbound.isNone && !(m.slot i).isEmpty then
    ({ m with inbound := some ⟨.slot i, 0⟩ }, none)
  else (m, none)

def serveLink (ready : Readiness) (i : Nat) : Phase := fun m =>
  Phase.sequence [.when (ready.link i && (m.slot i).isEmpty) (capture i), queueSlot i] m

end Links

def turn (awake : Readiness) : Phase := fun m =>
  let ready := m.interest.inter awake
  Phase.sequence
    [.when ready.console readConsole,
      .when ready.childInput writeInput,
      .when ready.outbound writeFrame,
      queueLine,
      .when ready.childOutput readChild,
      takeMessages,
      endOfChild,
      .sequence ((List.range m.links.length).map (serveLink ready))] m

end EtherBench.Multiplexer
