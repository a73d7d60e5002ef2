import EtherBench.Multiplexer.Step

/-!
# Runs of the multiplexer

The roster goes out first: one control message with the hardware address of
every link. Then turn follows turn until one ends the run, or the descriptors
cannot be set up or waited for.
-/

namespace EtherBench.Multiplexer

def roster (m : Multiplexer) : Message :=
  ⟨Message.control, m.links.flatMap fun l => l.address.toBytes⟩

def sendRoster : Phase := fun m =>
  match m.roster.encode with
  | .error e => (m, some (.failed (.message e)))
  | .ok b =>
    match m.childInput.writeAll b with
    | (.complete, childInput) => ({ m with childInput }, none)
    | (.refused, childInput) =>
      ({ m with childInput },
        some (.failed (.fault "send roster to child" Fault.incompleteWrite)))
    | (.failed f, childInput) =>
      ({ m with childInput }, some (.failed (.fault "send roster to child" f)))

/-- Turns in which the descriptors of each entry of a schedule are found ready. -/
def turns (schedule : List Readiness) : Phase := Phase.sequence (schedule.map turn)

/-- Makes the child's input one that does not block. -/
def unblock (opened : Except Fault Unit) : Phase := fun m =>
  match opened with
  | .ok () => (m, none)
  | .error f => (m, some (.failed (.fault "set child input non-blocking" f)))

/-- One round of the loop: a wait for the descriptors, and the turn behind it unless a signal has
interrupted the wait. -/
def round (wait : Except Fault Readiness) : Phase := fun m =>
  match wait with
  | .ok awake => turn awake m
  | .error f => (m, if f.isInterruption then none else some (.failed (.fault "poll" f)))

def run (opened : Except Fault Unit) (waits : List (Except Fault Readiness)) : Phase :=
  sendRoster.andThen ((unblock opened).andThen (Phase.sequence (waits.map round)))

/-- At most `n` turns, as long as some descriptor that the loop waits for has something queued. -/
def turnsWhileReady : Nat → Phase
  | 0 => fun m => (m, none)
  | n + 1 => fun m =>
    if (m.interest.inter m.queued).any then ((turn m.queued).andThen (turnsWhileReady n)) m
    else (m, none)

/-- More than the turns that what is queued and buffered can keep the loop busy: every turn
with a ready descriptor uses up an event, moves a byte on or finishes a message. -/
def workload (m : Multiplexer) : Nat :=
  let console := (m.console.map Source.weight).getD 0
  let links := (m.links.map fun l => l.arrivals.length + l.sends.length + 1).foldr (· + ·) 0
  4 * (console + m.childOutput.weight + links + m.childInput.writes.length + m.typed.length +
    m.childBuffer.length + 4)

/-- Turns until the loop has to wait, or until the run ends. -/
def settle : Phase := fun m => turnsWhileReady m.workload m

/-- What has left the multiplexer since the last look: what the child, each link
and the operator got. -/
structure Observation where
  child : Bytes
  links : List (List Bytes)
  display : Bytes
  deriving DecidableEq, Repr

/-- Looks at what has left, and carries it away. -/
def observe (m : Multiplexer) : Observation × Multiplexer :=
  (⟨m.childInput.data.toList, m.links.map fun l => l.sent.toList, m.display.data.toList⟩,
    { m with
      childInput := m.childInput.drained
      links := m.links.map fun l => { l with sent := #[] }
      display := m.display.drained })

/-- What happens outside while the loop waits. -/
inductive Action
  | arrival (link : Nat) (a : Arrival)
  | typing (b : Bytes)
  | childWrites (b : Bytes)
  | childStopsWriting
  | childStopsReading
  | consoleCloses
  deriving DecidableEq, Repr

namespace Action

def apply (m : Multiplexer) : Action → Multiplexer
  | .arrival i a =>
    { m with links := m.links.modify i fun l => { l with arrivals := l.arrivals ++ [a] } }
  | .typing b => { m with console := m.console.map (·.push b) }
  | .childWrites b => { m with childOutput := m.childOutput.push b }
  | .childStopsWriting => { m with childOutput := m.childOutput.close }
  | .childStopsReading =>
    { m with childInput := { m.childInput with writes := [.fault Fault.brokenPipe] } }
  | .consoleCloses => { m with console := m.console.map Source.close }

end Action

end EtherBench.Multiplexer
