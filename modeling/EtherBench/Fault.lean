/-!
# Faults of the outside

A call on a descriptor can fail. What the lab does next depends on the kind of
failure alone; the text is only shown.
-/

namespace EtherBench

inductive Fault.Kind
  | permissionDenied
  | brokenPipe
  | connectionReset
  | interrupted
  | wouldBlock
  | unexpectedEnd
  | timedOut
  | writeZero
  | other
  deriving DecidableEq, Repr

structure Fault where
  kind : Fault.Kind
  text : String
  deriving DecidableEq, Repr

namespace Fault

/-- A call that was interrupted is made again. -/
def isInterruption (f : Fault) : Bool := f.kind == .interrupted

/-- A call that would have blocked, or was interrupted, is made again at the next occasion. -/
def isTransient (f : Fault) : Bool := f.kind == .interrupted || f.kind == .wouldBlock

/-- A peer that no longer reads. -/
def brokenPipe : Fault := ⟨.brokenPipe, "Broken pipe (os error 32)"⟩

/-- A stream that accepts nothing of what has to be written whole. -/
def incompleteWrite : Fault := ⟨.writeZero, "failed to write whole buffer"⟩

end Fault

end EtherBench
