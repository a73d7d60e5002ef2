import EtherBench.Interface.Error
import EtherBench.Link.Error
import EtherBench.Multiplexer.Error

/-!
# Exit codes

Every failure of the command line has a code that depends on its cause, and a
message that starts with what was being done.
-/

namespace EtherBench

structure Failure where
  code : Nat
  message : String
  deriving DecidableEq, Repr

namespace Exit

def success : Nat := 0
def failure : Nat := 1
def badOption : Nat := 2
def linkError : Nat := 3
def permissionDenied : Nat := 50
def invalidData : Nat := 60
def usage : Nat := 64
def internal : Nat := 125

def ofKind : Fault.Kind → Nat
  | .permissionDenied => permissionDenied
  | .brokenPipe => failure
  | _ => internal

end Exit

namespace Failure

def within (code : Nat) (context text : String) : Failure := ⟨code, s!"{context}: {text}"⟩

def ofFault (context : String) (f : Fault) : Failure := within (Exit.ofKind f.kind) context f.text

def ofInterface (context : String) (e : InterfaceError) : Failure :=
  within Exit.usage context e.text

def ofLink (context : String) (e : LinkError) : Failure :=
  let code :=
    match e with
    | .openFailed _ _ source =>
      if source.kind = .permissionDenied then Exit.permissionDenied else Exit.linkError
    | .invalidName _ | .nameTooLong .. => Exit.usage
    | .mtuOutOfRange .. => Exit.linkError
  within code context e.text

def ofMessage (context : String) : MessageError → Failure
  | .fault source => ofFault context source
  | .connectionClosed => within Exit.failure context MessageError.connectionClosed.text
  | e => within Exit.invalidData context e.text

def ofMultiplexer (context : String) : MultiplexerError → Failure
  | .fault activity source => ofFault s!"{context}: {activity}" source
  | .message e => ofMessage context e
  | e =>
    let code :=
      match e with
      | .noLinks | .tooManyLinks .. => Exit.usage
      | .linkClosed _ => Exit.linkError
      | .nothingAccepted _ => Exit.failure
      | _ => Exit.invalidData
    within code context e.text

end Failure

end EtherBench
