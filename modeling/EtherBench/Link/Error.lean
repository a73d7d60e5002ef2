import EtherBench.Fault
import EtherBench.Text.Quoted

/-!
# What can be wrong with a network link
-/

namespace EtherBench

inductive LinkError
  | invalidName (name : String)
  | nameTooLong (name : String) (len max : Nat)
  | openFailed (name : String) (operation : String) (source : Fault)
  | mtuOutOfRange (name : String) (mtu min max : Nat)
  deriving DecidableEq, Repr

namespace LinkError

def text : LinkError → String
  | .invalidName name => "invalid interface name " ++ Quoted.visible name
  | .nameTooLong name len max => s!"interface name too long ({len} bytes, max {max}): {name}"
  | .openFailed name operation source =>
    s!"failed to {operation} on interface {name}: {source.text}"
  | .mtuOutOfRange name mtu min max =>
    s!"interface {name} has MTU {mtu}, supported range is {min}-{max}"

end LinkError

end EtherBench
