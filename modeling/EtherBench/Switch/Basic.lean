import EtherBench.Ethernet.Frame
import EtherBench.Interface.Basic
import EtherBench.Interface.Error
import EtherBench.Switch.Table

/-!
# The switch and its flood plan

A frame whose destination is not known is flooded within its VLAN. A tagged frame
may only come in by a trunk and names its VLAN itself; it goes to every other
interface that carries it. An untagged frame may only come in by an access
interface and has that one's VLAN; it goes to the access interfaces of that VLAN,
and to the trunks whose list starts with it.
-/

namespace EtherBench

/-- An interface, and the hardware address that the roster gave it. -/
structure SwitchPort where
  interface : Interface
  address : Option MacAddress := none
  deriving DecidableEq, Repr

/-- How the copy for one interface differs from the frame that came in. -/
inductive TagChange
  | keep
  | insert
  | strip
  deriving DecidableEq, Repr

namespace TagChange

/-- The tag that the switch puts in names VLAN 1, whatever VLAN the frame was flooded on. -/
def insertedTag : Tag := ⟨Tag.dot1q, 1⟩

def apply (frame : Bytes) : TagChange → Option Bytes
  | .keep => some frame
  | .insert => Frame.insertTag frame insertedTag
  | .strip => Frame.stripTag frame

end TagChange

/-- The table comes into being with the first frame. -/
structure Switch where
  ports : List SwitchPort
  table : Option LearningTable := none
  length_ports : ports.length ≤ Message.maxInterfaces

namespace Switch

def ofInterfaces (interfaces : List Interface) : Except InterfaceError Switch :=
  if h : interfaces.length ≤ Message.maxInterfaces then
    .ok { ports := interfaces.map fun interface => { interface },
          length_ports := by simpa using h }
  else .error (.tooManyInterfaces interfaces.length Message.maxInterfaces)

def count (s : Switch) : UInt16 := UInt16.ofNat s.ports.length

def slot (interface : UInt16) (s : Switch) : Except MessageError Nat :=
  if interface = 0 ∨ s.count < interface then .error (.unknownInterface interface s.count)
  else .ok (interface.toNat - 1)

/-- The copy that an interface gets of a tagged frame of VLAN `vlan`. -/
def taggedCopy (vlan : UInt16) (p : SwitchPort) : Option (UInt16 × TagChange) :=
  if p.interface.mode.carries vlan then
    match p.interface.mode with
    | .trunk _ => some (p.interface.index, .keep)
    | .access _ => some (p.interface.index, .strip)
  else none

/-- The copy that an interface gets of an untagged frame of VLAN `vlan`. -/
def untaggedCopy (vlan : UInt16) (p : SwitchPort) : Option (UInt16 × TagChange) :=
  match p.interface.mode with
  | .trunk vlans => if vlans.head? = some vlan then some (p.interface.index, .insert) else none
  | .access native => if native = vlan then some (p.interface.index, .keep) else none

/-- The interfaces that a frame from the one at `slot` is flooded to. -/
def floodPlan (slot : Nat) (frame : Bytes) (s : Switch) : List (UInt16 × TagChange) :=
  match s.ports[slot]? with
  | none => []
  | some ingress =>
    let others := s.ports.eraseIdx slot
    if Frame.etherType frame = some Tag.dot1q then
      match ingress.interface.mode, Frame.tag frame with
      | .trunk _, some tag =>
        if frame.length < Frame.headerSize + Tag.size then []
        else others.filterMap (taggedCopy tag.vlan)
      | _, _ => []
    else
      match ingress.interface.mode with
      | .access native => others.filterMap (untaggedCopy native)
      | .trunk _ => []

def copies (plan : List (UInt16 × TagChange)) (frame : Bytes) : List Message :=
  plan.filterMap fun (egress, change) => (change.apply frame).map (⟨egress, ·⟩)

end Switch

end EtherBench
