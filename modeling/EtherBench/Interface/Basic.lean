/-!
# Interfaces

An access interface belongs to one VLAN and sees untagged frames. A trunk
carries a list of VLANs in tagged frames; the first of the list is the one that
untagged traffic is tagged into.
-/

namespace EtherBench

inductive PortMode
  | trunk (vlans : List UInt16)
  | access (vlan : UInt16)
  deriving DecidableEq, Repr

namespace PortMode

def carries (vlan : UInt16) : PortMode → Bool
  | .trunk vlans => vlans.contains vlan
  | .access native => native == vlan

def word : PortMode → String
  | .trunk _ => "tagged"
  | .access _ => "untagged"

def vlanList : PortMode → String
  | .trunk vlans => ",".intercalate (vlans.map toString)
  | .access vlan => toString vlan

end PortMode

structure Interface where
  index : UInt16
  name : String
  mode : PortMode
  deriving DecidableEq, Repr

namespace Interface

def minVlan : Nat := 1

def maxVlan : Nat := 4092

def defaultVlan : UInt16 := 0

def plain (index : UInt16) (name : String) : Interface := ⟨index, name, .access defaultVlan⟩

/-- What follows the name in the canonical form. -/
def modeText (mode : PortMode) : String :=
  match mode with
  | .access vlan => if vlan = defaultVlan then "" else s!"[U:{vlan}]"
  | .trunk _ => s!"[T:{mode.vlanList}]"

/-- The canonical form: the name alone, or with its VLANs in brackets. -/
def text (i : Interface) : String := i.name ++ modeText i.mode

end Interface

end EtherBench
