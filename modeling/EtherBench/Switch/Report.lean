import EtherBench.Switch.Basic
import EtherBench.Text.Blank

/-!
# What the switch tells its operator
-/

namespace EtherBench.Switch

/-- The name of an interface, or a question mark for one that the switch does not have. -/
def nameOf (interface : UInt16) (s : Switch) : String :=
  if interface = 0 then "?"
  else ((s.ports[interface.toNat - 1]?).map (·.interface.name)).getD "?"

def entryLine (s : Switch) (e : Entry) : String :=
  s!"{e.address.text} -> {s.nameOf e.interface} (#{e.interface})\n"

def tableReport (s : Switch) : String :=
  match (s.table.map LearningTable.entries).getD [] with
  | [] => "learning table empty\n"
  | entries => String.join (entries.map s.entryLine)

def modeReport : PortMode → String
  | .access vlan => s!"untagged vlan {vlan}"
  | .trunk vlans =>
    let list := (PortMode.trunk vlans).vlanList
    s!"tagged vlans {list}"

def portLine (p : SwitchPort) : String :=
  let address := (p.address.map MacAddress.text).getD "unknown"
  let mode := modeReport p.interface.mode
  s!"#{p.interface.index} {p.interface.name} {address} {mode}\n"

def interfacesReport (s : Switch) : String := String.join (s.ports.map portLine)

/-- The report that a line of operator text asks for, if it asks for one. -/
def report? (text : String) (s : Switch) : Option String :=
  let verb := Text.lowercase (Text.firstWord text)
  if verb = "mac" ∨ verb = "table" then some s.tableReport
  else if verb = "interfaces" then some s.interfacesReport
  else none

end EtherBench.Switch
