import EtherBench.Switch.Report
import EtherBench.Text.Utf8
import EtherBench.Tool

/-!
# The switch at work

The source of a frame is learned before its destination is looked up. A frame
too short for a header, or with a group address for a source, is dropped.
-/

namespace EtherBench.Switch

/-- Learns the source of a frame with both addresses, and says where the frame goes. -/
def relay (ingress : UInt16) (slot : Nat) (frame : Bytes) (dst src : MacAddress)
    (table : LearningTable) (s : Switch) : List Message × Switch :=
  let table := (table.learn src ingress).2
  let messages :=
    match if dst.isUnicast then table.lookup dst else none with
    | some egress => [⟨egress, frame⟩]
    | none => copies (s.floodPlan slot frame) frame
  (messages, { s with table := some table })

def forward (ingress : UInt16) (frame : Bytes) (s : Switch) :
    Except MessageError (List Message × Switch) :=
  match s.slot ingress with
  | .error e => .error e
  | .ok slot =>
    let table := s.table.getD .empty
    match Frame.destination frame, Frame.source frame with
    | some dst, some src =>
      if frame.length < Frame.headerSize ∨ src.isMulticast then
        .ok ([], { s with table := some table })
      else .ok (relay ingress slot frame dst src table s)
    | _, _ => .ok ([], { s with table := some table })

def command (text : String) (s : Switch) : List Message :=
  ((s.report? text).map Message.ofText).toList

def enroll (interface : UInt16) (address : MacAddress) (s : Switch) : Except MessageError Switch :=
  match s.slot interface with
  | .error e => .error e
  | .ok slot =>
    .ok { s with
      ports := s.ports.modify slot fun p => { p with address := some address }
      length_ports := by simpa using s.length_ports }

def react : Tool Switch
  | .roster interface address, s => (s.enroll interface address).map ([], ·)
  | .control text, s => .ok (s.command (Utf8.decode text), s)
  | .frame interface frame, s => s.forward interface frame

end EtherBench.Switch
