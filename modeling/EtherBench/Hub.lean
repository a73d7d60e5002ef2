import EtherBench.Interface.Error
import EtherBench.Text.Blank
import EtherBench.Text.Utf8
import EtherBench.Tool

/-!
# The hub

Every frame goes to every other interface as it is, and operator text is echoed.
-/

namespace EtherBench

structure Hub where
  count : UInt16
  deriving DecidableEq, Repr

namespace Hub

def ofCount (count : Nat) : Except InterfaceError Hub := (checkedCount count).map (⟨·⟩)

/-- The interfaces other than `ingress`, in ascending order. -/
def others (ingress : UInt16) (h : Hub) : List UInt16 :=
  ((List.range' 1 h.count.toNat).map UInt16.ofNat).filter (· != ingress)

def relay (ingress : UInt16) (frame : Bytes) (h : Hub) : Except MessageError (List Message) :=
  if ingress = 0 ∨ h.count < ingress then .error (.unknownInterface ingress h.count)
  else if frame.isEmpty then .ok []
  else .ok ((h.others ingress).map (⟨·, frame⟩))

def echo (text : String) : Message :=
  let command := Text.trimEnd text
  .ofText s!"Received command '{command}' (ignored)\n"

def react : Tool Hub
  | .roster _ _, h => .ok ([], h)
  | .control text, h => .ok ([echo (Utf8.decode text)], h)
  | .frame interface frame, h => (h.relay interface frame).map (·, h)

end Hub

end EtherBench
