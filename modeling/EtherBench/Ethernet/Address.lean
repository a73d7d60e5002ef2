import EtherBench.Bytes
import EtherBench.Text.Hex

/-!
# Hardware addresses

Six octets. The lowest bit of the first marks an address that stands for a group
of stations.
-/

namespace EtherBench

structure MacAddress where
  octets : Vector UInt8 6
  deriving DecidableEq, Repr

namespace MacAddress

def size : Nat := 6

def broadcast : MacAddress := ⟨Vector.replicate 6 0xFF⟩

/-- The address in the first six octets. -/
def ofBytes? : Bytes → Option MacAddress
  | a :: b :: c :: d :: e :: f :: _ => some ⟨#v[a, b, c, d, e, f]⟩
  | _ => none

def toBytes (m : MacAddress) : Bytes := m.octets.toList

/-- The addresses in a run of octets; up to five octets at its end belong to none. -/
def listOfBytes : Bytes → List MacAddress
  | a :: b :: c :: d :: e :: f :: rest => ⟨#v[a, b, c, d, e, f]⟩ :: listOfBytes rest
  | _ => []

def isMulticast (m : MacAddress) : Bool := m.octets[0] &&& 1 != 0

def isUnicast (m : MacAddress) : Bool := !m.isMulticast

def text (m : MacAddress) : String :=
  String.ofList ([':'].intercalate (m.toBytes.map Hex.octet))

theorem length_toBytes (m : MacAddress) : m.toBytes.length = size := m.octets.length_toList

end MacAddress

end EtherBench
