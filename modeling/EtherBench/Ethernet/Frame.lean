import EtherBench.Ethernet.Address

/-!
# Frames and their tags

A frame starts with two addresses and a type. A tag of four octets may stand
between the addresses and the type: the type that marks it, then a number whose
low twelve bits name a VLAN.
-/

namespace EtherBench

structure Tag where
  tpid : UInt16
  tci : UInt16
  deriving DecidableEq, Repr

namespace Tag

def size : Nat := 4

def offset : Nat := 12

def dot1q : UInt16 := 0x8100

def vlan (t : Tag) : UInt16 := t.tci &&& 0x0FFF

def toBytes (t : Tag) : Bytes := Bytes.ofWord t.tpid ++ Bytes.ofWord t.tci

end Tag

namespace Frame

def headerSize : Nat := 14

def destination (frame : Bytes) : Option MacAddress := MacAddress.ofBytes? frame

def source (frame : Bytes) : Option MacAddress := MacAddress.ofBytes? (frame.drop 6)

def etherType (frame : Bytes) : Option UInt16 :=
  match frame.drop Tag.offset with
  | a :: b :: _ => some (Bytes.toWord a b)
  | _ => none

def tag (frame : Bytes) : Option Tag :=
  match frame.drop Tag.offset with
  | a :: b :: c :: d :: _ =>
    if Bytes.toWord a b = Tag.dot1q then some ⟨Bytes.toWord a b, Bytes.toWord c d⟩ else none
  | _ => none

def insertTag (frame : Bytes) (t : Tag) : Option Bytes :=
  if frame.length < Tag.offset then none
  else some (frame.take Tag.offset ++ t.toBytes ++ frame.drop Tag.offset)

def stripTag (frame : Bytes) : Option Bytes :=
  if frame.length < Tag.offset + Tag.size then none
  else some (frame.take Tag.offset ++ frame.drop (Tag.offset + Tag.size))

/-- Puts a tag into the frame that the first `len` octets of `buffer` hold, and
gives its new length with the buffer. The octets behind the longer frame stay as
they are. -/
def insertTagIn (buffer : Bytes) (len : Nat) (t : Tag) : Option (Nat × Bytes) :=
  if len < Tag.offset ∨ buffer.length < len + Tag.size then none
  else
    some (len + Tag.size,
      buffer.take Tag.offset ++ t.toBytes ++ (buffer.take len).drop Tag.offset ++
        buffer.drop (len + Tag.size))

end Frame

end EtherBench
