/-!
# Octets

Streams, frames and texts on the wire are lists of octets. Numbers on the wire
are sixteen bits wide, high octet first.
-/

namespace EtherBench

abbrev Bytes := List UInt8

namespace Bytes

/-- The two octets of a number, high octet first. -/
def ofWord (n : UInt16) : Bytes := [UInt8.ofNat (n.toNat / 256), UInt8.ofNat (n.toNat % 256)]

/-- The number that two octets spell, high octet first. -/
def toWord (high low : UInt8) : UInt16 := UInt16.ofNat (high.toNat * 256 + low.toNat)

def ofText (s : String) : Bytes := s.toUTF8.data.toList

end Bytes

section

theorem Bytes.length_ofWord (n : UInt16) : (Bytes.ofWord n).length = 2 := rfl

theorem Bytes.toWord_ofNat (n : UInt16) :
    Bytes.toWord (UInt8.ofNat (n.toNat / 256)) (UInt8.ofNat (n.toNat % 256)) = n := by
  have h : n.toNat < 65536 := n.toNat_lt
  apply UInt16.toNat_inj.mp
  simp only [Bytes.toWord, UInt8.toNat_ofNat', UInt16.toNat_ofNat']
  omega

theorem Bytes.toNat_toWord (a b : UInt8) : (Bytes.toWord a b).toNat = a.toNat * 256 + b.toNat := by
  have ha : a.toNat < 256 := a.toNat_lt
  have hb : b.toNat < 256 := b.toNat_lt
  simp only [Bytes.toWord, UInt16.toNat_ofNat']
  omega

theorem Bytes.ofWord_toWord (a b : UInt8) : Bytes.ofWord (Bytes.toWord a b) = [a, b] := by
  have ha : a.toNat < 256 := a.toNat_lt
  have hb : b.toNat < 256 := b.toNat_lt
  simp only [Bytes.ofWord, Bytes.toNat_toWord]
  rw [show (a.toNat * 256 + b.toNat) / 256 = a.toNat by omega,
    show (a.toNat * 256 + b.toNat) % 256 = b.toNat by omega]
  simp

end

end EtherBench
