/-!
# Hexadecimal
-/

namespace EtherBench.Hex

def digit (n : Nat) : Char :=
  if n < 10 then Char.ofNat (n + 48) else Char.ofNat (n + 87)

/-- The two digits of an octet. -/
def octet (b : UInt8) : List Char := [digit (b.toNat / 16), digit (b.toNat % 16)]

/-- As few digits as the number needs. -/
def number (n : Nat) : List Char := (Nat.toDigits 16 n)

end EtherBench.Hex
