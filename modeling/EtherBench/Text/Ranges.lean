/-!
# Classes of characters

A class is given by closed ranges of code points, in ascending order and apart.
The characters that print are those of version 17 of Unicode, and the other classes
are those of version 18.
-/

namespace EtherBench.Text

abbrev Ranges := List (Nat × Nat)

namespace Ranges

def has (c : Char) (rs : Ranges) : Bool :=
  rs.any fun (low, high) => low ≤ c.toNat && c.toNat ≤ high

/-- Whether every range ends before the next one begins, with a gap between them. -/
def isOrdered : Ranges → Bool
  | [] => true
  | [(low, high)] => low ≤ high
  | (low, high) :: next :: rs => low ≤ high && high + 1 < next.1 && isOrdered (next :: rs)

end Ranges

end EtherBench.Text
