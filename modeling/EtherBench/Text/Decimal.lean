/-!
# Decimal numbers

A number is written in ASCII digits, with an optional plus sign in front and any
number of leading zeros.
-/

namespace EtherBench.Decimal

def isDigit (c : Char) : Bool := '0' ≤ c && c ≤ '9'

def digits (cs : List Char) : Nat := cs.foldl (fun n c => n * 10 + (c.toNat - 48)) 0

/-- The number that `cs` spells, if it spells one below `bound`. -/
def parse (bound : Nat) (cs : List Char) : Option Nat :=
  let ds := match cs with
    | '+' :: ds => ds
    | ds => ds
  if ds ≠ [] ∧ ds.all isDigit ∧ digits ds < bound then some (digits ds) else none

end EtherBench.Decimal
