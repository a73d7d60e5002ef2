import EtherBench.Ethernet.Address

/-!
# The learning table

Eight places that are taken in turn. An address that is known keeps its place;
a new one takes the place under the cursor, and once all are taken it drives out
the entry that came first, however recently that one was used.
-/

namespace EtherBench

structure Entry where
  address : MacAddress
  interface : UInt16
  deriving DecidableEq, Repr

/-- What became of an address that was seen on an interface. -/
inductive Learned
  | inserted (slot : Nat) (evicted : Option Entry)
  | moved (origin : UInt16)
  | unchanged
  deriving DecidableEq, Repr

structure LearningTable where
  slots : Vector (Option Entry) 8
  cursor : Fin 8
  deriving DecidableEq, Repr

namespace LearningTable

def capacity : Nat := 8

def empty : LearningTable := ⟨Vector.replicate 8 none, 0⟩

/-- The entries in the order of their places. -/
def entries (t : LearningTable) : List Entry := t.slots.toList.filterMap id

def lookup (address : MacAddress) (t : LearningTable) : Option UInt16 :=
  (t.entries.find? (·.address = address)).map (·.interface)

/-- An entry for `address` is on `interface` from now on; others stay as they are. -/
def relocate (address : MacAddress) (interface : UInt16) (e : Entry) : Entry :=
  if e.address = address then { e with interface } else e

def learn (address : MacAddress) (interface : UInt16) (t : LearningTable) :
    Learned × LearningTable :=
  match t.lookup address with
  | some known =>
    if known = interface then (.unchanged, t)
    else
      (.moved known, { t with slots := t.slots.map (·.map (relocate address interface)) })
  | none =>
    (.inserted t.cursor t.slots[t.cursor],
      ⟨t.slots.set t.cursor (some ⟨address, interface⟩), t.cursor + 1⟩)

end LearningTable

end EtherBench
