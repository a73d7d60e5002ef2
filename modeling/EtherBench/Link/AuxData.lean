import EtherBench.Ethernet.Frame

/-!
# What the kernel tells about a captured frame

A tag that the kernel took out of a frame comes beside it, in a control message
of twenty octets, low octets first. Status bits say whether there was a tag and
whether its type is given.
-/

namespace EtherBench

structure ControlMessage where
  level : Int
  type : Int
  data : Bytes
  deriving DecidableEq, Repr

structure AuxData where
  status : Nat
  len : Nat
  snaplen : Nat
  mac : UInt16
  net : UInt16
  vlanTci : UInt16
  vlanTpid : UInt16
  deriving DecidableEq, Repr

namespace AuxData

def size : Nat := 20

/-- The level of packet sockets. -/
def level : Int := 263

/-- The control message that carries such data. -/
def type : Int := 8

/-- The status bit for a tag that was taken out. -/
def vlanValid : Nat := 4

/-- The status bit for a type that is given. -/
def tpidValid : Nat := 6

/-- A number of two octets, the low one first. -/
def half (low high : UInt8) : UInt16 := Bytes.toWord high low

/-- A number of four octets, the low ones first. -/
def whole (a b c d : UInt8) : Nat := (half a b).toNat + 65536 * (half c d).toNat

def ofBytes? : Bytes → Option AuxData
  | s₀ :: s₁ :: s₂ :: s₃ :: l₀ :: l₁ :: l₂ :: l₃ :: c₀ :: c₁ :: c₂ :: c₃ ::
      m₀ :: m₁ :: n₀ :: n₁ :: t₀ :: t₁ :: p₀ :: p₁ :: _ =>
    some ⟨whole s₀ s₁ s₂ s₃, whole l₀ l₁ l₂ l₃, whole c₀ c₁ c₂ c₃,
      half m₀ m₁, half n₀ n₁, half t₀ t₁, half p₀ p₁⟩
  | _ => none

/-- The first control message that carries such data in full. -/
def find? : List ControlMessage → Option AuxData
  | [] => none
  | c :: rest =>
    match if c.level = level ∧ c.type = type then ofBytes? c.data else none with
    | some aux => some aux
    | none => find? rest

def tag (a : AuxData) : Option Tag :=
  if a.vlanTci = 0 ∧ !a.status.testBit vlanValid then none
  else
    some ⟨if a.vlanTpid ≠ 0 ∨ a.status.testBit tpidValid then a.vlanTpid else Tag.dot1q, a.vlanTci⟩

end AuxData

end EtherBench
