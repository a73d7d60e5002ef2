import EtherBench.Ethernet.Frame
import EtherBench.Link.Error
import EtherBench.Message.Codec

/-!
# What a link must keep to

A link's largest frame, with a tag put in, has to fit into one message. Its name
has to fit into the sixteen octets that the kernel keeps for it, the last of them
zero.
-/

namespace EtherBench.Link

def minMtu : Nat := 68

def maxMtu : Nat := Message.maxPayload - Frame.headerSize - Tag.size

def checkMtu (name : String) (mtu : Nat) : Except LinkError Nat :=
  if minMtu ≤ mtu ∧ mtu ≤ maxMtu then .ok mtu
  else .error (.mtuOutOfRange name mtu minMtu maxMtu)

/-- The longest frame that a link of this MTU may deliver: a header, a tag and a
payload. Lengths are words of 64 bits, and a sum beyond them starts again at zero. -/
def frameLimit (mtu : Nat) : Nat := (mtu + Frame.headerSize + Tag.size) % UInt64.size

def nameSize : Nat := 16

/-- A name as the kernel takes it, zeros behind it. -/
def encodeName (name : String) : Except LinkError Bytes :=
  let b := Bytes.ofText name
  if b.isEmpty ∨ b.contains 0 then .error (.invalidName name)
  else if nameSize - 1 < b.length then .error (.nameTooLong name b.length (nameSize - 1))
  else .ok (b ++ List.replicate (nameSize - b.length) 0)

section

/-- No sum of lengths starts again at zero for an MTU that a link may have. -/
theorem frameLimit_eq {mtu : Nat} (h : mtu ≤ maxMtu) :
    frameLimit mtu = mtu + Frame.headerSize + Tag.size := by
  simp only [maxMtu, Message.maxPayload, Message.maxSize, Message.headerSize] at h
  exact Nat.mod_eq_of_lt (by simp only [Frame.headerSize, Tag.size, UInt64.size]; omega)

end

end EtherBench.Link
