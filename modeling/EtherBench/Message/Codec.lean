import EtherBench.Bytes
import EtherBench.Message.Error

/-!
# Messages

A message is a header and a payload. The header holds two numbers: the size of
the whole message, itself included, and the kind. Kind 0 carries control text;
kind `n` carries a frame of interface `n`. A size is sixteen bits wide, so a
payload has at most 65531 octets, and a size below the header's own is malformed.
-/

namespace EtherBench

structure Message where
  kind : UInt16
  payload : Bytes
  deriving DecidableEq, Repr

namespace Message

def headerSize : Nat := 4

def maxSize : Nat := 65535

def maxPayload : Nat := maxSize - headerSize

def control : UInt16 := 0

/-- How many hardware addresses one message can list. -/
def maxInterfaces : Nat := maxPayload / 6

def ofText (s : String) : Message := ⟨control, Bytes.ofText s⟩

structure Header where
  size : UInt16
  kind : UInt16
  deriving DecidableEq, Repr

namespace Header

def forPayload (kind : UInt16) (len : Nat) : Except MessageError Header :=
  if maxPayload < len then .error (.payloadTooLarge len maxPayload)
  else .ok ⟨UInt16.ofNat (headerSize + len), kind⟩

def parse? : Bytes → Option Header
  | a :: b :: c :: d :: _ => some ⟨Bytes.toWord a b, Bytes.toWord c d⟩
  | _ => none

def toBytes (h : Header) : Bytes := Bytes.ofWord h.size ++ Bytes.ofWord h.kind

/-- A size that leaves no room for the header is malformed. -/
def IsValid (h : Header) : Prop := headerSize ≤ h.size.toNat

instance (h : Header) : Decidable h.IsValid := inferInstanceAs (Decidable (_ ≤ _))

def validate (h : Header) : Except MessageError Unit :=
  if h.IsValid then .ok () else .error (.sizeBelowHeader h.size.toNat headerSize)

def payloadLength (h : Header) : Nat := h.size.toNat - headerSize

end Header

def encode (m : Message) : Except MessageError Bytes :=
  match Header.forPayload m.kind m.payload.length with
  | .error e => .error e
  | .ok h => .ok (h.toBytes ++ m.payload)

/-- Appends a message to a buffer; one that does not fit leaves the buffer as it is. -/
def appendTo (buffer : Bytes) (m : Message) : Except MessageError Unit × Bytes :=
  match m.encode with
  | .error e => (.error e, buffer)
  | .ok b => (.ok (), buffer ++ b)

/-- What the front of a buffer holds: too little, a header that gives the message
less than its own size, or a whole message. -/
inductive Front
  | incomplete
  | malformed (size : Nat)
  | complete (m : Message) (rest : Bytes)
  deriving DecidableEq, Repr

def decode (buffer : Bytes) : Front :=
  match Header.parse? buffer with
  | none => .incomplete
  | some h =>
    if h.IsValid then
      let body := buffer.drop headerSize
      let payload := body.take h.payloadLength
      if payload.length < h.payloadLength then .incomplete
      else .complete ⟨h.kind, payload⟩ (body.drop h.payloadLength)
    else .malformed h.size.toNat

section

theorem Header.length_toBytes (h : Header) : h.toBytes.length = headerSize := rfl

theorem Header.length_of_parse? {buffer : Bytes} {h : Header} (hp : Header.parse? buffer = some h) :
    headerSize ≤ buffer.length := by
  match buffer with
  | [] | [_] | [_, _] | [_, _, _] => simp [Header.parse?] at hp
  | _ :: _ :: _ :: _ :: _ => simp [headerSize]

/-- A complete message takes its header and its payload off the buffer. -/
theorem length_of_decode {buffer rest : Bytes} {m : Message}
    (h : decode buffer = .complete m rest) :
    buffer.length = headerSize + m.payload.length + rest.length := by
  unfold decode at h
  split at h
  · cases h
  · rename_i hd hp
    have hl := Header.length_of_parse? hp
    split at h
    · simp only at h
      split at h
      · cases h
      · rename_i hn
        injection h with h₁ h₂
        subst h₁ h₂
        simp only [List.length_take, List.length_drop] at hn ⊢
        omega
    · cases h

end

/-- The whole messages at the front of a buffer, and what is left when no more can be taken. -/
def split (buffer : Bytes) : List Message × Bytes :=
  match _h : decode buffer with
  | .complete m rest =>
    let (ms, left) := split rest
    (m :: ms, left)
  | _ => ([], buffer)
termination_by buffer.length
decreasing_by
  have := length_of_decode _h
  simp only [headerSize] at this
  omega

end Message

end EtherBench
