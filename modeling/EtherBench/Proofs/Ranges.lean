import EtherBench.Bytes

/-!
# Ranges of a buffer

A piece of a buffer is read, moved or written over by its places. A range that is
not inside the buffer, a difference below zero, and a sum or a number that its
word does not hold have no result.
-/

namespace EtherBench.Checked

def slice (b : Bytes) (lo hi : Nat) : Option Bytes :=
  if lo ≤ hi ∧ hi ≤ b.length then some ((b.take hi).drop lo) else none

def overwrite (b : Bytes) (lo : Nat) (piece : Bytes) : Option Bytes :=
  if lo + piece.length ≤ b.length then some (b.take lo ++ piece ++ b.drop (lo + piece.length)) else none

def copyWithin (b : Bytes) (lo hi dest : Nat) : Option Bytes := (slice b lo hi).bind (overwrite b dest)

def add (a b : Nat) : Option Nat := if a + b < UInt64.size then some (a + b) else none

def sub (a b : Nat) : Option Nat := if b ≤ a then some (a - b) else none

def half (n : Nat) : Option UInt16 := if n < UInt16.size then some (UInt16.ofNat n) else none

section
variable {b piece : Bytes} {lo hi dest n : Nat}

theorem slice_eq (hlo : lo ≤ hi) (hhi : hi ≤ b.length) : slice b lo hi = some ((b.take hi).drop lo) :=
  if_pos ⟨hlo, hhi⟩

theorem slice_to_end (hlo : lo ≤ b.length) : slice b lo b.length = some (b.drop lo) := by
  rw [slice_eq hlo (Nat.le_refl _), List.take_length]

theorem overwrite_eq (h : lo + piece.length ≤ b.length) :
    overwrite b lo piece = some (b.take lo ++ piece ++ b.drop (lo + piece.length)) := if_pos h

theorem length_overwritten (h : lo + piece.length ≤ b.length) :
    (b.take lo ++ piece ++ b.drop (lo + piece.length)).length = b.length := by
  simp only [List.length_append, List.length_take, List.length_drop]
  omega

theorem take_overwritten (h : lo + piece.length ≤ b.length) :
    (b.take lo ++ piece ++ b.drop (lo + piece.length)).take (lo + piece.length) = b.take lo ++ piece := by
  refine List.take_left' ?_
  simp only [List.length_append, List.length_take]
  omega

theorem copyWithin_eq (hdest : dest ≤ lo) (hlo : lo ≤ hi) (hhi : hi ≤ b.length) :
    ∃ b', copyWithin b lo hi dest = some b' ∧ b'.length = b.length ∧
      b'.take dest = b.take dest ∧ b'.take (dest + (hi - lo)) = b.take dest ++ (b.take hi).drop lo := by
  have hlen : ((b.take hi).drop lo).length = hi - lo := by
    rw [List.length_drop, List.length_take]
    omega
  have hfits : dest + ((b.take hi).drop lo).length ≤ b.length := by omega
  refine ⟨_, ?_, length_overwritten hfits, ?_, ?_⟩
  · rw [copyWithin, slice_eq hlo hhi, Option.bind_some, overwrite_eq hfits]
  · rw [List.append_assoc, List.take_left']
    rw [List.length_take]
    omega
  · rw [← hlen, take_overwritten hfits]

theorem add_eq {a b : Nat} (h : a + b < UInt64.size) : add a b = some (a + b) := if_pos h

theorem sub_eq {a b : Nat} (h : b ≤ a) : sub a b = some (a - b) := if_pos h

theorem half_eq (h : n < UInt16.size) : half n = some (UInt16.ofNat n) := if_pos h

end

end EtherBench.Checked
