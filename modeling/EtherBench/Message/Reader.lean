import EtherBench.Message.Codec
import EtherBench.Stream.Source

/-!
# Reading messages

A reader keeps the bytes that are no whole message yet. It asks its stream for
more only while the buffer holds neither a message nor a malformed header, one
chunk at a time, and reading may go on after every error.
-/

namespace EtherBench

structure Reader where
  source : Source
  buffer : Bytes := []
  deriving DecidableEq, Repr

namespace Reader

def chunkSize : Nat := 8192

/-- One chunk of a stream, asked for again after every interruption. -/
def chunk : List ReadEvent → Except Fault Bytes × Source
  | [] => (.ok [], ⟨[]⟩)
  | .fault f :: rest => if f.isInterruption then chunk rest else (.error f, ⟨rest⟩)
  | .data d :: rest => Source.read chunkSize ⟨.data d :: rest⟩

section

/-- Bytes that a read brings are gone from the stream. -/
theorem weight_of_read {room : Nat} {s t : Source} {b : Bytes} (h : s.read room = (.ok b, t)) :
    t.weight + b.length ≤ s.weight := by
  unfold Source.read at h
  split at h
  · injection h with h₁ h₂
    injection h₁ with h₁
    simp [← h₁, ← h₂]
  · cases h
  · rename_i d rest hs
    split at h
    · injection h with h₁ h₂
      injection h₁ with h₁
      simp only [← h₁, ← h₂, Source.weight, hs, List.map_cons, List.foldr_cons, ReadEvent.weight,
        ReadEvent.bytes]
      omega
    · injection h with h₁ h₂
      injection h₁ with h₁
      simp only [← h₁, ← h₂, Source.weight, hs, List.map_cons, List.foldr_cons, ReadEvent.weight,
        ReadEvent.bytes, List.length_drop, List.length_take]
      omega

theorem weight_of_chunk {events : List ReadEvent} {t : Source} {b : Bytes}
    (h : chunk events = (.ok b, t)) : t.weight + b.length ≤ Source.weight ⟨events⟩ := by
  induction events with
  | nil =>
    injection h with h₁ h₂
    injection h₁ with h₁
    simp [← h₁, ← h₂]
  | cons e rest ih =>
    cases e with
    | data d => exact weight_of_read h
    | fault f =>
      simp only [chunk] at h
      split at h
      · refine Nat.le_trans (ih h) ?_
        simp [Source.weight]
      · cases h

end

def next (r : Reader) : Except MessageError Message × Reader :=
  match Message.decode r.buffer with
  | .complete m rest => (.ok m, { r with buffer := rest })
  | .malformed size => (.error (.sizeBelowHeader size Message.headerSize), r)
  | .incomplete =>
    match _h : chunk r.source.events with
    | (.error f, source) => (.error (.fault f), { r with source })
    | (.ok [], source) =>
      (.error (if r.buffer.isEmpty then .connectionClosed else .closedMidMessage r.buffer.length),
        { r with source })
    | (.ok (b :: bs), source) => next ⟨source, r.buffer ++ b :: bs⟩
termination_by r.source.weight
decreasing_by
  have := weight_of_chunk _h
  simp only [List.length_cons] at this
  exact Nat.lt_of_lt_of_le (by omega) this

end Reader

end EtherBench
