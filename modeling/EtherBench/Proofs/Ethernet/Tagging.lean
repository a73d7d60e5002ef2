import EtherBench.Ethernet.Frame
import EtherBench.Proofs.Ranges

/-!
# Tags put in and taken out

A tag is put in by copying a frame around it, or in the buffer of the frame by
moving what is behind the addresses. Both come to the same frame, and nothing
behind it in the buffer is touched. Putting a tag in and taking it out undo each
other.
-/

namespace EtherBench

namespace Checked

/-- Puts a tag into the frame of `len` octets at the front of a buffer, unless the frame or the buffer
is too short. -/
def insertTag (b : Bytes) (len : Nat) (t : Tag) : Option (Option (Nat × Bytes)) :=
  if len < Tag.offset ∨ b.length < len + Tag.size then some none
  else do
    let moved ← copyWithin b Tag.offset len (Tag.offset + Tag.size)
    let marked ← overwrite moved Tag.offset t.toBytes
    some (some (len + Tag.size, marked))

/-- The same where the new length is to be a word: that length, if a tag was put in, and the buffer as it
is afterwards. -/
def insertTagAt (b : Bytes) (len : Nat) (t : Tag) : Option (Option Nat × Bytes) :=
  match add len Tag.size with
  | none => some (none, b)
  | some _ =>
    (insertTag b len t).map fun
      | none => (none, b)
      | some (n, after) => (some n, after)

section
variable {b : Bytes} {n : Nat}

/-- The tag goes in by moving what is behind the addresses. -/
theorem insertTag_eq (t : Tag) : insertTag b n t = some (Frame.insertTagIn b n t) := by
  unfold insertTag Frame.insertTagIn
  split
  · rfl
  · rename_i h
    simp only [not_or, Nat.not_lt] at h
    obtain ⟨hn, hb⟩ := h
    have hbody : ((b.take n).drop Tag.offset).length = n - Tag.offset := by
      rw [List.length_drop, List.length_take]
      omega
    have hfront : (b.take (Tag.offset + Tag.size)).length = Tag.offset + Tag.size := by
      rw [List.length_take]
      omega
    have hend : Tag.offset + Tag.size + ((b.take n).drop Tag.offset).length = n + Tag.size := by omega
    have hmove : Tag.offset + Tag.size + ((b.take n).drop Tag.offset).length ≤ b.length := by omega
    have hmoved := length_overwritten hmove
    rw [copyWithin, slice_eq hn (by omega), Option.bind_some, overwrite_eq hmove]
    simp only [Option.bind_eq_bind, Option.bind_some]
    rw [hend] at hmoved ⊢
    have hmark : Tag.offset + t.toBytes.length ≤ (b.take (Tag.offset + Tag.size) ++
        (b.take n).drop Tag.offset ++ b.drop (n + Tag.size)).length := by
      rw [hmoved]
      exact Nat.le_trans (Nat.add_le_add_right hn _) hb
    rw [overwrite_eq hmark, Option.bind_some]
    -- the place for the tag is what was in front of the part that moved
    have haddresses : (b.take (Tag.offset + Tag.size) ++ (b.take n).drop Tag.offset ++
        b.drop (n + Tag.size)).take Tag.offset = b.take Tag.offset := by
      rw [List.append_assoc, List.take_append_of_le_length, List.take_take,
        Nat.min_eq_left (Nat.le_add_right ..)]
      rw [hfront]
      exact Nat.le_add_right ..
    have hrest : (b.take (Tag.offset + Tag.size) ++ (b.take n).drop Tag.offset ++
        b.drop (n + Tag.size)).drop (Tag.offset + t.toBytes.length) =
        (b.take n).drop Tag.offset ++ b.drop (n + Tag.size) := by
      rw [List.append_assoc]
      exact List.drop_left' hfront
    rw [haddresses, hrest, ← List.append_assoc]

theorem insertTagAt_cases (b : Bytes) (n : Nat) (t : Tag) :
    (∃ after, insertTagAt b n t = some (some (n + Tag.size), after) ∧ n + Tag.size < UInt64.size ∧
      Frame.insertTagIn b n t = some (n + Tag.size, after)) ∨
    insertTagAt b n t = some (none, b) ∧
      (UInt64.size ≤ n + Tag.size ∨ Frame.insertTagIn b n t = none) := by
  unfold insertTagAt
  by_cases hword : n + Tag.size < UInt64.size
  · rw [add_eq hword, insertTag_eq]
    cases hin : Frame.insertTagIn b n t with
    | none => exact .inr ⟨rfl, .inr rfl⟩
    | some r =>
      obtain ⟨m, after⟩ := r
      obtain rfl : m = n + Tag.size := by
        unfold Frame.insertTagIn at hin
        split at hin
        · cases hin
        · cases hin
          rfl
      exact .inl ⟨after, rfl, hword, rfl⟩
  · rw [add, if_neg hword]
    exact .inr ⟨rfl, .inl (Nat.not_lt.mp hword)⟩

end

end Checked

namespace Frame

section
variable {frame copy b after : Bytes} {len n : Nat} {t : Tag}

theorem length_insertTag (h : insertTag frame t = some copy) : copy.length = frame.length + Tag.size := by
  unfold insertTag at h
  split at h
  · cases h
  · cases h
    simp [Tag.toBytes, Bytes.ofWord, Tag.size, Tag.offset] at *
    omega

theorem length_stripTag (h : stripTag frame = some copy) : copy.length + Tag.size = frame.length := by
  unfold stripTag at h
  split at h
  · cases h
  · cases h
    simp [Tag.size, Tag.offset] at *
    omega

theorem insertTag_of_le (h : Tag.offset ≤ frame.length) (t : Tag) :
    insertTag frame t = some (frame.take Tag.offset ++ t.toBytes ++ frame.drop Tag.offset) :=
  if_neg (Nat.not_lt.mpr h)

theorem stripTag_of_le (h : Tag.offset + Tag.size ≤ frame.length) :
    stripTag frame = some (frame.take Tag.offset ++ frame.drop (Tag.offset + Tag.size)) :=
  if_neg (Nat.not_lt.mpr h)

theorem length_without_tag (h : Tag.offset + Tag.size ≤ frame.length) :
    (frame.take Tag.offset ++ frame.drop (Tag.offset + Tag.size)).length + Tag.size = frame.length :=
  length_stripTag (stripTag_of_le h)

/-! ## In the buffer -/

theorem insertTagIn_eq_some_iff : insertTagIn b len t = some (n, after) ↔
    (Tag.offset ≤ len ∧ len + Tag.size ≤ b.length) ∧ n = len + Tag.size ∧
      after = b.take Tag.offset ++ t.toBytes ++ (b.take len).drop Tag.offset ++ b.drop (len + Tag.size) := by
  unfold insertTagIn
  rw [← Nat.not_lt, ← Nat.not_lt, ← not_or]
  split
  · rename_i h
    simp [h]
  · rename_i h
    simp [h, eq_comm]

theorem insertTagIn_eq_none_iff :
    insertTagIn b len t = none ↔ ¬ (Tag.offset ≤ len ∧ len + Tag.size ≤ b.length) := by
  unfold insertTagIn
  rw [← Nat.not_lt, ← Nat.not_lt, ← not_or, Decidable.not_not]
  split
  · rename_i h
    simp [h]
  · rename_i h
    simp [h]

/-- What is put together in the buffer is what a copy would be, and nothing behind it has changed. -/
theorem insertTag_of_insertTagIn (h : insertTagIn b len t = some (n, after)) :
    insertTag (b.take len) t = some (after.take n) ∧ after.drop n = b.drop n := by
  obtain ⟨⟨hlo, hhi⟩, rfl, rfl⟩ := insertTagIn_eq_some_iff.mp h
  have hlen : (b.take len).length = len := by
    rw [List.length_take]
    omega
  have hcopy : insertTag (b.take len) t =
      some (b.take Tag.offset ++ t.toBytes ++ (b.take len).drop Tag.offset) := by
    rw [insertTag_of_le (by rwa [hlen]), List.take_take, Nat.min_eq_left hlo]
  have hfront := length_insertTag hcopy
  rw [hlen] at hfront
  exact ⟨by rw [hcopy, List.take_left' hfront], List.drop_left' hfront⟩

/-! ## Out again, and back -/

theorem stripTag_of_insertTag (h : insertTag frame t = some copy) : stripTag copy = some frame := by
  unfold insertTag at h
  split at h
  · cases h
  · rename_i hlen
    have haddresses : (frame.take Tag.offset).length = Tag.offset := by
      rw [List.length_take]
      omega
    have hfront : (frame.take Tag.offset ++ t.toBytes).length = Tag.offset + Tag.size := by
      rw [List.length_append, haddresses]
      rfl
    cases h
    rw [stripTag_of_le, List.drop_left' hfront, List.append_assoc, List.take_left' haddresses,
      List.take_append_drop]
    rw [List.length_append, hfront]
    exact Nat.le_add_right _ _

theorem insertTag_of_without_tag (h : Tag.offset + Tag.size ≤ frame.length)
    (ht : (frame.drop Tag.offset).take Tag.size = t.toBytes) :
    insertTag (frame.take Tag.offset ++ frame.drop (Tag.offset + Tag.size)) t = some frame := by
  have hlen : (frame.take Tag.offset).length = Tag.offset := by
    rw [List.length_take]
    omega
  rw [insertTag_of_le, List.take_left' hlen, List.drop_left' hlen, ← ht, ← List.drop_drop, List.append_assoc,
    List.take_append_drop, List.take_append_drop]
  rw [List.length_append, hlen]
  exact Nat.le_add_right _ _

/-- A tag of another type is not one that the frame is seen to have. -/
theorem tag_of_insertTag (h : insertTag frame t = some copy) :
    tag copy = if t.tpid = Tag.dot1q then some t else none := by
  unfold insertTag at h
  split at h
  · cases h
  · rename_i hlen
    have haddresses : (frame.take Tag.offset).length = Tag.offset := by
      rw [List.length_take]
      omega
    cases h
    rw [tag, List.append_assoc, List.drop_left' haddresses]
    simp only [Tag.toBytes, Bytes.ofWord, List.cons_append, List.nil_append, Bytes.toWord_ofNat]

/-- **A tag goes in, in place as in a copy, and comes out again.** In a buffer it goes in if the frame has
both addresses and the buffer has room for the longer frame, in a word; what is behind that frame, or the
whole buffer if no tag goes in, is left as it was. Taking it out gives the frame back, and putting in the tag
that a frame has had gives that frame. It is seen in the frame if it is of the type that marks tags. -/
theorem tag_goes_in_and_out (t : Tag) :
    (∀ (buffer : Bytes) (len : Nat), ∃ result after,
      Checked.insertTagAt buffer len t = some (result, after) ∧
      (∀ n, result = some n ↔
        n = len + 4 ∧ 12 ≤ len ∧ len + 4 ≤ buffer.length ∧ len + 4 < UInt64.size) ∧
      (∀ n, result = some n →
        insertTag (buffer.take len) t = some (after.take n) ∧ after.drop n = buffer.drop n) ∧
      (result = none → after = buffer) ∧
      (buffer.length < UInt64.size → insertTagIn buffer len t = result.map (·, after))) ∧
    (∀ frame : Bytes, 12 ≤ frame.length → ∃ tagged, insertTag frame t = some tagged ∧
      stripTag tagged = some frame ∧ (tag tagged = some t ↔ t.tpid = 0x8100)) ∧
    ∀ frame : Bytes, 16 ≤ frame.length → (frame.drop 12).take 4 = t.toBytes →
      ∃ bare, stripTag frame = some bare ∧ insertTag bare t = some frame := by
  refine ⟨fun buffer len => ?_, fun frame hlen => ?_, fun frame hlen ht => ?_⟩
  · rcases Checked.insertTagAt_cases buffer len t with ⟨after, hat, hword, hin⟩ | ⟨hat, hnot⟩
    · have hfits := (insertTagIn_eq_some_iff.mp hin).1
      refine ⟨_, after, hat, fun n => ?_, ?_, nofun, fun _ => hin⟩
      · rw [Option.some.injEq, eq_comm]
        exact ⟨fun hn => ⟨hn, hfits.1, hfits.2, hword⟩, fun h => h.1⟩
      · rintro n ⟨⟩
        exact insertTag_of_insertTagIn hin
    · refine ⟨none, buffer, hat, fun n => ⟨nofun, ?_⟩, nofun, fun _ => rfl, fun hbuffer => ?_⟩
      · rintro ⟨_, hlo, hhi, hword⟩
        rcases hnot with hlarge | hnone
        · exact absurd hword (Nat.not_lt.mpr hlarge)
        · exact absurd ⟨hlo, hhi⟩ (insertTagIn_eq_none_iff.mp hnone)
      · rcases hnot with hlarge | hnone
        · -- no buffer is as long as that
          exact insertTagIn_eq_none_iff.mpr fun hfits => by omega
        · exact hnone
  · have hcopy := insertTag_of_le hlen t
    refine ⟨_, hcopy, stripTag_of_insertTag hcopy, ?_⟩
    rw [tag_of_insertTag hcopy]
    split
    · rename_i hmark
      exact ⟨fun _ => hmark, fun _ => rfl⟩
    · rename_i hmark
      exact ⟨nofun, fun h => absurd h hmark⟩
  · exact ⟨_, stripTag_of_le hlen, insertTag_of_without_tag hlen ht⟩

def roomy : Bytes := List.replicate 12 2 ++ [8, 0] ++ [7, 7, 7, 7, 9, 9, 9]

theorem tag_goes_into_roomy :
    (∃ after, Checked.insertTagAt roomy 14 ⟨0x8100, 5⟩ = some (some 18, after) ∧
      insertTag (roomy.take 14) ⟨0x8100, 5⟩ = some (after.take 18) ∧ after.drop 18 = [9, 9, 9]) ∧
    Checked.insertTagAt roomy (UInt64.size - 1) ⟨0x8100, 5⟩ = some (none, roomy) ∧
    12 ≤ (roomy.take 14).length ∧
    (∃ tagged, insertTag (roomy.take 14) ⟨0x8100, 5⟩ = some tagged ∧
      stripTag tagged = some (roomy.take 14) ∧ tag tagged = some ⟨0x8100, 5⟩) ∧
    16 ≤ roomy.length ∧ (roomy.drop 12).take 4 = Tag.toBytes ⟨0x0800, 0x0707⟩ ∧
    ∃ bare, stripTag roomy = some bare ∧ insertTag bare ⟨0x0800, 0x0707⟩ = some roomy := by
  obtain ⟨hin, hout, _⟩ := tag_goes_in_and_out ⟨0x8100, 5⟩
  have hback := (tag_goes_in_and_out ⟨0x0800, 0x0707⟩).2.2
  have hlen : 12 ≤ (roomy.take 14).length := by decide
  have hlong : 16 ≤ roomy.length := by decide
  refine ⟨?_, ?_, hlen, ?_, hlong, rfl, hback roomy hlong rfl⟩
  · obtain ⟨result, after, hat, hfits, hsame, _⟩ := hin roomy 14
    obtain rfl := (hfits 18).mpr ⟨rfl, by decide, by decide, by decide⟩
    exact ⟨after, hat, (hsame 18 rfl).1, (hsame 18 rfl).2⟩
  · obtain ⟨result, after, hat, hfits, _, hnone, _⟩ := hin roomy (UInt64.size - 1)
    cases result with
    | none => rw [hat, hnone rfl]
    | some n => exact absurd ((hfits n).mp rfl).2.2.2 (by decide)
  · obtain ⟨tagged, htagged, hstrip, htag⟩ := hout _ hlen
    exact ⟨tagged, htagged, hstrip, htag.mpr rfl⟩

end

end Frame

end EtherBench
