import EtherBench.Proofs.Message.Stream

/-!
# Writing and reading are inverse

What is written to a buffer message by message is taken off it again as the same
messages, and what can be taken off a buffer is what was written to it. The two
octets in front decide alone how much of a buffer is looked at.
-/

namespace EtherBench.Message

/-- Appends messages to a buffer, up to the first that does not fit. -/
def appendEach : List Message → Bytes → Except MessageError Unit × Bytes
  | [], buffer => (.ok (), buffer)
  | m :: ms, buffer =>
    match m.appendTo buffer with
    | (.error e, buffer) => (.error e, buffer)
    | (.ok (), buffer) => appendEach ms buffer

inductive Takes : Bytes → List Message → Bytes → Prop
  | none (b : Bytes) : Takes b [] b
  | next {b rest left : Bytes} {m : Message} {ms : List Message} (h : decode b = .complete m rest)
      (later : Takes rest ms left) : Takes b (m :: ms) left

def announced (b : Bytes) : Nat := (b[0]?.getD 0).toNat * 256 + (b[1]?.getD 0).toNat

section
variable {b rest left : Bytes} {m : Message} {ms : List Message}

theorem appendTo_of_fits (h : m.Fits) (buffer : Bytes) :
    m.appendTo buffer = (.ok (), buffer ++ m.toBytes) := by
  simp [appendTo, encode_of_fits h]

theorem appendTo_of_not_fits (h : ¬ m.Fits) (buffer : Bytes) :
    m.appendTo buffer = (.error (.payloadTooLarge m.payload.length maxPayload), buffer) := by
  simp [appendTo, encode, Header.forPayload, Nat.not_le.mp h]

theorem appendEach_eq_ok_iff {buffer : Bytes} :
    appendEach ms buffer = (.ok (), b) ↔ (∀ m ∈ ms, m.Fits) ∧ b = buffer ++ ms.flatMap toBytes := by
  induction ms generalizing buffer with
  | nil => simp [appendEach, eq_comm]
  | cons m ms ih =>
    by_cases h : m.Fits
    · simp [appendEach, appendTo_of_fits h, ih, h]
    · simp [appendEach, appendTo_of_not_fits h, h]

/-! ## Taking messages off -/

theorem takes_iff : Takes b ms left ↔ (∀ m ∈ ms, m.Fits) ∧ b = ms.flatMap toBytes ++ left := by
  constructor
  · intro h
    induction h with
    | none => simp
    | next h _ ih =>
      obtain ⟨hm, rfl⟩ := decode_eq_complete_iff.mp h
      rw [List.flatMap_cons, List.append_assoc, ← ih.2]
      exact ⟨List.forall_mem_cons.mpr ⟨hm, ih.1⟩, rfl⟩
  · rintro ⟨hms, rfl⟩
    induction ms with
    | nil => exact .none _
    | cons m ms ih =>
      rw [List.forall_mem_cons] at hms
      rw [List.flatMap_cons, List.append_assoc]
      exact .next (decode_toBytes_append hms.1 _) (ih hms.2)

theorem takes_split (b : Bytes) :
    Takes b (split b).1 (split b).2 ∧ ∀ m rest, decode (split b).2 ≠ .complete m rest := by
  fun_induction split b with
  | case1 b m rest h ms left hs ih =>
    rw [hs] at ih
    exact ⟨.next h ih.1, ih.2⟩
  | case2 b h => exact ⟨.none b, h⟩

theorem split_eq_iff :
    split b = (ms, left) ↔ Takes b ms left ∧ ∀ m rest, decode left ≠ .complete m rest := by
  constructor
  · intro h
    have := takes_split b
    rwa [h] at this
  · rintro ⟨h, hstop⟩
    obtain ⟨hms, rfl⟩ := takes_iff.mp h
    rw [split_flatMap_append hms, split_of_not_complete hstop, List.append_nil]

/-! ## Where taking stops -/

theorem announced_of_parse? {h : Header} (hp : Header.parse? b = some h) :
    announced b = h.size.toNat ∧ headerSize ≤ b.length := by
  refine ⟨?_, Header.length_of_parse? hp⟩
  rw [eq_of_parse? hp, announced]
  have hlt := h.size.toNat_lt
  simp [Header.toBytes, Bytes.ofWord]
  omega

theorem announced_toBytes_append (h : m.Fits) (c : Bytes) :
    announced (m.toBytes ++ c) = headerSize + m.payload.length := by
  rw [(announced_of_parse? (m.parse?_toBytes c)).1, toNat_size_of_fits h]

theorem parse?_eq_none_iff : Header.parse? b = none ↔ b.length < headerSize := by
  match b with
  | [] | [_] | [_, _] | [_, _, _] => simp [Header.parse?, headerSize]
  | _ :: _ :: _ :: _ :: _ => simp [Header.parse?, headerSize]

theorem decode_of_header {header : Header} (hp : Header.parse? b = some header) :
    decode b =
      if header.size.toNat < headerSize then .malformed header.size.toNat
      else if b.length < header.size.toNat then .incomplete
      else .complete ⟨header.kind, (b.take header.size.toNat).drop headerSize⟩ (b.drop header.size.toNat) := by
  have hlen := Header.length_of_parse? hp
  unfold decode
  rw [hp]
  simp only [Header.IsValid, Header.payloadLength, List.length_take, List.length_drop]
  by_cases hsmall : header.size.toNat < headerSize
  · rw [if_neg (Nat.not_le.mpr hsmall), if_pos hsmall]
  · rw [if_pos (Nat.not_lt.mp hsmall), if_neg hsmall]
    by_cases hlong : b.length < header.size.toNat
    · rw [if_pos (by omega), if_pos hlong]
    · rw [if_neg (by omega), if_neg hlong, List.drop_drop, Nat.add_sub_cancel' (Nat.not_lt.mp hsmall),
        List.drop_take]

theorem decode_of_parse? {h : Header} (hp : Header.parse? b = some h) :
    (announced b < headerSize → decode b = .malformed (announced b)) ∧
      (headerSize ≤ announced b → b.length < announced b → decode b = .incomplete) ∧
      (headerSize ≤ announced b → announced b ≤ b.length → ∃ m rest, decode b = .complete m rest) := by
  have hd := decode_of_header hp
  rw [(announced_of_parse? hp).1]
  refine ⟨?_, ?_, ?_⟩
  · intro hlt
    rw [hd, if_pos hlt]
  · intro hle hlt
    rw [hd, if_neg (Nat.not_lt.mpr hle), if_pos hlt]
  · intro hle hall
    rw [hd, if_neg (Nat.not_lt.mpr hle), if_neg (Nat.not_lt.mpr hall)]
    exact ⟨_, _, rfl⟩

theorem decode_stops (b : Bytes) :
    (decode b = .incomplete ↔
      b.length < headerSize ∨ headerSize ≤ announced b ∧ b.length < announced b) ∧
    ∀ size, decode b = .malformed size ↔
      headerSize ≤ b.length ∧ announced b < headerSize ∧ size = announced b := by
  cases hp : Header.parse? b with
  | none =>
    have hshort := parse?_eq_none_iff.mp hp
    have hd : decode b = .incomplete := by rw [decode, hp]
    simp [hd, hshort, Nat.not_le.mpr hshort]
  | some h =>
    have hlen := (announced_of_parse? hp).2
    obtain ⟨hmalformed, hincomplete, hcomplete⟩ := decode_of_parse? hp
    by_cases hv : announced b < headerSize
    · rw [hmalformed hv]
      simp [hlen, hv, Nat.not_lt.mpr hlen, Nat.not_le.mpr hv, eq_comm]
    · have hv := Nat.not_lt.mp hv
      by_cases hs : b.length < announced b
      · rw [hincomplete hv hs]
        simp [hv, hs, Nat.not_lt.mpr hv]
      · obtain ⟨m, rest, hd⟩ := hcomplete hv (Nat.not_lt.mp hs)
        simp [hd, hv, hs, Nat.not_lt.mpr hv, Nat.not_lt.mpr hlen]

/-- **Writing and reading are inverse.** Messages that fit come back off a buffer as they were
appended to it, and nothing is left; bytes that arrive later are only left behind them. Any buffer is
what was taken off it, written again, and the rest, which is short of a header or of the size that it
announces, or announces less than a header. A message that does not fit leaves the buffer alone. -/
theorem append_take_inverse :
    (∀ ms : List Message, (∀ m ∈ ms, m.payload.length ≤ maxPayload) →
      ∃ b, appendEach ms [] = (.ok (), b) ∧ Takes b ms [] ∧ split b = (ms, [])) ∧
    (∀ (m : Message) (b rest c : Bytes), decode b = .complete m rest →
      announced b = headerSize + m.payload.length ∧ decode (b ++ c) = .complete m (rest ++ c)) ∧
    (∀ (b left : Bytes) (ms : List Message), Takes b ms left →
      ∃ e, appendEach ms [] = (.ok (), e) ∧ b = e ++ left) ∧
    (∀ (b left : Bytes) (ms : List Message), split b = (ms, left) ↔
      Takes b ms left ∧ (decode left = .incomplete ∨ ∃ size, decode left = .malformed size)) ∧
    (∀ b : Bytes, decode b = .incomplete ↔
      b.length < headerSize ∨ headerSize ≤ announced b ∧ b.length < announced b) ∧
    (∀ (b : Bytes) (size : Nat), decode b = .malformed size ↔
      headerSize ≤ b.length ∧ announced b < headerSize ∧ size = announced b) ∧
    ∀ (m : Message) (buffer : Bytes), maxPayload < m.payload.length →
      m.appendTo buffer = (.error (.payloadTooLarge m.payload.length maxPayload), buffer) := by
  refine ⟨?_, ?_, ?_, ?_, fun b => (decode_stops b).1, fun b => (decode_stops b).2, ?_⟩
  · intro ms hms
    have htakes : Takes (ms.flatMap toBytes) ms [] := takes_iff.mpr ⟨hms, by simp⟩
    refine ⟨ms.flatMap toBytes, appendEach_eq_ok_iff.mpr ⟨hms, by simp⟩, htakes, ?_⟩
    exact split_eq_iff.mpr ⟨htakes, fun _ _ => nofun⟩
  · intro m b rest c h
    obtain ⟨hm, rfl⟩ := decode_eq_complete_iff.mp h
    exact ⟨announced_toBytes_append hm rest, decode_append_of_complete h c⟩
  · intro b left ms h
    obtain ⟨hms, hb⟩ := takes_iff.mp h
    exact ⟨_, appendEach_eq_ok_iff.mpr ⟨hms, rfl⟩, hb⟩
  · intro b left ms
    rw [split_eq_iff]
    refine and_congr_right fun _ => ?_
    cases hd : decode left <;> simp
  · intro m buffer h
    exact appendTo_of_not_fits (Nat.not_le.mpr h) buffer

theorem two_messages_come_back :
    Takes [0, 6, 0, 0, 104, 105, 0, 5, 1, 2, 7, 0, 9, 0] [⟨0, [104, 105]⟩, ⟨0x0102, [7]⟩] [0, 9, 0] ∧
      ∃ e, appendEach [⟨0, [104, 105]⟩, ⟨0x0102, [7]⟩] [] = (.ok (), e) ∧
        [0, 6, 0, 0, 104, 105, 0, 5, 1, 2, 7, 0, 9, 0] = e ++ [0, 9, 0] := by
  have h : Takes [0, 6, 0, 0, 104, 105, 0, 5, 1, 2, 7, 0, 9, 0] [⟨0, [104, 105]⟩, ⟨0x0102, [7]⟩]
      [0, 9, 0] := .next rfl (.next rfl (.none _))
  exact ⟨h, append_take_inverse.2.2.1 _ _ _ h⟩

end

end EtherBench.Message
