import EtherBench.Message.Codec

/-!
# Streams of whole messages

A message that fits is encoded as its header and its payload, and whatever
follows does not change what is decoded from the front. A stream of such
messages therefore comes apart in one way only.
-/

namespace EtherBench.Message

def toBytes (m : Message) : Bytes :=
  (Header.mk (UInt16.ofNat (headerSize + m.payload.length)) m.kind).toBytes ++ m.payload

def Fits (m : Message) : Prop := m.payload.length ≤ maxPayload

instance (m : Message) : Decidable m.Fits := inferInstanceAs (Decidable (_ ≤ _))

def payloadsOf (kind : UInt16) (ms : List Message) : List Bytes :=
  (ms.filter (·.kind = kind)).map (·.payload)

section
variable (m : Message)

theorem length_toBytes : m.toBytes.length = headerSize + m.payload.length := by
  simp [toBytes, Header.length_toBytes]

theorem toBytes_ne_nil : m.toBytes ≠ [] := by
  intro h
  have := m.length_toBytes
  simp only [h, List.length_nil, headerSize] at this
  omega

theorem drop_toBytes : m.toBytes.drop headerSize = m.payload := by
  rw [toBytes, List.drop_left' (Header.length_toBytes _)]

theorem toNat_size_of_fits {m : Message} (h : m.Fits) :
    (UInt16.ofNat (headerSize + m.payload.length)).toNat = headerSize + m.payload.length := by
  simp only [Fits, maxPayload, maxSize, headerSize] at h ⊢
  rw [UInt16.toNat_ofNat']
  omega

theorem encode_eq_ok_iff {m : Message} {b : Bytes} : m.encode = .ok b ↔ m.Fits ∧ b = m.toBytes := by
  unfold encode Header.forPayload Fits toBytes
  by_cases h : maxPayload < m.payload.length
  · simp [h, Nat.not_le.mpr h]
  · simp only [if_neg h, Except.ok.injEq, Nat.not_lt.mp h, true_and]
    exact eq_comm

theorem encode_of_fits {m : Message} (h : m.Fits) : m.encode = .ok m.toBytes :=
  encode_eq_ok_iff.mpr ⟨h, rfl⟩

theorem parse?_toBytes (rest : Bytes) :
    Header.parse? (m.toBytes ++ rest) =
      some ⟨UInt16.ofNat (headerSize + m.payload.length), m.kind⟩ := by
  simp only [toBytes, Header.toBytes, Bytes.ofWord, List.cons_append, List.nil_append,
    Header.parse?, Bytes.toWord_ofNat]

end

theorem payloadsOf_append (kind : UInt16) (ms ms' : List Message) :
    payloadsOf kind (ms ++ ms') = payloadsOf kind ms ++ payloadsOf kind ms' := by
  rw [payloadsOf, List.filter_append, List.map_append]
  rfl

theorem payloadsOf_self {m : Message} {kind : UInt16} (h : m.kind = kind) :
    payloadsOf kind [m] = [m.payload] := by
  rw [payloadsOf, List.filter_cons_of_pos (by simpa using h)]
  rfl

theorem payloadsOf_other {m : Message} {kind : UInt16} (h : m.kind ≠ kind) :
    payloadsOf kind [m] = [] := by
  rw [payloadsOf, List.filter_cons_of_neg (by simpa using h)]
  rfl

theorem kind_ne {i j : Nat} (hi : i < maxInterfaces) (hj : j < maxInterfaces) (h : i ≠ j) :
    UInt16.ofNat (i + 1) ≠ UInt16.ofNat (j + 1) := by
  simp only [maxInterfaces, maxPayload, maxSize, headerSize] at hi hj
  intro he
  have := congrArg UInt16.toNat he
  simp only [UInt16.toNat_ofNat'] at this
  omega

theorem control_ne_kind {i : Nat} (hi : i < maxInterfaces) : control ≠ UInt16.ofNat (i + 1) := by
  simp only [maxInterfaces, maxPayload, maxSize, headerSize] at hi
  intro he
  have := congrArg UInt16.toNat he
  simp only [control, UInt16.toNat_ofNat', UInt16.toNat_zero] at this
  omega

theorem eq_of_parse? {b : Bytes} {h : Header} (hp : Header.parse? b = some h) :
    b = h.toBytes ++ b.drop headerSize := by
  match b with
  | [] | [_] | [_, _] | [_, _, _] => simp [Header.parse?] at hp
  | a :: b :: c :: d :: rest =>
    simp only [Header.parse?, Option.some.injEq] at hp
    subst hp
    simp [Header.toBytes, Bytes.ofWord_toWord, headerSize]

/-- **A message comes back from the front of a buffer**, whatever follows it. -/
theorem decode_toBytes_append {m : Message} (h : m.Fits) (rest : Bytes) :
    decode (m.toBytes ++ rest) = .complete m rest := by
  have hsize := toNat_size_of_fits h
  have hvalid : (Header.mk (UInt16.ofNat (headerSize + m.payload.length)) m.kind).IsValid := by
    simp only [Header.IsValid, hsize]
    exact Nat.le_add_right _ _
  have hdrop : (m.toBytes ++ rest).drop headerSize = m.payload ++ rest := by
    rw [List.drop_append_of_le_length (by rw [length_toBytes]; exact Nat.le_add_right _ _),
      drop_toBytes]
  unfold decode
  rw [parse?_toBytes]
  simp only [if_pos hvalid, hdrop, Header.payloadLength, hsize, Nat.add_sub_cancel_left,
    List.take_left', List.drop_left', Nat.lt_irrefl, if_false]

theorem eq_of_decode {b rest : Bytes} {m : Message} (h : decode b = .complete m rest) :
    b = m.toBytes ++ rest ∧ m.Fits := by
  unfold decode at h
  split at h
  · cases h
  · rename_i hd hp
    split at h
    · rename_i hvalid
      simp only at h
      split at h
      · cases h
      · rename_i hn
        injection h with h₁ h₂
        subst h₁ h₂
        have hlt : hd.size.toNat < 65536 := hd.size.toNat_lt
        simp only [Header.IsValid] at hvalid
        have hlen : ((b.drop headerSize).take hd.payloadLength).length = hd.payloadLength := by
          rw [List.length_take] at hn ⊢
          omega
        have hsize : headerSize + hd.payloadLength = hd.size.toNat := by
          unfold Header.payloadLength
          omega
        constructor
        · conv => lhs; rw [eq_of_parse? hp]
          simp only [toBytes, hlen, hsize, UInt16.ofNat_toNat, List.append_assoc,
            List.take_append_drop]
        · simp only [Fits]
          rw [hlen]
          simp only [Header.payloadLength, maxPayload, maxSize]
          omega
    · cases h

theorem decode_eq_complete_iff {b rest : Bytes} {m : Message} :
    decode b = .complete m rest ↔ m.Fits ∧ b = m.toBytes ++ rest := by
  constructor
  · intro h
    exact (eq_of_decode h).symm
  · rintro ⟨h, rfl⟩
    exact decode_toBytes_append h rest

theorem decode_append_of_complete {b rest : Bytes} {m : Message} (h : decode b = .complete m rest)
    (c : Bytes) : decode (b ++ c) = .complete m (rest ++ c) := by
  obtain ⟨hm, hb⟩ := decode_eq_complete_iff.mp h
  exact decode_eq_complete_iff.mpr ⟨hm, by rw [hb, List.append_assoc]⟩

theorem decode_append_of_malformed {b : Bytes} {n : Nat} (h : decode b = .malformed n) (c : Bytes) :
    decode (b ++ c) = .malformed n := by
  unfold decode at h
  split at h
  · cases h
  · rename_i hd hp
    split at h
    · simp only at h
      split at h <;> cases h
    · rename_i hv
      have hp' : Header.parse? (b ++ c) = some hd := by
        match b with
        | [] | [_] | [_, _] | [_, _, _] => simp [Header.parse?] at hp
        | _ :: _ :: _ :: _ :: _ => exact hp
      rw [decode, hp']
      simp only [if_neg hv]
      exact h

/-- A buffer of one largest message is never too small for the message at its front. -/
theorem length_lt_of_incomplete {b : Bytes} (h : decode b = .incomplete) : b.length < maxSize := by
  unfold decode at h
  split at h
  · rename_i hp
    match b with
    | [] | [_] | [_, _] | [_, _, _] => simp [maxSize]
    | _ :: _ :: _ :: _ :: _ => simp [Header.parse?] at hp
  · rename_i hd hp
    split at h
    · simp only at h
      split at h
      · rename_i hn
        have hlt : hd.size.toNat < 65536 := hd.size.toNat_lt
        simp only [List.length_take, List.length_drop, Header.payloadLength] at hn
        simp only [maxSize]
        omega
      · cases h
    · cases h

/-! ## Taking a stream apart -/

theorem split_of_not_complete {b : Bytes} (h : ∀ m rest, decode b ≠ .complete m rest) :
    split b = ([], b) := by
  rw [split]
  split
  · rename_i m rest hd
    exact absurd hd (h m rest)
  · rfl

theorem split_of_complete {b rest : Bytes} {m : Message} (h : decode b = .complete m rest) :
    split b = (m :: (split rest).1, (split rest).2) := by
  rw [split]
  split
  · rename_i m' rest' h'
    rw [h] at h'
    injection h' with h₁ h₂
    subst h₁ h₂
    rfl
  · rename_i hn
    exact absurd h (hn m rest)

/-- A property of octets follows them message by message, as they are taken off. -/
@[elab_as_elim]
theorem front_induction {P : Bytes → Prop}
    (complete : ∀ b m rest, decode b = .complete m rest → P rest → P b)
    (stuck : ∀ b, (∀ m rest, decode b ≠ .complete m rest) → P b) (b : Bytes) : P b := by
  fun_induction split b with
  | case1 b m rest hd _ _ _ ih => exact complete b m rest hd ih
  | case2 b hstuck => exact stuck b hstuck

/-- **A stream of whole messages comes apart into them**, and then into what follows. -/
theorem split_flatMap_append {ms : List Message} (h : ∀ m ∈ ms, m.Fits) (b : Bytes) :
    split (ms.flatMap toBytes ++ b) = (ms ++ (split b).1, (split b).2) := by
  induction ms with
  | nil => rfl
  | cons m ms ih =>
    have hm := h m (List.mem_cons_self ..)
    rw [List.flatMap_cons, List.append_assoc, split_of_complete (decode_toBytes_append hm _),
      ih fun s hs => h s (List.mem_cons_of_mem _ hs)]
    rfl

end EtherBench.Message
