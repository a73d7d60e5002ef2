import EtherBench.Link.AuxData

/-!
# Tags that the kernel announces

The control messages of a received frame announce a tag by the first one that
has the kernel's data in full: what comes before may be of another kind, or too
short. The data is read here by the places of its octets.
-/

namespace EtherBench

namespace AuxData

/-- The number that octets spell, the low one first. -/
def number : Bytes → Nat
  | [] => 0
  | b :: bs => b.toNat + 256 * number bs

def statusOf (b : Bytes) : Nat := number (b.take 4)

def tciOf (b : Bytes) : Nat := number ((b.drop 16).take 2)

def tpidOf (b : Bytes) : Nat := number ((b.drop 18).take 2)

/-- The data tells of a tag: with its type, or with no type where it is the usual one. A tag whose
number is zero is told of by the status alone. -/
inductive TellsOf (b : Bytes) : Tag → Prop
  | typed {t : Tag} (tci_eq : tciOf b = t.tci.toNat) (tpid_eq : tpidOf b = t.tpid.toNat)
      (valid : (statusOf b).testBit vlanValid) (given : (statusOf b).testBit tpidValid) : TellsOf b t
  | usual {tci : UInt16} (tci_eq : tciOf b = tci.toNat) (tpid_eq : tpidOf b = 0)
      (not_given : ¬ (statusOf b).testBit tpidValid)
      (valid : (statusOf b).testBit vlanValid ∨ tci ≠ 0) : TellsOf b ⟨Tag.dot1q, tci⟩

end AuxData

def ControlMessage.HasAuxData (c : ControlMessage) : Prop :=
  c.level = AuxData.level ∧ c.type = AuxData.type ∧ AuxData.size ≤ c.data.length

instance (c : ControlMessage) : Decidable c.HasAuxData := inferInstanceAs (Decidable (_ ∧ _ ∧ _))

/-- The first of the control messages with the data in full tells of the tag. -/
def ControlMessage.Announce (cs : List ControlMessage) (t : Tag) : Prop :=
  ∃ before c after, cs = before ++ c :: after ∧ (∀ b ∈ before, ¬ b.HasAuxData) ∧
    c.HasAuxData ∧ AuxData.TellsOf c.data t

namespace AuxData

theorem half_eq (a b : UInt8) : (half a b).toNat = number [a, b] := by
  rw [half, Bytes.toNat_toWord, number, number, number]
  omega

theorem whole_eq (a b c d : UInt8) : whole a b c d = number [a, b, c, d] := by
  simp only [whole, half_eq, number]
  omega

theorem exists_four {b : Bytes} (h : 4 ≤ b.length) :
    ∃ w x y z rest, b = w :: x :: y :: z :: rest ∧ b.length = rest.length + 4 := by
  match b with
  | [] | [_] | [_, _] | [_, _, _] => simp at h
  | w :: x :: y :: z :: rest => exact ⟨w, x, y, z, rest, rfl, rfl⟩

theorem ofBytes?_of_length {b : Bytes} (h : size ≤ b.length) :
    ∃ aux, ofBytes? b = some aux ∧ aux.status = statusOf b ∧ aux.vlanTci.toNat = tciOf b ∧
      aux.vlanTpid.toNat = tpidOf b := by
  simp only [size] at h
  obtain ⟨s₀, s₁, s₂, s₃, b, rfl, hb⟩ := exists_four (b := b) (by omega)
  obtain ⟨l₀, l₁, l₂, l₃, b, rfl, hb'⟩ := exists_four (b := b) (by omega)
  obtain ⟨c₀, c₁, c₂, c₃, b, rfl, hb''⟩ := exists_four (b := b) (by omega)
  obtain ⟨m₀, m₁, n₀, n₁, b, rfl, hb'''⟩ := exists_four (b := b) (by omega)
  obtain ⟨t₀, t₁, p₀, p₁, b, rfl, _⟩ := exists_four (b := b) (by omega)
  exact ⟨_, rfl, whole_eq .., half_eq .., half_eq ..⟩

theorem ofBytes?_of_short {b : Bytes} (h : b.length < size) : ofBytes? b = none := by
  unfold ofBytes?
  split
  · simp only [List.length_cons, size] at h
    omega
  · rfl

theorem find?_of_first {before after : List ControlMessage} {c : ControlMessage}
    (hbefore : ∀ b ∈ before, ¬ b.HasAuxData) (hc : c.HasAuxData) :
    find? (before ++ c :: after) = ofBytes? c.data := by
  induction before with
  | nil =>
    obtain ⟨hlevel, htype, hlen⟩ := hc
    obtain ⟨aux, haux, _⟩ := ofBytes?_of_length hlen
    simp only [List.nil_append, find?, hlevel, htype, and_self, if_true, haux]
  | cons b before ih =>
    have hnone : (if b.level = level ∧ b.type = type then ofBytes? b.data else none) = none := by
      split
      · rename_i hb
        apply ofBytes?_of_short
        apply Nat.lt_of_not_le
        exact fun hlen => hbefore b (List.mem_cons_self ..) ⟨hb.1, hb.2, hlen⟩
      · rfl
    rw [List.cons_append, find?, hnone]
    exact ih fun b hb => hbefore b (List.mem_cons_of_mem _ hb)

/-- **An announced tag is read back**, its type included. -/
theorem tag_of_announce {cs : List ControlMessage} {t : Tag} (h : ControlMessage.Announce cs t) :
    (find? cs).bind tag = some t := by
  obtain ⟨before, c, after, rfl, hbefore, hc, htells⟩ := h
  obtain ⟨aux, haux, hstatus, htci, htpid⟩ := ofBytes?_of_length hc.2.2
  rw [find?_of_first hbefore hc, haux, Option.bind_some, tag, hstatus]
  cases htells with
  | typed tci_eq tpid_eq valid given =>
    have htci := UInt16.toNat_inj.mp (htci.trans tci_eq)
    have htpid := UInt16.toNat_inj.mp (htpid.trans tpid_eq)
    simp [valid, given, htci, htpid]
  | usual tci_eq tpid_eq not_given valid =>
    have htci := UInt16.toNat_inj.mp (htci.trans tci_eq)
    have htpid : aux.vlanTpid = 0 := UInt16.toNat_inj.mp (htpid.trans tpid_eq)
    rw [htci, htpid, if_neg, if_neg]
    · simpa using not_given
    · simp only [Bool.not_eq_true', not_and, Bool.not_eq_false]
      intro hzero
      exact valid.resolve_right (not_not_intro hzero)

end AuxData

end EtherBench
