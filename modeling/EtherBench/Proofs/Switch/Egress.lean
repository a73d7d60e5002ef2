import EtherBench.Proofs.Ethernet.Tagging
import EtherBench.Proofs.Switch.Isolation
import EtherBench.Proofs.Tool.Output

/-!
# What leaves a switch

Interfaces are numbered by their places, and an address is only ever learned on
one that exists. So every copy of a frame is for an interface of the switch, and
none is shorter than a frame header: a tag is only taken out of frames that are
long enough to have had one.
-/

namespace EtherBench

namespace LearningTable
variable {t : LearningTable} {a : MacAddress} {i : UInt16} {e : Entry}

theorem mem_entries : e ∈ t.entries ↔ some e ∈ t.slots.toList := by
  simp [entries, List.mem_filterMap]

theorem mem_entries_of_learn (h : e ∈ (t.learn a i).2.entries) : e.interface = i ∨ e ∈ t.entries := by
  unfold learn at h
  split at h
  · split at h
    · exact .inr h
    · -- an entry that moved is on the new interface, the others are as they were
      rw [mem_entries, Vector.toList_map, List.mem_map] at h
      obtain ⟨slot, hslot, he⟩ := h
      obtain ⟨x, rfl, rfl⟩ := Option.map_eq_some_iff.mp he
      unfold relocate
      split
      · exact .inl rfl
      · exact .inr (mem_entries.mpr hslot)
  · rw [mem_entries, Vector.toList_set] at h
    rcases List.mem_or_eq_of_mem_set h with h | h
    · exact .inr (mem_entries.mpr h)
    · cases h
      exact .inl rfl

theorem exists_entry_of_lookup (h : t.lookup a = some i) : ∃ e ∈ t.entries, e.interface = i := by
  obtain ⟨e, he, rfl⟩ := Option.map_eq_some_iff.mp h
  exact ⟨e, List.mem_of_find?_eq_some he, rfl⟩

end LearningTable

namespace Switch

/-- Interfaces are numbered by their places, and addresses were learned on some of them. -/
structure Numbered (n : Nat) (s : Switch) : Prop where
  length : s.ports.length = n
  index : ∀ k p, s.ports[k]? = some p → p.interface.index.toNat = k + 1
  learned : ∀ e ∈ (s.table.getD .empty).entries, e.interface.toNat ≤ n

section
variable {s s' : Switch} {n slot : Nat} {frame : Bytes} {q i : UInt16} {change : TagChange}

theorem numbered_of_ofInterfaces {args : List String} {interfaces : List Interface}
    (hp : Interface.parseAll args = .ok interfaces) (hs : ofInterfaces interfaces = .ok s) :
    s.Numbered interfaces.length := by
  have hports := ports_of_ofInterfaces hs
  refine ⟨?_, ?_, ?_⟩
  · rw [← hports, List.length_map]
  · intro k p hk
    exact (index_of_built hp hports hk).2
  · rw [table_of_ofInterfaces hs]
    intro e he
    have hnone : e ∈ LearningTable.empty.entries := he
    cases hnone

theorem Numbered.of_interfaces (h : s.Numbered n)
    (hp : s'.ports.map (·.interface) = s.ports.map (·.interface))
    (hl : ∀ e ∈ (s'.table.getD .empty).entries, e.interface.toNat ≤ n) : s'.Numbered n := by
  refine ⟨(length_eq_of_map_eq hp).trans h.length, ?_, hl⟩
  intro k p hk
  obtain ⟨p', hk', he⟩ := exists_of_map_eq hp hk
  rw [he]
  exact h.index k p' hk'

theorem toNat_of_slot (h : s.slot i = .ok slot) : i.toNat ≤ s.ports.length := by
  unfold Switch.slot at h
  split at h
  · cases h
  · rename_i hc
    obtain ⟨_, hle⟩ := not_or.mp hc
    have hle : i.toNat ≤ s.count.toNat := UInt16.not_lt.mp hle
    rw [count, UInt16.toNat_ofNat'] at hle
    exact Nat.le_trans hle (Nat.mod_le ..)

/-! ## Copies -/

theorem length_of_strip (h : (q, .strip) ∈ s.floodPlan slot frame) :
    Frame.headerSize + Tag.size ≤ frame.length := by
  unfold floodPlan at h
  split at h
  · cases h
  · simp only at h
    split at h
    · split at h
      · split at h
        · cases h
        · rename_i hlen
          exact Nat.not_lt.mp hlen
      · cases h
    · -- an untagged frame has no tag to lose
      split at h
      · obtain ⟨_, egress, _, _, hf⟩ := exists_egress h
        unfold untaggedCopy at hf
        split at hf <;> split at hf <;> cases hf
      · cases h

theorem length_of_apply {copy : Bytes} (hlen : Frame.headerSize ≤ frame.length)
    (hq : (q, change) ∈ s.floodPlan slot frame) (h : change.apply frame = some copy) :
    Frame.headerSize ≤ copy.length := by
  cases change with
  | keep =>
    cases h
    exact hlen
  | insert =>
    have := Frame.length_insertTag h
    omega
  | strip =>
    have := Frame.length_stripTag h
    have := length_of_strip hq
    omega

theorem Numbered.flooded (h : s.Numbered n) (hlen : Frame.headerSize ≤ frame.length) (slot : Nat) :
    ∀ m ∈ copies (s.floodPlan slot frame) frame, Tool.Carriable n Frame.headerSize m := by
  intro m hm
  obtain ⟨⟨q, change⟩, hq, hm⟩ := List.mem_filterMap.mp hm
  obtain ⟨copy, hcopy, rfl⟩ := Option.map_eq_some_iff.mp hm
  obtain ⟨_, j, egress, _, _, hj, hindex, _⟩ := mem_floodPlan hq
  have hlt := (List.getElem?_eq_some_iff.mp hj).1
  refine ⟨?_, fun _ => length_of_apply hlen hq hcopy⟩
  show q.toNat ≤ n
  rw [← hindex, h.index j egress hj, ← h.length]
  exact hlt

/-! ## Answers -/

theorem Numbered.relay (h : s.Numbered n) (hi : i.toNat ≤ n) (hlen : Frame.headerSize ≤ frame.length)
    (slot : Nat) (dst src : MacAddress) :
    (s.relay i slot frame dst src (s.table.getD .empty)).2.Numbered n ∧
      ∀ m ∈ (s.relay i slot frame dst src (s.table.getD .empty)).1, Tool.Carriable n Frame.headerSize m := by
  have hlearn : ∀ e ∈ ((s.table.getD .empty).learn src i).2.entries, e.interface.toNat ≤ n := by
    intro e he
    rcases LearningTable.mem_entries_of_learn he with rfl | he
    · exact hi
    · exact h.learned e he
  refine ⟨h.of_interfaces rfl hlearn, ?_⟩
  unfold Switch.relay
  simp only
  split
  · rename_i egress hegress
    split at hegress
    · obtain ⟨e, he, rfl⟩ := LearningTable.exists_entry_of_lookup hegress
      exact List.forall_mem_singleton.mpr ⟨hlearn e he, fun _ => hlen⟩
    · cases hegress
  · exact h.flooded hlen slot

theorem carriable_of_command (n least : Nat) (s : Switch) (text : String) :
    ∀ m ∈ s.command text, Tool.Carriable n least m := by
  intro m hm
  unfold command at hm
  obtain ⟨answer, _, rfl⟩ := Option.map_eq_some_iff.mp (Option.mem_toList.mp hm)
  exact Tool.carriable_ofText n least answer

/-- **A switch stays in order and sends nothing that cannot be carried on**, whatever it is told. -/
theorem answers (n : Nat) :
    Tool.Answers Switch.react (Numbered n) (Tool.Carriable n Frame.headerSize) := by
  intro e s ms s' h hr
  have hports := interfaces_of_react hr
  cases e with
  | control text =>
    have hr : Except.ok (s.command (Utf8.decode text), s) = .ok (ms, s') := hr
    obtain ⟨hms, hs⟩ := Prod.mk.inj (Except.ok.inj hr)
    rw [← hms, ← hs]
    exact ⟨h, carriable_of_command n _ s _⟩
  | roster i address =>
    have hr : (s.enroll i address).map ([], ·) = .ok (ms, s') := hr
    unfold enroll at hr
    split at hr
    · cases hr
    · obtain ⟨hms, hs⟩ := Prod.mk.inj (Except.ok.inj hr)
      subst hms hs
      exact ⟨h.of_interfaces hports h.learned, by simp⟩
  | frame i frame =>
    have hr : s.forward i frame = .ok (ms, s') := hr
    unfold forward at hr
    split at hr
    · cases hr
    · rename_i slot hslot
      have hi : i.toNat ≤ n := h.length ▸ toNat_of_slot hslot
      simp only at hr
      split at hr
      · split at hr
        · cases hr
          exact ⟨h.of_interfaces rfl h.learned, by simp⟩
        · rename_i dst src _ _ hc
          have hlen := Nat.not_lt.mp (not_or.mp hc).1
          have := h.relay hi hlen slot dst src
          rw [Except.ok.inj hr] at this
          exact this
      · cases hr
        exact ⟨h.of_interfaces rfl h.learned, by simp⟩

end

end Switch

end EtherBench
