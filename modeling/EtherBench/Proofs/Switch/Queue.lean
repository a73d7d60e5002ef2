import EtherBench.Switch.Table

/-!
# The learning table is a queue

Read from the cursor on, the places of a table are empty ones and then the
entries, the one that came first in front. Learning does to them what it does
to a queue that never holds more than eight.
-/

namespace EtherBench.LearningTable

/-- The places from the cursor on, round to the one before it. -/
def aged (t : LearningTable) : List (Option Entry) :=
  t.slots.toList.drop t.cursor ++ t.slots.toList.take t.cursor

def find (address : MacAddress) (q : List Entry) : Option UInt16 :=
  (q.find? (·.address = address)).map (·.interface)

/-- An address that is known keeps its place and takes the new interface; a new one is put at the
end, and the first entry goes when there are too many. -/
def enqueue (q : List Entry) (e : Entry) : List Entry :=
  if q.any (·.address = e.address) then q.map (relocate e.address e.interface)
  else if capacity < (q ++ [e]).length then (q ++ [e]).tail else q ++ [e]

/-- The table holds the entries of `q`, the oldest first, and no address twice. -/
structure Holds (t : LearningTable) (q : List Entry) : Prop where
  aged : t.aged = List.replicate (capacity - q.length) none ++ q.map some
  length : q.length ≤ capacity
  nodup : (q.map (·.address)).Nodup

section
variable {t : LearningTable} {q : List Entry} {a : MacAddress} {i : UInt16}

theorem holds_empty : empty.Holds [] := by
  refine ⟨?_, Nat.zero_le _, List.nodup_nil⟩
  decide

theorem Holds.perm (h : t.Holds q) : t.entries.Perm q := by
  have hq : t.aged.filterMap id = q := by
    rw [h.aged, List.filterMap_append, List.filterMap_replicate_of_none rfl, List.nil_append,
      List.filterMap_map]
    exact List.filterMap_some
  rw [← hq]
  unfold entries LearningTable.aged
  conv => lhs; rw [← List.take_append_drop t.cursor t.slots.toList]
  exact List.perm_append_comm.filterMap id

theorem find_eq_some_iff (hn : (q.map (·.address)).Nodup) : find a q = some i ↔ ⟨a, i⟩ ∈ q := by
  induction q with
  | nil => simp [find]
  | cons e q ih =>
    rw [List.map_cons, List.nodup_cons] at hn
    obtain ⟨hnot, hn⟩ := hn
    by_cases he : e.address = a
    · have hother : ⟨a, i⟩ ∉ q := by
        intro hmem
        refine hnot ?_
        rw [he]
        exact List.mem_map_of_mem (f := (·.address)) hmem
      rw [find, List.find?_cons_of_pos (by simpa using he), List.mem_cons, or_iff_left hother,
        Option.map_some, Option.some.injEq]
      constructor
      · intro hi
        rw [← he, ← hi]
      · intro hi
        rw [← hi]
    · have hne : (⟨a, i⟩ : Entry) ≠ e := by
        intro h
        exact he (by rw [← h])
      rw [find, List.find?_cons_of_neg (by simpa using he), List.mem_cons, or_iff_right hne]
      exact ih hn

theorem Holds.lookup_eq (h : t.Holds q) (a : MacAddress) : t.lookup a = find a q := by
  have hn : (t.entries.map (·.address)).Nodup := (h.perm.map _).nodup_iff.mpr h.nodup
  refine Option.ext fun i => ?_
  have ht : t.lookup a = some i ↔ ⟨a, i⟩ ∈ t.entries := find_eq_some_iff hn
  rw [ht, find_eq_some_iff h.nodup]
  exact h.perm.mem_iff

theorem find_eq_none_iff : find a q = none ↔ q.any (·.address = a) = false := by
  rw [find, Option.map_eq_none_iff, List.find?_eq_none, List.any_eq_false]

theorem aged_map (t : LearningTable) (f : Option Entry → Option Entry) :
    aged { t with slots := t.slots.map f } = t.aged.map f := by
  simp only [aged, Vector.toList_map, List.map_append, List.map_drop, List.map_take]

theorem aged_insert (t : LearningTable) (e : Entry) :
    aged ⟨t.slots.set t.cursor (some e) t.cursor.isLt, t.cursor + 1⟩ = t.aged.tail ++ [some e] := by
  have hc : t.cursor.val < t.slots.toList.length := by
    rw [Vector.length_toList]
    exact t.cursor.isLt
  have hset : (t.slots.set t.cursor (some e)).toList =
      t.slots.toList.take t.cursor ++ [some e] ++ t.slots.toList.drop (t.cursor + 1) := by
    rw [Vector.toList_set, List.set_eq_take_append_cons_drop, if_pos hc, List.append_assoc]
    rfl
  have htail : t.aged.tail = t.slots.toList.drop (t.cursor + 1) ++ t.slots.toList.take t.cursor := by
    rw [aged, List.drop_eq_getElem_cons hc]
    rfl
  have hlen : (t.slots.toList.take t.cursor ++ [some e]).length = t.cursor + 1 := by
    rw [List.length_append, List.length_take, Nat.min_eq_left (Nat.le_of_lt hc)]
    rfl
  have hval : (t.cursor + 1).val = (t.cursor.val + 1) % 8 := rfl
  rw [htail, List.append_assoc, aged, hset]
  rw [Vector.length_toList] at hc
  by_cases hlast : t.cursor.val + 1 < 8
  · rw [hval, Nat.mod_eq_of_lt hlast, List.drop_left' hlen, List.take_left' hlen]
  · -- the cursor goes back to the first place
    have hdrop : t.slots.toList.drop (t.cursor + 1) = [] := by
      rw [List.drop_eq_nil_iff, Vector.length_toList]
      exact Nat.not_lt.mp hlast
    have hzero : (t.cursor + 1).val = 0 := by omega
    rw [hzero, hdrop, List.drop_zero, List.take_zero, List.append_nil, List.append_nil, List.nil_append]

theorem any_of_lookup_none (h : t.Holds q) (hn : t.lookup a = none) : q.any (·.address = a) = false := by
  rw [h.lookup_eq] at hn
  exact find_eq_none_iff.mp hn

theorem not_mem_of_any (h : q.any (·.address = a) = false) : a ∉ q.map (·.address) := by
  intro hmem
  obtain ⟨e, he, hea⟩ := List.mem_map.mp hmem
  exact List.any_eq_false.mp h e he (by simpa using hea)

theorem map_relocate_of_mem (hn : (q.map (·.address)).Nodup) (hm : ⟨a, i⟩ ∈ q) :
    q.map (relocate a i) = q := by
  conv => rhs; rw [← List.map_id q]
  refine List.map_congr_left fun e he => ?_
  by_cases hea : e.address = a
  · have hi : find a q = some e.interface := (find_eq_some_iff hn).mpr (hea ▸ he)
    rw [(find_eq_some_iff hn).mpr hm, Option.some.injEq] at hi
    rw [relocate, if_pos hea, hi]
    rfl
  · rw [relocate, if_neg hea]
    rfl

theorem map_relocate_address (q : List Entry) :
    (q.map (relocate a i)).map (·.address) = q.map (·.address) := by
  rw [List.map_map]
  refine List.map_congr_left fun e _ => ?_
  simp only [Function.comp, relocate]
  split <;> rfl

/-- **Learning is what a bounded queue does.** -/
theorem Holds.learn (h : t.Holds q) (a : MacAddress) (i : UInt16) :
    (t.learn a i).2.Holds (enqueue q ⟨a, i⟩) := by
  unfold LearningTable.learn
  cases hl : t.lookup a with
  | some known =>
    rw [h.lookup_eq] at hl
    have hmem := (find_eq_some_iff h.nodup).mp hl
    have hany : q.any (·.address = a) = true := List.any_eq_true.mpr ⟨_, hmem, by simp⟩
    rw [enqueue, if_pos hany]
    simp only
    split
    · rename_i hsame
      rw [← hsame, map_relocate_of_mem h.nodup hmem]
      exact h
    · refine ⟨?_, ?_, ?_⟩
      · rw [aged_map, h.aged, List.map_append, List.map_replicate, List.map_map, List.length_map,
          List.map_map]
        rfl
      · rw [List.length_map]
        exact h.length
      · rw [map_relocate_address]
        exact h.nodup
  | none =>
    have hany := any_of_lookup_none h hl
    have hnot := not_mem_of_any hany
    have hnodup : ((q ++ [(⟨a, i⟩ : Entry)]).map (·.address)).Nodup := by
      rw [List.map_append, List.nodup_append]
      refine ⟨h.nodup, by simp, ?_⟩
      intro x hx y hy hxy
      rw [List.map_singleton, List.mem_singleton] at hy
      rw [hxy, hy] at hx
      exact hnot hx
    have hlen := h.length
    rw [enqueue, hany, if_neg Bool.false_ne_true, List.length_append, List.length_singleton]
    simp only
    by_cases hfull : capacity < q.length + 1
    · -- every place is taken, and the oldest entry goes
      have heq : capacity - q.length = 0 := by omega
      rw [if_pos hfull]
      have hne : q ≠ [] := by
        intro hnil
        rw [hnil] at heq
        cases heq
      obtain ⟨e, rest, rfl⟩ := List.exists_cons_of_ne_nil hne
      refine ⟨?_, ?_, ?_⟩
      · rw [aged_insert, h.aged, heq]
        simp [List.length_append] at heq ⊢
        omega
      · simp at hfull hlen ⊢
        omega
      · exact (List.nodup_cons.mp hnodup).2
    · rw [if_neg hfull]
      have hsucc : capacity - q.length = capacity - (q.length + 1) + 1 := by omega
      refine ⟨?_, ?_, hnodup⟩
      · rw [aged_insert, h.aged, hsucc, List.replicate_succ, List.length_append, List.length_singleton,
          List.cons_append, List.tail_cons, List.map_append, List.append_assoc]
        rfl
      · rw [List.length_append, List.length_singleton]
        omega

end

end EtherBench.LearningTable
