import EtherBench.Proofs.Switch.Queue
import Mathlib.Data.List.DropRight

/-!
# What the learning table remembers

From its beginning on, the table does and reports what a queue of at most eight
entries does. So what it remembers is settled by its history: the last eight
addresses that were new to it, each with the interface where it was seen last.
-/

namespace EtherBench

/-- The address of a sighting that was reported as new, and no address for any other. -/
def Learned.entered (address : MacAddress) : Learned → List MacAddress
  | .inserted .. => [address]
  | .moved _ => []
  | .unchanged => []

namespace LearningTable

def learnEach (t : LearningTable) (sightings : List Entry) : LearningTable :=
  sightings.foldl (fun t e => (t.learn e.address e.interface).2) t

/-- The addresses that some sightings put into the table, in order. An address that was driven out and
seen again is listed again. -/
def insertions : LearningTable → List Entry → List MacAddress
  | _, [] => []
  | t, e :: later =>
    let (learned, t) := t.learn e.address e.interface
    learned.entered e.address ++ insertions t later

def queued (sightings : List Entry) : List Entry := sightings.foldl enqueue []

/-- What a queue of at most eight entries makes of a sighting, and what is reported of it, after so many
insertions. An entry that is there keeps its place, and a new one comes behind all others; then the
oldest goes if there were eight. -/
inductive Queues (count : Nat) (e : Entry) : List Entry → Learned → List Entry → Prop
  | known (older newer : List Entry) :
      Queues count e (older ++ e :: newer) .unchanged (older ++ e :: newer)
  | moved (older newer : List Entry) {origin : UInt16} (hne : origin ≠ e.interface) :
      Queues count e (older ++ ⟨e.address, origin⟩ :: newer) (.moved origin) (older ++ e :: newer)
  | room {q : List Entry} (hnew : e.address ∉ q.map (·.address)) (hlen : q.length < capacity) :
      Queues count e q (.inserted (count % capacity) none) (q ++ [e])
  | full {oldest : Entry} {q : List Entry} (hnew : e.address ∉ (oldest :: q).map (·.address))
      (hlen : (oldest :: q).length = capacity) :
      Queues count e (oldest :: q) (.inserted (count % capacity) (some oldest)) (q ++ [e])

section
variable {t : LearningTable} {q q' : List Entry} {e : Entry} {learned : Learned} {count : Nat}

/-! ## One sighting -/

theorem map_relocate_of_forall_ne {a : MacAddress} {i : UInt16} (h : a ∉ q.map (·.address)) :
    q.map (relocate a i) = q := by
  conv => rhs; rw [← List.map_id q]
  refine List.map_congr_left fun x hx => if_neg fun hxa => h ?_
  exact List.mem_map.mpr ⟨x, hx, hxa⟩

theorem aged_head? (t : LearningTable) : t.aged.head? = some (t.slots.get t.cursor) := by
  have hc : t.cursor.val < t.slots.toList.length := by
    rw [Vector.length_toList]
    exact t.cursor.isLt
  rw [aged, List.drop_eq_getElem_cons hc]
  rfl

theorem Holds.slots_cursor (h : t.Holds q) :
    t.slots.get t.cursor = if q.length < capacity then none else q.head? := by
  have hhead := t.aged_head?
  rw [h.aged] at hhead
  by_cases hlt : q.length < capacity
  · have hsucc : capacity - q.length = capacity - (q.length + 1) + 1 := by omega
    rw [hsucc, List.replicate_succ, List.cons_append, List.head?_cons] at hhead
    rw [if_pos hlt]
    exact (Option.some.inj hhead).symm
  · have hzero : capacity - q.length = 0 := by omega
    have hne : q ≠ [] := by
      rintro rfl
      exact hlt (by decide)
    obtain ⟨oldest, rest, rfl⟩ := List.exists_cons_of_ne_nil hne
    rw [hzero, List.replicate_zero, List.nil_append, List.map_cons, List.head?_cons] at hhead
    rw [if_neg hlt, List.head?_cons]
    exact (Option.some.inj hhead).symm

/-- **A sighting does to the table what it does to the queue**, and is reported as the queue reports it. -/
theorem Holds.queues (h : t.Holds q) (hc : t.cursor.val = count % capacity) (e : Entry) :
    Queues count e q (t.learn e.address e.interface).1 (enqueue q e) := by
  have hlen := h.length
  unfold LearningTable.learn
  cases hl : t.lookup e.address with
  | some known =>
    rw [h.lookup_eq] at hl
    have hmem := (find_eq_some_iff h.nodup).mp hl
    have hany : q.any (·.address = e.address) = true := List.any_eq_true.mpr ⟨_, hmem, by simp⟩
    rw [enqueue, if_pos hany]
    simp only
    by_cases hsame : known = e.interface
    · rw [if_pos hsame, map_relocate_of_mem h.nodup (hsame ▸ hmem)]
      obtain ⟨older, newer, rfl⟩ := List.append_of_mem (hsame ▸ hmem)
      exact .known older newer
    · rw [if_neg hsame]
      obtain ⟨older, newer, rfl⟩ := List.append_of_mem hmem
      have hn := h.nodup
      rw [List.map_append, List.map_cons, List.nodup_append, List.nodup_cons] at hn
      obtain ⟨_, ⟨hnewer, _⟩, hdisjoint⟩ := hn
      have holder : e.address ∉ older.map (·.address) :=
        fun hm => hdisjoint _ hm _ (List.mem_cons_self ..) rfl
      rw [List.map_append, List.map_cons, map_relocate_of_forall_ne holder,
        map_relocate_of_forall_ne hnewer, relocate, if_pos rfl]
      exact .moved older newer hsame
  | none =>
    have hany := any_of_lookup_none h hl
    have hnew := not_mem_of_any hany
    rw [enqueue, hany, if_neg Bool.false_ne_true, List.length_append, List.length_singleton]
    simp only [hc]
    show Queues count e q (.inserted (count % capacity) (t.slots.get t.cursor)) _
    rw [h.slots_cursor]
    by_cases hroom : q.length < capacity
    · rw [if_pos hroom, if_neg (by omega)]
      exact .room hnew hroom
    · rw [if_neg hroom, if_pos (by omega)]
      have hfull : q.length = capacity := by omega
      cases q with
      | nil => cases hfull
      | cons oldest q => exact .full hnew hfull

theorem Queues.mem_self (h : Queues count e q learned q') : e ∈ q' := by
  cases h <;> simp

theorem Queues.mem_of_mem (h : Queues count e q learned q') {x : Entry} (hne : x.address ≠ e.address)
    (hx : x ∈ q') : x ∈ q := by
  have hxe : x ≠ e := fun hxe => hne (congrArg Entry.address hxe)
  cases h with
  | known => exact hx
  | moved older newer =>
    rw [List.mem_append, List.mem_cons] at hx ⊢
    exact hx.imp_right fun hx => .inr (hx.resolve_left hxe)
  | room => exact (List.mem_append.mp hx).resolve_right (by simpa using hxe)
  | full => exact List.mem_cons_of_mem _ ((List.mem_append.mp hx).resolve_right (by simpa using hxe))

theorem Queues.mem_of_kept (h : Queues count e q learned q') {x : Entry} (hne : x.address ≠ e.address)
    (hkept : ∀ slot y, learned = .inserted slot (some y) → x.address ≠ y.address) (hx : x ∈ q) :
    x ∈ q' := by
  cases h with
  | known => exact hx
  | moved older newer =>
    rw [List.mem_append, List.mem_cons] at hx ⊢
    refine hx.imp_right fun hx => .inr (hx.resolve_left ?_)
    rintro rfl
    exact hne rfl
  | room => exact List.mem_append_left _ hx
  | full =>
    refine List.mem_append_left _ ((List.mem_cons.mp hx).resolve_left ?_)
    rintro rfl
    exact hkept _ _ rfl rfl

/-! ## A history of sightings -/

theorem learnEach_append (t : LearningTable) (sightings later : List Entry) :
    t.learnEach (sightings ++ later) = (t.learnEach sightings).learnEach later :=
  List.foldl_append

theorem insertions_append (t : LearningTable) (sightings later : List Entry) :
    t.insertions (sightings ++ later) = t.insertions sightings ++ (t.learnEach sightings).insertions later := by
  induction sightings generalizing t with
  | nil => rfl
  | cons e sightings ih =>
    simp only [List.cons_append, insertions, ih, List.append_assoc]
    rfl

theorem queued_concat (sightings : List Entry) (e : Entry) :
    queued (sightings ++ [e]) = enqueue (queued sightings) e :=
  List.foldl_concat ..

/-- The table after `sightings`, as far as they settle it: its queue, the place that comes next, and of
the queue the addresses and the interface of each. -/
structure Recalls (t : LearningTable) (sightings : List Entry) : Prop where
  holds : t.Holds (queued sightings)
  cursor : t.cursor.val = (insertions .empty sightings).length % capacity
  recent : (queued sightings).map (·.address) = (insertions .empty sightings).rtake capacity
  current : ∀ x ∈ queued sightings, find x.address sightings.reverse = some x.interface

theorem Queues.recent (h : Queues count e q learned q') {inserted : List MacAddress}
    (hr : q.map (·.address) = inserted.rtake capacity) :
    q'.map (·.address) = (inserted ++ learned.entered e.address).rtake capacity := by
  have hlen : q.length = capacity ⊓ inserted.length := by
    have := congrArg List.length hr
    simp only [List.length_map, List.rtake, List.length_drop] at this
    omega
  cases h with
  | known => rw [hr, Learned.entered, List.append_nil]
  | moved older newer =>
    rw [Learned.entered, List.append_nil, ← hr]
    simp
  | room hnew hroom =>
    have hall : inserted.rtake 7 = inserted.rtake capacity := by
      simp only [List.rtake, capacity] at *
      congr 1
      omega
    rw [Learned.entered, List.map_append, hr]
    exact (congrArg (· ++ _) hall.symm).trans (List.rtake_concat_succ ..).symm
  | full hnew hfull =>
    have htail : inserted.rtake 7 = (inserted.rtake capacity).tail := by
      rw [List.rtake, List.rtake, List.tail_drop]
      simp only [capacity] at *
      congr 1
      omega
    rw [Learned.entered, List.map_append]
    rw [← hr, List.map_cons, List.tail_cons] at htail
    exact (congrArg (· ++ _) htail.symm).trans (List.rtake_concat_succ ..).symm

theorem Queues.current (h : Queues count e q learned q') (hn : (q'.map (·.address)).Nodup)
    {seen : List Entry} (hc : ∀ x ∈ q, find x.address seen = some x.interface) :
    ∀ x ∈ q', find x.address (e :: seen) = some x.interface := by
  intro x hx
  by_cases hxe : x.address = e.address
  · have hi := (find_eq_some_iff hn).mpr h.mem_self
    rw [← hxe, (find_eq_some_iff hn).mpr hx, Option.some.injEq] at hi
    rw [find, List.find?_cons_of_pos (by simpa using hxe.symm), Option.map_some, hi]
  · rw [find, List.find?_cons_of_neg (by simpa using Ne.symm hxe)]
    exact hc x (h.mem_of_mem hxe hx)

theorem recalls_empty : Recalls .empty [] :=
  ⟨holds_empty, rfl, rfl, List.forall_mem_nil _⟩

theorem cursor_learn (hc : t.cursor.val = count % capacity) (e : Entry) :
    (t.learn e.address e.interface).2.cursor.val =
      (count + ((t.learn e.address e.interface).1.entered e.address).length) % capacity := by
  unfold LearningTable.learn
  split
  · split
    · exact hc
    · exact hc
  · show (t.cursor + 1).val = (count + 1) % capacity
    rw [Fin.val_add, hc]
    exact Nat.mod_add_mod ..

theorem Recalls.queues {sightings : List Entry} (h : Recalls t sightings) (e : Entry) :
    Queues (insertions .empty sightings).length e (queued sightings) (t.learn e.address e.interface).1
      (queued (sightings ++ [e])) := by
  rw [queued_concat]
  exact h.holds.queues h.cursor e

/-- **What the table remembers is kept by every sighting.** -/
theorem Recalls.learn {sightings : List Entry} (h : Recalls (learnEach .empty sightings) sightings)
    (e : Entry) : Recalls (learnEach .empty (sightings ++ [e])) (sightings ++ [e]) := by
  have hqueues := h.queues e
  have hholds := h.holds.learn e.address e.interface
  have hinsertions : insertions .empty (sightings ++ [e]) = insertions .empty sightings ++
      ((learnEach .empty sightings).learn e.address e.interface).1.entered e.address := by
    rw [insertions_append]
    exact congrArg _ (List.append_nil _)
  rw [learnEach_append]
  constructor
  · rw [queued_concat]
    exact hholds
  · rw [hinsertions, List.length_append]
    exact cursor_learn h.cursor e
  · rw [hinsertions]
    exact hqueues.recent h.recent
  · rw [List.reverse_concat]
    refine hqueues.current ?_ h.current
    rw [queued_concat]
    exact hholds.nodup

theorem recalls (sightings : List Entry) : Recalls (learnEach .empty sightings) sightings := by
  induction sightings using List.reverseRecOn with
  | nil => exact recalls_empty
  | append_singleton sightings e ih => exact ih.learn e

theorem Recalls.lookup_eq_some_iff {sightings : List Entry} (h : Recalls t sightings) {a : MacAddress}
    {i : UInt16} : t.lookup a = some i ↔
      a ∈ (insertions .empty sightings).rtake capacity ∧ find a sightings.reverse = some i := by
  rw [h.holds.lookup_eq, find_eq_some_iff h.holds.nodup, ← h.recent]
  constructor
  · intro hmem
    exact ⟨List.mem_map.mpr ⟨_, hmem, rfl⟩, h.current _ hmem⟩
  · rintro ⟨hmem, hi⟩
    obtain ⟨x, hx, rfl⟩ := List.mem_map.mp hmem
    rw [h.current x hx, Option.some.injEq] at hi
    exact hi ▸ hx

theorem Recalls.length_entries {sightings : List Entry} (h : Recalls t sightings) :
    t.entries.length = min capacity (insertions .empty sightings).length := by
  have hlen := congrArg List.length h.recent
  simp only [List.length_map, List.rtake, List.length_drop] at hlen
  rw [h.holds.perm.length_eq, hlen]
  omega

theorem learn_of_unchanged {a : MacAddress} {i : UInt16} (h : (t.learn a i).1 = .unchanged) :
    (t.learn a i).2 = t := by
  unfold LearningTable.learn at *
  split
  · split
    · rfl
    · rename_i hl hne
      simp only [hl, if_neg hne] at h
      cases h
  · rename_i hl
    simp only [hl] at h
    cases h

/-- **The learning table is a queue of at most eight**, whatever it has seen. It reports of a sighting what
the queue does with it, and it holds what the queue holds: no address twice, all that were inserted up
to eight of them, and of an address what was seen of it last, provided that it is one of the last eight
insertions. Other addresses than the one that is seen and the one that is driven out stay as they were. -/
theorem learns_as_queue {sightings : List Entry} {inserted : List MacAddress} {t' : LearningTable}
    (ht : learnEach .empty sightings = t) (hins : insertions .empty sightings = inserted)
    (hl : t.learn e.address e.interface = (learned, t')) :
    t.Holds (queued sightings) ∧ t'.Holds (queued (sightings ++ [e])) ∧
      Queues inserted.length e (queued sightings) learned (queued (sightings ++ [e])) ∧
      (learned = .unchanged → t' = t) ∧
      (t.entries.map (·.address)).Nodup ∧ t.entries.length = min capacity inserted.length ∧
      (∀ a i, t.lookup a = some i ↔
        a ∈ inserted.rtake capacity ∧ find a sightings.reverse = some i) ∧
      ∀ a, a ≠ e.address → (∀ slot y, learned = .inserted slot (some y) → a ≠ y.address) →
        t'.lookup a = t.lookup a := by
  have h := recalls sightings
  have hnext := (recalls (sightings ++ [e])).holds
  have hqueues := h.queues e
  have hsame := @learn_of_unchanged t e.address e.interface
  rw [learnEach_append, learnEach, List.foldl_cons, List.foldl_nil] at hnext
  rw [ht] at h hnext hqueues
  rw [hins] at hqueues
  rw [hl] at hnext hqueues hsame
  subst hins
  refine ⟨h.holds, hnext, hqueues, hsame, ?_, h.length_entries, fun _ _ => h.lookup_eq_some_iff, ?_⟩
  · exact (h.holds.perm.map _).nodup_iff.mpr h.holds.nodup
  · intro a hne hkept
    refine Option.ext fun i => ?_
    rw [hnext.lookup_eq, h.holds.lookup_eq, find_eq_some_iff hnext.nodup, find_eq_some_iff h.holds.nodup]
    exact ⟨hqueues.mem_of_mem hne, hqueues.mem_of_kept hne hkept⟩

def member (n : UInt8) : Entry := ⟨⟨Vector.replicate 6 n⟩, 1⟩

/-- Eight stations, of which the first moves to interface 2, and then a ninth. -/
def crowd : List Entry :=
  [1, 2, 3, 4, 5, 6, 7, 8].map member ++ [⟨(member 1).address, 2⟩, member 9]

theorem crowded_table_drives_out_second :
    (∀ i, (learnEach .empty crowd).lookup (member 1).address ≠ some i) ∧
      (learnEach .empty crowd).learn (member 1).address 1 =
        (.inserted 1 (some (member 2)), ((learnEach .empty crowd).learn (member 1).address 1).2) ∧
      Queues 9 (member 1) (queued crowd) (.inserted 1 (some (member 2))) (queued (crowd ++ [member 1])) ∧
      ((learnEach .empty crowd).learn (member 1).address 1).2.lookup (member 3).address =
        (learnEach .empty crowd).lookup (member 3).address := by
  have hins : insertions .empty crowd =
      ([1, 2, 3, 4, 5, 6, 7, 8, 9].map member).map (·.address) := by decide +kernel
  have hl : (learnEach .empty crowd).learn (member 1).address 1 =
      (.inserted 1 (some (member 2)), ((learnEach .empty crowd).learn (member 1).address 1).2) :=
    Prod.ext (by decide +kernel) rfl
  obtain ⟨_, _, hqueues, _, _, _, hlookup, hother⟩ := learns_as_queue (e := member 1) rfl hins hl
  refine ⟨fun i hi => ?_, hl, hqueues, hother _ (by decide) ?_⟩
  · exact absurd ((hlookup _ i).mp hi).1 (by decide)
  · rintro slot y ⟨⟩
    decide

end

end LearningTable

end EtherBench
