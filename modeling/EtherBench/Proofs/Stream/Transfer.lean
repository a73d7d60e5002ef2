import EtherBench.Stream.Sink
import EtherBench.Stream.Source

/-!
# What reads and writes move

A read takes its bytes off the front of what is still to come; a write adds what
it takes behind what has been taken, and it takes a front part of its offer.
-/

namespace EtherBench

namespace Source
variable {room : Nat} {s t : Source} {b : Bytes} {f : Fault}

theorem length_of_read (h : s.read room = (.ok b, t)) : b.length ≤ room := by
  unfold read at h
  split at h
  · injection h with h _
    injection h with h
    simp [← h]
  · cases h
  · rename_i d rest _
    split at h
    · rename_i hd
      injection h with h _
      injection h with h
      rw [← h]
      exact List.drop_eq_nil_iff.mp hd
    · injection h with h _
      injection h with h
      rw [← h]
      exact List.length_take_le ..

def brought : Except Fault Bytes → Bytes
  | .ok b => b
  | .error _ => []

theorem bytes_of_read {o : Except Fault Bytes} (h : s.read room = (o, t)) :
    s.bytes = brought o ++ t.bytes := by
  unfold read at h
  split at h
  · injection h with h₁ h₂
    subst h₁ h₂
    rfl
  · rename_i hs
    injection h with h₁ h₂
    subst h₁ h₂
    simp [bytes, hs, ReadEvent.bytes, brought]
  · rename_i d rest hs
    split at h
    · injection h with h₁ h₂
      subst h₁ h₂
      simp [bytes, hs, ReadEvent.bytes, brought]
    · injection h with h₁ h₂
      subst h₁ h₂
      simp [bytes, hs, ReadEvent.bytes, brought, ← List.append_assoc]

theorem faults_of_read {o : Except Fault Bytes} (h : s.read room = (o, t)) :
    (∀ f, o = .error f → .fault f ∈ s.events) ∧ ∀ f, .fault f ∈ t.events → .fault f ∈ s.events := by
  unfold read at h
  split at h
  · cases h
    exact ⟨fun _ => nofun, fun _ hf => hf⟩
  · rename_i hs
    cases h
    rw [hs]
    refine ⟨?_, fun _ hf => List.mem_cons_of_mem _ hf⟩
    rintro f ⟨⟩
    exact List.mem_cons_self ..
  · rename_i hs
    split at h
    · cases h
      rw [hs]
      exact ⟨fun _ => nofun, fun _ hf => List.mem_cons_of_mem _ hf⟩
    · cases h
      rw [hs]
      exact ⟨fun _ => nofun, fun _ hf => by simpa using hf⟩

inductive Reads (room : Nat) : Source → List (Except Fault Bytes) → Source → Prop
  | none (s : Source) : Reads room s [] s
  | read {s t u : Source} {o : Except Fault Bytes} {outs : List (Except Fault Bytes)}
      (h : s.read room = (o, t)) (later : Reads room t outs u) : Reads room s (o :: outs) u

theorem Reads.append {u : Source} {outs outs' : List (Except Fault Bytes)}
    (h : Reads room s outs t) (h' : Reads room t outs' u) : Reads room s (outs ++ outs') u := by
  induction h with
  | none => exact h'
  | read h _ ih => exact .read h (ih h')

theorem Reads.bytes {outs : List (Except Fault Bytes)} (h : Reads room s outs t) :
    s.bytes = outs.flatMap brought ++ t.bytes := by
  induction h with
  | none => rfl
  | read h _ ih => rw [bytes_of_read h, ih, List.flatMap_cons, List.append_assoc]

def untilEnd : List ReadEvent → Bytes
  | [] => []
  | .fault _ :: rest => untilEnd rest
  | .data d :: rest => if d.isEmpty then [] else d ++ untilEnd rest

/-- The bytes that reads still bring before one of them reports the end. -/
def stream (s : Source) : Bytes := untilEnd s.events

theorem stream_of_read (h : s.read room = (.ok b, t)) (hb : b ≠ []) : s.stream = b ++ t.stream := by
  unfold read at h
  split at h
  · injection h with h _
    injection h with h
    exact absurd h.symm hb
  · cases h
  · rename_i d rest hs
    have hd : d ≠ [] := by
      intro hd
      subst hd
      rw [List.drop_nil] at h
      injection h with h _
      injection h with h
      exact hb h.symm
    rw [stream, hs, untilEnd, if_neg (fun he => hd (List.isEmpty_iff.mp he))]
    split at h
    · injection h with h₁ h₂
      injection h₁ with h₁
      rw [← h₁, ← h₂]
      rfl
    · rename_i hleft
      injection h with h₁ h₂
      injection h₁ with h₁
      rw [← h₁, ← h₂, stream, untilEnd, if_neg (fun he => hleft (List.isEmpty_iff.mp he)),
        ← List.append_assoc, List.take_append_drop]

theorem stream_of_read_nil (hroom : 0 < room) (h : s.read room = (.ok [], t)) : s.stream = [] := by
  unfold read at h
  split at h
  · rename_i hs
    rw [stream, hs]
    rfl
  · cases h
  · rename_i d rest hs
    split at h
    · injection h with h _
      injection h with h
      rw [stream, hs, h]
      rfl
    · rename_i hleft
      injection h with h _
      injection h with h
      rcases List.take_eq_nil_iff.mp h with h | h
      · omega
      · rw [h, List.drop_nil] at hleft
        exact absurd rfl hleft

theorem stream_of_read_error (h : s.read room = (.error f, t)) : t.stream = s.stream := by
  unfold read at h
  split at h
  · cases h
  · rename_i hs
    injection h with _ h
    rw [← h, stream, stream, hs, untilEnd]
  · split at h <;> cases h

end Source

namespace Sink
variable {s t : Sink} {b : Bytes} {n : Nat} {f : Fault}

theorem data_of_write (h : s.write b = (.ok n, t)) :
    t.data.toList = s.data.toList ++ b.take n := by
  unfold write at h
  split at h
  · injection h with h₁ h₂
    injection h₁ with h₁
    simp [← h₁, ← h₂]
  · injection h with h₁ h₂
    injection h₁ with h₁
    simp [← h₁, ← h₂, List.take_eq_take_iff]
  · cases h

theorem le_of_write (h : s.write b = (.ok n, t)) : n ≤ b.length := by
  unfold write at h
  split at h
  · injection h with h _
    injection h with h
    exact Nat.le_of_eq h.symm
  · injection h with h _
    injection h with h
    exact h ▸ Nat.min_le_right ..
  · cases h

theorem data_of_write_error (h : s.write b = (.error f, t)) : t.data = s.data := by
  unfold write at h
  split at h
  · cases h
  · cases h
  · injection h with _ h
    rw [← h]

theorem taken_of_complete (ws : List WriteEvent) (b : Bytes) :
    (Offer.make ws b).outcome = .complete → (Offer.make ws b).taken = b := by
  fun_induction Offer.make ws b with
  | case1 => exact fun _ => rfl
  | case2 => exact fun _ => rfl
  | case3 => exact fun h => nomatch h
  | case4 n ws b _ later ih =>
    intro h
    show b.take (n + 1) ++ later.taken = b
    rw [ih h, List.take_append_drop]
  | case5 f ws b _ _ ih => exact ih
  | case6 => exact fun h => nomatch h

theorem taken_isPrefix (ws : List WriteEvent) (b : Bytes) : (Offer.make ws b).taken <+: b := by
  fun_induction Offer.make ws b with
  | case1 => exact List.nil_prefix
  | case2 => exact List.prefix_refl _
  | case3 => exact List.nil_prefix
  | case4 n ws b _ later ih =>
    show b.take (n + 1) ++ later.taken <+: b
    conv => rhs; rw [← List.take_append_drop (n + 1) b]
    exact (List.prefix_append_right_inj _).mpr ih
  | case5 f ws b _ _ ih => exact ih
  | case6 => exact List.nil_prefix

/-- However it ends, a writing leaves the stream with a front part of its text, and flushes nothing. -/
theorem exists_part_of_writeAll (s : Sink) (b : Bytes) : ∃ part, part <+: b ∧
    (s.writeAll b).2.data.toList = s.data.toList ++ part ∧ (s.writeAll b).2.flushed = s.flushed :=
  ⟨(Offer.make s.writes b).taken, taken_isPrefix _ _, by simp [writeAll], rfl⟩

theorem data_of_writeAll (h : s.writeAll b = (.complete, t)) :
    t.data.toList = s.data.toList ++ b := by
  unfold writeAll at h
  simp only at h
  injection h with h₁ h₂
  simp [← h₂, taken_of_complete _ _ h₁]

def Patient (s : Sink) : Prop :=
  ∀ w ∈ s.writes, (∃ n, w = .accept (n + 1)) ∨ ∃ f, w = .fault f ∧ f.isInterruption

theorem make_of_patient (ws : List WriteEvent) (b : Bytes) (h : Patient { writes := ws }) :
    (Offer.make ws b).outcome = .complete ∧ ∀ w ∈ (Offer.make ws b).writes, w ∈ ws := by
  fun_induction Offer.make ws b with
  | case1 => exact ⟨rfl, fun _ hw => hw⟩
  | case2 => exact ⟨rfl, fun _ hw => hw⟩
  | case3 =>
    rcases h (.accept 0) (List.mem_cons_self ..) with ⟨n, hn⟩ | ⟨f, hf, _⟩
    · cases hn
    · cases hf
  | case4 n ws b _ later ih =>
    obtain ⟨hc, hw⟩ := ih fun w hw => h w (List.mem_cons_of_mem _ hw)
    exact ⟨hc, fun w h => List.mem_cons_of_mem _ (hw w h)⟩
  | case5 f ws b _ _ ih =>
    obtain ⟨hc, hw⟩ := ih fun w hw => h w (List.mem_cons_of_mem _ hw)
    exact ⟨hc, fun w h => List.mem_cons_of_mem _ (hw w h)⟩
  | case6 f ws b _ hi =>
    rcases h (.fault f) (List.mem_cons_self ..) with ⟨n, hn⟩ | ⟨g, hg, hint⟩
    · cases hn
    · cases hg
      exact absurd hint hi

theorem Patient.writeAll (h : s.Patient) (b : Bytes) :
    ∃ t, s.writeAll b = (.complete, t) ∧ t.Patient ∧ t.data.toList = s.data.toList ++ b := by
  obtain ⟨hc, hw⟩ := make_of_patient s.writes b h
  refine ⟨(s.writeAll b).2, Prod.ext hc rfl, fun w hmem => h w (hw w hmem), ?_⟩
  exact data_of_writeAll (Prod.ext hc rfl)

theorem data_of_flushOnce : (s.flushOnce).2.data = s.data := by
  unfold flushOnce
  split <;> rfl

theorem flushed_of_flushOnce : s.flushOnce.2.flushed =
    s.flushed + if s.flushOnce.1.isOk then 1 else 0 := by
  unfold flushOnce
  split <;> rfl

end Sink

end EtherBench
