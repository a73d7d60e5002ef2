import EtherBench.Hub
import EtherBench.Proofs.Message.Dispatching
import EtherBench.Proofs.Stream.Transfer

/-!
# What a tool puts out

A stream that takes everything in the end gets whole messages, also where a run
ends with an error: a message is refused before any of it is written. So what
holds of all answers of a tool, as long as the tool keeps to an invariant, holds
of all messages of its output.
-/

namespace EtherBench

namespace Sink

/-- What the stream has taken from `s` to `t` is whole messages, and `P` holds of each. -/
def Gained (P : Message → Prop) (s t : Sink) : Prop :=
  ∃ ms : List Message, t.data.toList = s.data.toList ++ ms.flatMap Message.toBytes ∧
    ∀ m ∈ ms, m.Fits ∧ P m

section
variable {s t u : Sink} {P : Message → Prop} {m : Message}

theorem Gained.refl (P : Message → Prop) (s : Sink) : Gained P s s := ⟨[], by simp, by simp⟩

theorem Gained.trans (h : Gained P s t) (h' : Gained P t u) : Gained P s u := by
  obtain ⟨ms, hd, hms⟩ := h
  obtain ⟨ms', hd', hms'⟩ := h'
  refine ⟨ms ++ ms', ?_, List.forall_mem_append.mpr ⟨hms, hms'⟩⟩
  rw [hd', hd, List.flatMap_append, List.append_assoc]

theorem flush_same (s : Sink) : s.flush.2.data = s.data ∧ s.flush.2.writes = s.writes := by
  obtain ⟨writes, flushes, data, flushed⟩ := s
  unfold flush
  simp only
  split <;> exact ⟨rfl, rfl⟩

theorem flushMessages_same (s : Sink) :
    s.flushMessages.2.data = s.data ∧ s.flushMessages.2.writes = s.writes := by
  have hf := s.flush_same
  unfold flushMessages
  split <;> rename_i h <;> rwa [h] at hf

theorem Patient.send (h : s.Patient) (hm : P m) :
    (s.send m).2.Patient ∧ Gained P s (s.send m).2 := by
  unfold Sink.send
  cases he : m.encode with
  | error e => exact ⟨h, .refl P s⟩
  | ok b =>
    obtain ⟨hfits, rfl⟩ := Message.encode_eq_ok_iff.mp he
    obtain ⟨t, hw, ht, hd⟩ := h.writeAll m.toBytes
    obtain ⟨hdata, hwrites⟩ := t.flushMessages_same
    simp only [hw]
    refine ⟨?_, [m], ?_, List.forall_mem_singleton.mpr ⟨hfits, hm⟩⟩
    · intro w hmem
      rw [hwrites] at hmem
      exact ht w hmem
    · rw [hdata, hd, List.flatMap_singleton]

theorem Patient.sendEach (h : s.Patient) {ms : List Message} (hms : ∀ m ∈ ms, P m) :
    (s.sendEach ms).2.Patient ∧ Gained P s (s.sendEach ms).2 := by
  induction ms generalizing s with
  | nil => exact ⟨h, .refl P s⟩
  | cons m ms ih =>
    rw [List.forall_mem_cons] at hms
    obtain ⟨hp, hg⟩ := h.send hms.1
    unfold Sink.sendEach
    split <;> rename_i he <;> rw [he] at hp hg
    · exact ⟨hp, hg⟩
    · obtain ⟨hp', hg'⟩ := ih hp hms.2
      exact ⟨hp', hg.trans hg'⟩

end

end Sink

/-! ## Runs -/

section
variable {σ : Type} {handler : Handler σ} {R : σ → Prop}

theorem Event.deliver_keeps (h : ∀ e s, R s → R (handler e s).2) (events : List Event) {s : σ}
    (hs : R s) : R (Event.deliver handler events s).2 := by
  induction events generalizing s with
  | nil => exact hs
  | cons e events ih =>
    have he := h e s hs
    unfold Event.deliver
    split <;> rename_i hr <;> rw [hr] at he
    · exact he
    · exact ih he

theorem Dispatcher.dispatch_keeps (h : ∀ e s, R s → R (handler e s).2) (m : Message) (d : Dispatcher)
    {s : σ} (hs : R s) : R (dispatch handler m d s).2.2 := by
  have hd := Event.deliver_keeps h (Event.ofMessage d.count d.rosterSeen m).1 hs
  unfold dispatch
  simp only
  split <;> rename_i he <;> rw [he] at hd
  · exact hd
  · split <;> exact hd

/-- What every call of a handler keeps, a run keeps, whatever it reads and however it ends. -/
theorem Dispatcher.run_keeps (h : ∀ e s, R s → R (handler e s).2) (d : Dispatcher) {s : σ} (hs : R s) :
    R (run handler d s).2.2 := by
  fun_induction run handler d s with
  | case1 => exact hs
  | case2 => exact hs
  | case3 d s m reader _ e d' s' hd =>
    have := dispatch_keeps h m { d with reader } hs
    rwa [hd] at this
  | case4 d s m reader _ d' s' hd ih =>
    have := dispatch_keeps h m { d with reader } hs
    rw [hd] at this
    exact ih this

end

namespace Tool

/-- Every answer keeps the tool in `I`, and consists of messages that `P` holds of. -/
def Answers {σ : Type} (tool : Tool σ) (I : σ → Prop) (P : Message → Prop) : Prop :=
  ∀ e s ms s', I s → tool e s = .ok (ms, s') → I s' ∧ ∀ m ∈ ms, P m

/-- Tool and stream somewhere in a run that began with the stream at `out`. -/
structure Within {σ : Type} (I : σ → Prop) (P : Message → Prop) (out : Sink) (st : σ × Sink) : Prop where
  state : I st.1
  patient : st.2.Patient
  gained : Sink.Gained P out st.2

section
variable {σ : Type} {tool : Tool σ} {I : σ → Prop} {P : Message → Prop} {s : σ} {out : Sink}

theorem Answers.handler (h : tool.Answers I P) (e : Event) {st : σ × Sink} (hs : Within I P out st) :
    Within I P out (tool.handler e st).2 := by
  obtain ⟨s, o⟩ := st
  obtain ⟨hi, hp, hg⟩ := hs
  show Within I P out (answer (tool e s) s o).2
  unfold answer
  cases he : tool e s with
  | error err => exact ⟨hi, hp, hg⟩
  | ok reaction =>
    obtain ⟨ms, s'⟩ := reaction
    obtain ⟨hi', hms⟩ := h e s ms s' hi he
    obtain ⟨hp', hg'⟩ := hp.sendEach hms
    exact ⟨hi', hp', hg.trans hg'⟩

/-- **All output of a tool is whole messages**, however its run ends. -/
theorem Answers.output (h : tool.Answers I P) (d : Dispatcher) (hs : I s) (ho : out.Patient) :
    Sink.Gained P out (Dispatcher.run tool.handler d (s, out)).2.2.2 := by
  have hw : Within I P out (s, out) := ⟨hs, ho, .refl P out⟩
  exact (Dispatcher.run_keeps (fun e _ => h.handler e) d hw).gained

end

def Carriable (n least : Nat) (m : Message) : Prop :=
  m.kind.toNat ≤ n ∧ (m.kind ≠ Message.control → least ≤ m.payload.length)

theorem carriable_ofText (n least : Nat) (text : String) : Carriable n least (Message.ofText text) :=
  ⟨Nat.zero_le n, fun h => absurd rfl h⟩

end Tool

/-! ## The hub -/

namespace Hub

theorem toNat_of_mem_others {h : Hub} {ingress i : UInt16} (hi : i ∈ h.others ingress) :
    i.toNat ≤ h.count.toNat := by
  obtain ⟨k, hk, rfl⟩ := List.mem_map.mp (List.mem_filter.mp hi).1
  rw [List.mem_range'_1] at hk
  rw [UInt16.toNat_ofNat']
  exact Nat.le_trans (Nat.mod_le ..) (by omega)

theorem answers (count : UInt16) :
    Tool.Answers Hub.react (fun h => h.count = count) (Tool.Carriable count.toNat 1) := by
  rintro e h ms h' rfl hr
  cases e with
  | roster i address =>
    cases hr
    exact ⟨rfl, by simp⟩
  | control text =>
    cases hr
    exact ⟨rfl, List.forall_mem_singleton.mpr (Tool.carriable_ofText ..)⟩
  | frame i frame =>
    have hr : (h.relay i frame).map (·, h) = .ok (ms, h') := hr
    unfold relay at hr
    split at hr
    · cases hr
    · split at hr
      · cases hr
        exact ⟨rfl, by simp⟩
      · rename_i hne
        cases hr
        refine ⟨rfl, fun m hm => ?_⟩
        obtain ⟨j, hj, rfl⟩ := List.mem_map.mp hm
        exact ⟨toNat_of_mem_others hj, fun _ => List.length_pos_iff.mpr (by simpa using hne)⟩

end Hub

end EtherBench
