import EtherBench.Proofs.Message.Reading
import EtherBench.Proofs.Message.RoundTrip
import Mathlib.Logic.Relation

/-!
# How much a reader holds

A call of a reader looks at the front of its buffer and reads by turns, and reads
again after an interruption without another look. Here a call is taken apart into
these acts, so that what holds when a read is made can be said: the buffer is
short of the message at its front, and one chunk more is all that it ever holds.
-/

namespace EtherBench.Reader

def capacity : Nat := Message.maxSize - 1 + chunkSize

inductive Stage
  | look
  | read
  deriving DecidableEq

structure Moment where
  stage : Stage
  reader : Reader

inductive Act
  | goesOn (w : Moment)
  | returns (result : Except MessageError Message) (r : Reader)

namespace Moment

def act : Moment → Act
  | ⟨.look, r⟩ =>
    match Message.decode r.buffer with
    | .complete m rest => .returns (.ok m) { r with buffer := rest }
    | .malformed size => .returns (.error (.sizeBelowHeader size Message.headerSize)) r
    | .incomplete => .goesOn ⟨.read, r⟩
  | ⟨.read, r⟩ =>
    match r.source.read chunkSize with
    | (.error f, source) =>
      if f.isInterruption then .goesOn ⟨.read, { r with source }⟩
      else .returns (.error (.fault f)) { r with source }
    | (.ok [], source) =>
      .returns (.error (if r.buffer.isEmpty then .connectionClosed else .closedMidMessage r.buffer.length))
        { r with source }
    | (.ok (b :: bs), source) => .goesOn ⟨.look, ⟨source, r.buffer ++ b :: bs⟩⟩

def Follows (v w : Moment) : Prop := v.act = .goesOn w

def Leads : Moment → Moment → Prop := Relation.ReflTransGen Follows

structure Bounded (w : Moment) : Prop where
  length : w.reader.buffer.length ≤ capacity
  short : w.stage = .read → Message.decode w.reader.buffer = .incomplete

end Moment

def Within (r : Reader) (w : Moment) : Prop := Moment.Leads ⟨.look, r⟩ w

open Moment

section
variable {r r' : Reader} {v w : Moment} {source : Source} {res : Except MessageError Message}

/-! ## A call by its acts -/

theorem follows_of_incomplete (h : Message.decode r.buffer = .incomplete) :
    Follows ⟨.look, r⟩ ⟨.read, r⟩ := by
  simp only [Follows, act, h]

theorem reads_until_chunk {events : List ReadEvent} {o : Except Fault Bytes} (buffer : Bytes)
    (h : chunk events = (o, source)) : ∃ t : Source,
    Leads ⟨.read, ⟨⟨events⟩, buffer⟩⟩ ⟨.read, ⟨t, buffer⟩⟩ ∧ t.read chunkSize = (o, source) ∧
      ∀ f, o = .error f → f.isInterruption = false := by
  obtain ⟨faults, rest, rfl, hfaults, hread⟩ := exists_read_of_chunk h
  refine ⟨⟨rest⟩, ?_, hread⟩
  clear h
  induction faults with
  | nil => exact .refl
  | cons f faults ih =>
    rw [List.forall_mem_cons] at hfaults
    refine .head ?_ (ih hfaults.2)
    simp only [Follows, act, Source.read, List.map_cons, List.cons_append, if_pos hfaults.1]

theorem Passes.leads (h : r.Passes r') : Leads ⟨.look, r⟩ ⟨.look, r'⟩ := by
  induction h with
  | here r => exact .refl
  | @read r r' x b source hd hc _ ih =>
    obtain ⟨t, hleads, hread, _⟩ := reads_until_chunk r.buffer hc
    refine .head (follows_of_incomplete hd) (hleads.trans (.head ?_ ih))
    simp only [Follows, act, hread]

theorem Ends.returns (h : r.Ends res r') : ∃ last, r.Within last ∧ last.act = .returns res r' := by
  -- where a read decides, it is the last of those behind one chunk
  have hchunk : ∀ {o source}, Message.decode r.buffer = .incomplete →
      chunk r.source.events = (o, source) → ∃ t : Source, r.Within ⟨.read, { r with source := t }⟩ ∧
        t.read chunkSize = (o, source) ∧ ∀ f, o = .error f → f.isInterruption = false := by
    intro o source hd hc
    obtain ⟨t, hleads, hread⟩ := reads_until_chunk r.buffer hc
    exact ⟨t, .head (follows_of_incomplete hd) hleads, hread⟩
  cases h with
  | message hd => exact ⟨_, .refl, by simp only [act, hd]⟩
  | malformed hd => exact ⟨_, .refl, by simp only [act, hd]⟩
  | fault hd hc =>
    obtain ⟨t, hleads, hread, hf⟩ := hchunk hd hc
    refine ⟨_, hleads, ?_⟩
    simp only [act, hread, hf _ rfl, Bool.false_eq_true, if_false]
  | closed hd hc hb =>
    obtain ⟨t, hleads, hread, _⟩ := hchunk hd hc
    refine ⟨_, hleads, ?_⟩
    simp only [act, hread, hb, List.isEmpty_nil, if_true]
  | closedMidMessage hd hc hb =>
    obtain ⟨t, hleads, hread, _⟩ := hchunk hd hc
    refine ⟨_, hleads, ?_⟩
    simp only [act, hread]
    rw [if_neg (by simpa using hb)]

theorem follows_unique : Relator.RightUnique Follows := by
  intro v w w' h h'
  have := h.symm.trans h'
  injection this

theorem eq_of_leads_of_returns (hleads : v.Leads w) (h : v.act = .returns res r') : v = w := by
  rcases Relation.ReflTransGen.cases_head hleads with rfl | ⟨u, hu, _⟩
  · rfl
  · rw [Follows, h] at hu
    cases hu

theorem returns_unique {res' : Except MessageError Message} {r'' : Reader} (hv : r.Within v)
    (hw : r.Within w) (h : v.act = .returns res r') (h' : w.act = .returns res' r'') :
    res = res' ∧ r' = r'' := by
  have heq : v = w := by
    rcases Relation.ReflTransGen.total_of_right_unique follows_unique hv hw with hleads | hleads
    · exact eq_of_leads_of_returns hleads h
    · exact (eq_of_leads_of_returns hleads h').symm
  subst heq
  injection h.symm.trans h' with hres hr
  exact ⟨hres, hr⟩

/-- **A call goes on by its acts to what it returns**, and to nothing else. -/
theorem returns_iff : (∃ last, r.Within last ∧ last.act = .returns res r') ↔ r.next = (res, r') := by
  obtain ⟨mid, hp, he⟩ := r.next_ends
  obtain ⟨last, hleads, hreturns⟩ := he.returns
  have hlast : r.Within last := hp.leads.trans hleads
  constructor
  · rintro ⟨w, hw, h⟩
    obtain ⟨hres, hr⟩ := returns_unique hlast hw hreturns h
    exact Prod.ext hres hr
  · intro h
    rw [h] at hreturns
    exact ⟨last, hlast, hreturns⟩

/-! ## What is kept -/

theorem Moment.Bounded.follows (hv : v.Bounded) (h : v.Follows w) : w.Bounded := by
  obtain ⟨stage, r⟩ := v
  obtain ⟨hlen, hshort⟩ := hv
  cases stage with
  | look =>
    unfold Follows act at h
    simp only at h
    split at h
    · cases h
    · cases h
    · rename_i hd
      cases h
      exact ⟨hlen, fun _ => hd⟩
  | read =>
    unfold Follows act at h
    simp only at h
    split at h
    · split at h
      · cases h
        exact ⟨hlen, hshort⟩
      · cases h
    · cases h
    · -- a chunk comes to a buffer that was short of its message
      rename_i b bs source hread
      cases h
      have hfew := Message.length_lt_of_incomplete (hshort rfl)
      have hchunk := Source.length_of_read hread
      refine ⟨?_, fun hstage => by cases hstage⟩
      simp only at hfew ⊢
      rw [List.length_append, capacity]
      omega

theorem Moment.Bounded.leads (hv : v.Bounded) (h : v.Leads w) : w.Bounded := by
  induction h with
  | refl => exact hv
  | tail _ hstep ih => exact ih.follows hstep

theorem Moment.length_of_returns (h : w.act = .returns res r) :
    r.buffer.length ≤ w.reader.buffer.length := by
  obtain ⟨stage, r⟩ := w
  cases stage with
  | look =>
    unfold act at h
    simp only at h
    split at h
    · rename_i hd
      have := Message.length_of_decode hd
      cases h
      simp only
      omega
    · cases h
      exact Nat.le_refl _
    · cases h
  | read =>
    unfold act at h
    simp only at h
    split at h
    · split at h
      · cases h
      · cases h
        exact Nat.le_refl _
    · cases h
      exact Nat.le_refl _
    · cases h

theorem bounded_of_within (hr : r.buffer.length ≤ capacity) (h : r.Within w) : w.Bounded := by
  have hv : Moment.Bounded ⟨.look, r⟩ := ⟨hr, fun hstage => by cases hstage⟩
  exact hv.leads h

theorem length_next_le (hr : r.buffer.length ≤ capacity) : r.next.2.buffer.length ≤ capacity := by
  obtain ⟨last, hlast, hreturns⟩ := returns_iff.mpr (rfl : r.next = (r.next.1, r.next.2))
  exact Nat.le_trans (Moment.length_of_returns hreturns) (bounded_of_within hr hlast).length

theorem length_calls_le (n : Nat) (hr : r.buffer.length ≤ capacity) :
    (calls n r).2.buffer.length ≤ capacity := by
  induction n generalizing r with
  | zero => exact hr
  | succ n ih => exact ih (length_next_le hr)

/-- **A reader holds less than a message and a chunk.** At every moment of any number of calls, whatever
the calls before have returned, the buffer is within the bound; and no read is made while a whole message
or a header that is too short is at its front. The moments lead to what the next call returns, and to
nothing else. -/
theorem reader_holds_message_and_chunk (source : Source) (n : Nat) (h : (calls n { source }).2 = r) :
    65534 + 8192 ≤ Message.maxSize + chunkSize ∧
    (∀ res r', (∃ last, r.Within last ∧ last.act = .returns res r') ↔ r.next = (res, r')) ∧
    ∀ w, r.Within w → w.reader.buffer.length ≤ 65534 + 8192 ∧
      (w.stage = .read →
        (∀ (m : Message) rest, m.Fits → w.reader.buffer ≠ m.toBytes ++ rest) ∧
        ∀ header, Message.Header.parse? w.reader.buffer = some header →
          Message.headerSize ≤ header.size.toNat) := by
  have hr : r.buffer.length ≤ capacity := h ▸ length_calls_le n (Nat.zero_le _)
  refine ⟨by decide, fun _ _ => returns_iff, fun w hw => ?_⟩
  have hbounded := bounded_of_within hr hw
  refine ⟨hbounded.length, fun hread => ⟨fun m rest hm hb => ?_, fun header hp => ?_⟩⟩
  · have hd := hbounded.short hread
    rw [hb, Message.decode_toBytes_append hm] at hd
    cases hd
  · refine Nat.not_lt.mp fun hshort => ?_
    have hd := hbounded.short hread
    rw [decode_of_short hp hshort] at hd
    cases hd

/-! ## The bound is reached -/

theorem incomplete_of_append {b c : Bytes} (h : Message.decode (b ++ c) = .incomplete) :
    Message.decode b = .incomplete := by
  cases hd : Message.decode b with
  | incomplete => rfl
  | malformed size =>
    rw [Message.decode_append_of_malformed hd] at h
    cases h
  | complete m rest =>
    rw [Message.decode_append_of_complete hd] at h
    cases h

theorem leads_of_read {c : Bytes} (hd : Message.decode r.buffer = .incomplete) (hc : c ≠ [])
    (h : r.source.read chunkSize = (.ok c, source)) : Leads ⟨.look, r⟩ ⟨.look, ⟨source, r.buffer ++ c⟩⟩ := by
  obtain ⟨x, c, rfl⟩ := List.exists_cons_of_ne_nil hc
  refine .head (follows_of_incomplete hd) (.single ?_)
  simp only [Follows, act, h]

theorem leads_of_piece {rest : List ReadEvent} {b d : Bytes} (hd : d ≠ [])
    (h : Message.decode (b ++ d) = .incomplete) :
    Leads ⟨.look, ⟨⟨.data d :: rest⟩, b⟩⟩ ⟨.look, ⟨⟨rest⟩, b ++ d⟩⟩ := by
  -- the induction is on what is left of the piece, a chunk at a time
  induction hn : d.length using Nat.strongRecOn generalizing b d with
  | ind n ih =>
    have hb := incomplete_of_append h
    cases hleft : d.drop chunkSize with
    | nil => exact leads_of_read hb hd (by simp only [Source.read, hleft])
    | cons x left =>
      have htake : d.take chunkSize ≠ [] := by
        rw [Ne, List.take_eq_nil_iff]
        exact not_or.mpr ⟨by decide, hd⟩
      have hread : Source.read chunkSize ⟨.data d :: rest⟩ =
          (.ok (d.take chunkSize), ⟨.data (x :: left) :: rest⟩) := by
        simp only [Source.read, hleft]
      have hwhole : b ++ d.take chunkSize ++ x :: left = b ++ d := by
        rw [← hleft, List.append_assoc, List.take_append_drop]
      have hless : (x :: left).length < n := by
        rw [← hleft, List.length_drop, hn, chunkSize]
        have := List.length_pos_iff.mpr hd
        omega
      have := ih _ hless (List.cons_ne_nil x left) (by rwa [hwhole]) rfl
      rw [hwhole] at this
      exact (leads_of_read hb htake hread).trans this

/-- A message of the largest size without its last octet. -/
def brink : Bytes := [0xFF, 0xFF, 0, 0] ++ List.replicate 65530 0

theorem length_brink : brink.length = 65534 := by
  rw [brink, List.length_append, List.length_replicate]
  rfl

theorem decode_brink : Message.decode brink = .incomplete := by
  have hp : Message.Header.parse? brink = some ⟨0xFFFF, 0⟩ := rfl
  rw [Message.decode_of_header hp, length_brink]
  decide

/-- Nothing at first, and then the message with a chunk in place of its last octet. -/
def brimming : Source := ⟨[.data [], .data brink, .data (List.replicate 8192 0)]⟩

theorem calls_brimming :
    (calls 1 { source := brimming }).2 = ⟨⟨[.data brink, .data (List.replicate 8192 0)]⟩, []⟩ := by
  have hd : Message.decode [] = .incomplete := rfl
  have hlast : Reader.Within { source := brimming } ⟨.read, { source := brimming }⟩ :=
    .single (follows_of_incomplete hd)
  rw [calls, returns_iff.mp ⟨_, hlast, rfl⟩]
  rfl

theorem brimming_reader_is_full : ∃ v w,
    (calls 1 { source := brimming }).2.Within v ∧ v.stage = .read ∧ v.reader.buffer = brink ∧
      (∀ (m : Message) rest, m.Fits → brink ≠ m.toBytes ++ rest) ∧
      (calls 1 { source := brimming }).2.Within w ∧ w.reader.buffer.length = 65534 + 8192 ∧
      w.reader.buffer.length ≤ 65534 + 8192 := by
  obtain ⟨_, _, hbound⟩ := reader_holds_message_and_chunk brimming 1 calls_brimming
  rw [calls_brimming]
  have hne : brink ≠ [] := List.cons_ne_nil _ _
  have hchunk : List.replicate 8192 (0 : UInt8) ≠ [] := List.cons_ne_nil _ _
  have hread : Source.read chunkSize ⟨[.data (List.replicate 8192 0)]⟩ =
      (.ok (List.replicate 8192 0), ⟨[]⟩) := by
    have hdrop : (List.replicate 8192 (0 : UInt8)).drop chunkSize = [] := by
      rw [List.drop_eq_nil_iff, List.length_replicate]
      exact Nat.le_refl _
    simp only [Source.read, hdrop]
  have hbrink : Leads ⟨.look, ⟨⟨[.data brink, .data (List.replicate 8192 0)]⟩, []⟩⟩
      ⟨.look, ⟨⟨[.data (List.replicate 8192 0)]⟩, brink⟩⟩ := leads_of_piece hne decode_brink
  have hfull : Leads ⟨.look, ⟨⟨[.data (List.replicate 8192 0)]⟩, brink⟩⟩
      ⟨.look, ⟨⟨[]⟩, brink ++ List.replicate 8192 0⟩⟩ := leads_of_read decode_brink hchunk hread
  have hv := hbrink.tail (follows_of_incomplete decode_brink)
  have hw := hbrink.trans hfull
  refine ⟨_, _, hv, rfl, rfl, ((hbound _ hv).2 rfl).1, hw, ?_, (hbound _ hw).1⟩
  rw [List.length_append, length_brink, List.length_replicate]

end

end EtherBench.Reader
