import EtherBench.Proofs.Multiplexer.Serving
import EtherBench.Proofs.Switch.Egress

/-!
# What tools put out, the multiplexer takes

A switch or a hub may be fed anything. What it puts out is whole messages for
the interfaces that it has, no frame among them empty, and a multiplexer with as
many links takes them all: it never stops over what the child has written.
-/

namespace EtherBench

/-- The octets are what a tool with `n` interfaces puts out in one run, whatever it reads. No frame
of the tool's is shorter than `least`. -/
inductive Tool.Output (n : Nat) : (least : Nat) → Bytes → Prop
  | switch {args : List String} {interfaces : List Interface} {s : Switch}
      (hp : Interface.parseAll args = .ok interfaces) (hs : Switch.ofInterfaces interfaces = .ok s)
      (hn : interfaces.length = n) (input : Source) {out : Sink} (ho : out.Patient) (hd : out.data = #[]) :
      Output n Frame.headerSize
        (Dispatcher.run (Tool.handler Switch.react) (.ofSource input s.count) (s, out)).2.2.2.data.toList
  | hub {h : Hub} (hh : Hub.ofCount n = .ok h) (input : Source) {out : Sink} (ho : out.Patient)
      (hd : out.data = #[]) :
      Output n 1
        (Dispatcher.run (Tool.handler Hub.react) (.ofSource input h.count) (h, out)).2.2.2.data.toList

section
variable {n least : Nat} {b : Bytes}

theorem Hub.toNat_of_ofCount {h : Hub} (hh : ofCount n = .ok h) : h.count.toNat ≤ n := by
  unfold ofCount checkedCount at hh
  split at hh
  · cases hh
  · cases hh
    rw [UInt16.toNat_ofNat']
    exact Nat.mod_le ..

theorem Tool.Output.messages (h : Output n least b) :
    ∃ ms : List Message, b = ms.flatMap Message.toBytes ∧
      ∀ m ∈ ms, m.Fits ∧ Carriable n least m := by
  have hwhole : ∀ {P : Message → Prop} {s t : Sink}, s.data = #[] → Sink.Gained P s t →
      ∃ ms : List Message, t.data.toList = ms.flatMap Message.toBytes ∧ ∀ m ∈ ms, m.Fits ∧ P m := by
    rintro P s t hs ⟨ms, hd, hms⟩
    refine ⟨ms, ?_, hms⟩
    rw [hd, hs]
    rfl
  cases h with
  | switch hp hs hn input ho hd =>
    subst hn
    exact hwhole hd ((Switch.answers _).output _ (Switch.numbered_of_ofInterfaces hp hs) ho)
  | hub hh input ho hd =>
    obtain ⟨ms, hb, hms⟩ := hwhole hd ((Hub.answers _).output _ rfl ho)
    refine ⟨ms, hb, fun m hm => ⟨(hms m hm).1, ?_, (hms m hm).2.2⟩⟩
    exact Nat.le_trans (hms m hm).2.1 (Hub.toNat_of_ofCount hh)

theorem Tool.Output.least_pos (h : Output n least b) : 0 < least := by
  cases h <;> decide

end

namespace Multiplexer

section
variable {m₀ m m₁ : Multiplexer} {e : Option Ending} {done later : List Message} {n least : Nat}

/-- The run has not ended over something that the child has written. -/
def Undisturbed (e : Option Ending) : Prop :=
  (∀ size, e ≠ some (.failed (.sizeBelowHeader size))) ∧
    (∀ kind count, e ≠ some (.failed (.unknownInterface kind count))) ∧
    ∀ left, e ≠ some (.failed (.childClosedMidMessage left))

theorem TookEffect.undisturbed (h : TookEffect m₀ m e done later)
    (hs : m₀.childOutput.stream = (done ++ later).flatMap Message.toBytes)
    (hk : ∀ s ∈ done ++ later, s.kind.toNat ≤ m₀.links.length) : Undisturbed e := by
  have hbuffer : later = [] → m.childBuffer = [] := by
    intro hl
    rw [hl, List.append_nil, h.read, List.append_assoc, List.append_right_eq_self] at hs
    exact (List.append_eq_nil_iff.mp hs).1
  refine ⟨?_, ?_, ?_⟩
  · intro size he
    obtain ⟨hl, _, hd⟩ := h.malformed size he
    rw [hbuffer hl] at hd
    cases hd
  · intro kind count he
    obtain ⟨hcount, hlt, _, s, hhead, rfl⟩ := h.unknown kind count he
    have hle := hk s (List.mem_append_right _ (List.mem_of_head? hhead))
    have hlt := UInt16.lt_iff_toNat_lt.mp hlt
    omega
  · intro left he
    obtain ⟨hl, _, _, hlen, hpos⟩ := h.midMessage left he
    rw [hbuffer hl] at hlen
    exact Nat.ne_of_lt hpos hlen

theorem framesFor_of_carriable {ms : List Message} (hpos : 0 < least)
    (h : ∀ s ∈ ms, Tool.Carriable n least s) {i : Nat} (hi : i < Message.maxInterfaces) :
    framesFor i ms = Message.payloadsOf (UInt16.ofNat (i + 1)) ms := by
  refine List.filter_eq_self.mpr fun payload hp => ?_
  obtain ⟨s, hs, rfl⟩ := List.mem_map.mp hp
  obtain ⟨hs, hkind⟩ := List.mem_filter.mp hs
  have hkind : s.kind = UInt16.ofNat (i + 1) := by simpa using hkind
  have hlen := (h s hs).2 (hkind ▸ (Message.control_ne_kind hi).symm)
  simpa using List.length_pos_iff.mp (Nat.lt_of_lt_of_le hpos hlen)

theorem messages_take_effect {ms : List Message} (hm : m₀.Fresh) (hr : sendRoster m₀ = (m₁, none))
    (hs : m₀.childOutput.stream = ms.flatMap Message.toBytes)
    (hms : ∀ s ∈ ms, s.Fits ∧ s.kind.toNat ≤ m₀.links.length) {schedule : List Readiness}
    {awake : Readiness} {k : Nat} (hu : upTo schedule awake k m₁ = (m, e)) :
    Undisturbed e ∧ (DisplayFailed e ∨ ∃ done later, ms = done ++ later ∧ TookEffect m₀ m e done later) := by
  have hf := (upTo_induction (faithful_throughout hm.links.2) schedule awake k m₁
    (settled_of_fresh hm hr)).1
  rw [hu] at hf
  rcases hf with ⟨f, rfl⟩ | ⟨⟨done, hc⟩, ht⟩
  · exact ⟨⟨nofun, nofun, nofun⟩, .inl ⟨f, rfl⟩⟩
  · obtain ⟨later, h⟩ := tookEffect_of_carried hm.links.2 hc ht
    have hall : ms = done ++ later := by
      have hempty : Message.split [] = ([], []) := Message.split_of_not_complete fun _ _ => nofun
      have hsplit := Message.split_flatMap_append (fun s hs => (hms s hs).1) []
      rw [List.append_nil, ← hs, hempty, List.append_nil] at hsplit
      rw [← h.decoded, hsplit]
    refine ⟨h.undisturbed (hall ▸ hs) fun s hs => (hms s (hall ▸ hs)).2, .inr ⟨done, later, hall, h⟩⟩

theorem closed_of_byChild (h : ByChild e) (hu : Undisturbed e) (he : e ≠ none) : e = some .childClosed := by
  obtain ⟨hmalformed, hunknown, hmid⟩ := hu
  match e with
  | none => exact absurd rfl he
  | some .childClosed => rfl
  | some (.failed (.sizeBelowHeader size)) => exact absurd rfl (hmalformed size)
  | some (.failed (.unknownInterface kind count)) => exact absurd rfl (hunknown kind count)
  | some (.failed (.childClosedMidMessage left)) => exact absurd rfl (hmid left)

/-- **What a tool puts out is taken to its end.** Whatever a switch or a hub has been fed, its output
is whole messages for its own interfaces, and no frame among them is empty. A multiplexer with as many
links never stops over any of it: the messages take effect in order, no frame is dropped, and a run in
which the child is served often enough ends, if nothing else ends it, with all of them. -/
theorem tool_output_is_consumed {b : Bytes} (h : Tool.Output n least b) :
    ∃ ms : List Message, b = ms.flatMap Message.toBytes ∧ 0 < least ∧
      (∀ s ∈ ms, s.payload.length ≤ Message.maxPayload ∧ s.kind.toNat ≤ n ∧
        (s.kind ≠ Message.control → least ≤ s.payload.length)) ∧
      ∀ m₀ m₁ : Multiplexer, m₀.Fresh → m₀.links.length = n → m₀.childOutput.stream = b →
        sendRoster m₀ = (m₁, none) →
        (∀ schedule awake k m e, upTo schedule awake k m₁ = (m, e) → Undisturbed e ∧
          ((∀ f, e ≠ some (.failed (.fault "write console" f))) → ∃ done later, ms = done ++ later ∧
            TookEffect m₀ m e done later ∧
            ∀ i < n, framesFor i done = Message.payloadsOf (UInt16.ofNat (i + 1)) done)) ∧
        ∀ schedule : List Readiness, m₀.backlog < schedule.countP Readiness.servesChild →
          (turns schedule m₁).2 ≠ none ∧ (m₀.Quiet → (turns schedule m₁).2 = some .childClosed) := by
  obtain ⟨ms, hb, hms⟩ := h.messages
  refine ⟨ms, hb, h.least_pos, fun s hs => ⟨(hms s hs).1, (hms s hs).2⟩, ?_⟩
  rintro m₀ m₁ hm rfl hstream hr
  have hknown : ∀ s ∈ ms, s.Fits ∧ s.kind.toNat ≤ m₀.links.length :=
    fun s hs => ⟨(hms s hs).1, (hms s hs).2.1⟩
  have heffect := fun {schedule awake k m e} (hu : upTo schedule awake k m₁ = (m, e)) =>
    messages_take_effect hm hr (hstream.trans hb) hknown hu
  constructor
  · intro schedule awake k m e hu
    obtain ⟨hundisturbed, htook⟩ := heffect hu
    refine ⟨hundisturbed, fun hd => ?_⟩
    obtain ⟨done, later, rfl, hdone⟩ := htook.resolve_left fun ⟨f, hf⟩ => hd f hf
    have hcarriable : ∀ s ∈ done, Tool.Carriable m₀.links.length least s :=
      fun s hs => (hms s (List.mem_append_left _ hs)).2
    exact ⟨done, later, rfl, hdone, fun i hi =>
      framesFor_of_carriable h.least_pos hcarriable (Nat.lt_of_lt_of_le hi hm.links.2)⟩
  · intro schedule hserved
    have hsettled := settled_of_fresh hm hr
    have hrested := rested_of_fresh hm hr
    have hu : upTo schedule m₁.interest 0 m₁ = ((turns schedule m₁).1, (turns schedule m₁).2) :=
      upTo_zero ..
    have hundisturbed := (heffect hu).1
    obtain ⟨childInput, rfl⟩ := sendRoster_eq hr
    have hended := ended_of_served hm.links.2 hsettled hrested hserved
    refine ⟨hended, fun hq => ?_⟩
    have hquiet : Quiet { m₀ with childInput } :=
      ⟨hq.console, hq.typed, hq.inbound, hq.links, hq.display, hq.childOutput⟩
    exact closed_of_byChild (byChild_of_quiet hm.links.2 hsettled hquiet schedule) hundisturbed hended

/-- A switch of two interfaces reads a broadcast and then a header that is malformed. -/
def babble : Source := ⟨[.data ([0, 18, 0, 1] ++ Switch.greet .broadcast (Switch.station 1)), .data [0, 3, 0, 0]]⟩

def sluggish : Sink := { writes := [.accept 1, .fault ⟨.interrupted, "interrupted"⟩, .accept 7] }

def behindSwitch : Multiplexer :=
  { links := [{ name := "left", address := Switch.station 8, mtu := 1500 },
      { name := "right", address := Switch.station 9, mtu := 1500, sends := [.fault ⟨.wouldBlock, "again"⟩, .accept 5] }]
    childOutput := ⟨[.data [0, 18], .data ([0, 2] ++ Switch.greet .broadcast (Switch.station 1))]⟩ }

theorem broadcast_is_consumed :
    Tool.Output 2 Frame.headerSize (Message.toBytes ⟨2, Switch.greet .broadcast (Switch.station 1)⟩) ∧
      behindSwitch.Fresh ∧ behindSwitch.Quiet ∧
      sendRoster behindSwitch = ((sendRoster behindSwitch).1, none) ∧
      (turns (List.replicate 50 childReady) (sendRoster behindSwitch).1).2 = some .childClosed := by
  have ho : sluggish.Patient := by
    intro w hw
    simp only [sluggish, List.mem_cons, List.not_mem_nil, or_false] at hw
    rcases hw with rfl | rfl | rfl
    · exact .inl ⟨0, rfl⟩
    · exact .inr ⟨_, rfl, rfl⟩
    · exact .inl ⟨6, rfl⟩
  have hp : Interface.parseAll ["left", "right"] = .ok [.plain 1 "left", .plain 2 "right"] := rfl
  have hout : Tool.Output 2 Frame.headerSize
      (Message.toBytes ⟨2, Switch.greet .broadcast (Switch.station 1)⟩) := by
    have h := Tool.Output.switch hp (s := Switch.couple) rfl rfl babble ho rfl
    have hb : (Dispatcher.run (Tool.handler Switch.react) (.ofSource babble Switch.couple.count)
        (Switch.couple, sluggish)).2.2.2.data.toList =
        Message.toBytes ⟨2, Switch.greet .broadcast (Switch.station 1)⟩ := by decide +kernel
    rwa [hb] at h
  have hm : behindSwitch.Fresh :=
    ⟨by decide, by decide, rfl, rfl, rfl, rfl, rfl, rfl, rfl⟩
  have hq : behindSwitch.Quiet := by
    refine ⟨rfl, rfl, rfl, ?_, ⟨by simp [behindSwitch, Sink.Patient], by simp [behindSwitch]⟩, by simp [behindSwitch]⟩
    intro l hl
    simp only [behindSwitch, List.mem_cons, List.not_mem_nil, or_false] at hl
    rcases hl with rfl | rfl
    · simp [Link.Quiet]
    · simp [Link.Quiet, Fault.isTransient]
  have hr : sendRoster behindSwitch = ((sendRoster behindSwitch).1, none) := Prod.ext rfl (by decide)
  obtain ⟨ms, _, _, _, hall⟩ := tool_output_is_consumed hout
  obtain ⟨_, hended⟩ := hall behindSwitch _ hm rfl (by decide) hr
  exact ⟨hout, hm, hq, hr, (hended (List.replicate 50 childReady) (by decide)).2 hq⟩

end

end Multiplexer

end EtherBench
