import EtherBench.Hub
import EtherBench.Proofs.Message.Sending
import EtherBench.Proofs.Text.Words
import Mathlib.Data.List.Forall2

/-!
# What the hub makes of its calls

Frames are passed on as they are, and operator text is echoed. The echo is longer
than the text: words stand around it, and what is not UTF-8 may grow threefold
when it is decoded. A text whose echo no message holds is refused with nothing
said, and the hub goes on as if there had been none.
-/

namespace EtherBench

/-- A tool is called with some events, with the next one also after a call that has failed. -/
def Tool.calls {σ : Type} (tool : Tool σ) : List Event → σ × Sink → List (Except MessageError Unit) × σ × Sink
  | [], st => ([], st)
  | e :: events, st =>
    let (result, st) := tool.handler e st
    let (results, st) := tool.calls events st
    (result :: results, st)

namespace Hub

/-- The event is about an interface of the hub, if it is about one, and a message holds its frame. -/
def Admits (h : Hub) : Event → Prop
  | .control _ => True
  | .roster interface _ => 1 ≤ interface ∧ interface ≤ h.count
  | .frame interface frame => 1 ≤ interface ∧ interface ≤ h.count ∧ frame.length ≤ Message.maxPayload

def echoBytes (command : String) : Bytes :=
  Bytes.ofText "Received command '" ++ Bytes.ofText command ++ Bytes.ofText "' (ignored)\n"

/-- What becomes of a call, and the messages that go out. -/
inductive Meets (h : Hub) : Event → Except MessageError Unit → List Message → Prop
  | enrolled {interface : UInt16} {address : MacAddress} : Meets h (.roster interface address) (.ok ()) []
  | empty {ingress : UInt16} : Meets h (.frame ingress []) (.ok ()) []
  | relayed {ingress : UInt16} {frame : Bytes} {egresses : List UInt16} (hne : frame ≠ [])
      (hothers : ∀ q, q ∈ egresses ↔ 1 ≤ q ∧ q ≤ h.count ∧ q ≠ ingress)
      (hascending : egresses.Pairwise (· < ·)) :
      Meets h (.frame ingress frame) (.ok ()) (egresses.map (⟨·, frame⟩))
  | echoed {text : Bytes} {command : String} (hcommand : Text.Trims (Utf8.decode text) command)
      (hfits : (echoBytes command).length ≤ Message.maxPayload) :
      Meets h (.control text) (.ok ()) [⟨Message.control, echoBytes command⟩]
  | refused {text : Bytes} {command : String} (hcommand : Text.Trims (Utf8.decode text) command)
      (hlarge : Message.maxPayload < (echoBytes command).length) :
      Meets h (.control text)
        (.error (.payloadTooLarge (echoBytes command).length Message.maxPayload)) []

/-- Text that is short enough for its echo, however it is decoded or as it is. -/
def Echoable (text : Bytes) : Prop :=
  text.length ≤ 21833 ∨ ∃ s, text = Bytes.ofText s ∧ text.length ≤ 65501

section
variable {h : Hub} {ingress q : UInt16} {frame : Bytes} {e : Event} {out : Sink}
  {result : Except MessageError Unit} {ms : List Message}

theorem mem_others : q ∈ h.others ingress ↔ 1 ≤ q ∧ q ≤ h.count ∧ q ≠ ingress := by
  have hcount : h.count.toNat < 65536 := h.count.toNat_lt
  rw [others, List.mem_filter, List.mem_map, bne_iff_ne, ← and_assoc, and_congr_left_iff]
  intro _
  rw [UInt16.le_iff_toNat_le, UInt16.le_iff_toNat_le]
  constructor
  · rintro ⟨k, hk, rfl⟩
    rw [List.mem_range'_1] at hk
    rw [UInt16.toNat_ofNat', Nat.mod_eq_of_lt (by omega)]
    exact ⟨hk.1, by omega⟩
  · rintro ⟨hlo, hhi⟩
    refine ⟨q.toNat, List.mem_range'_1.mpr ⟨hlo, by omega⟩, UInt16.ofNat_toNat⟩

theorem pairwise_others (h : Hub) (ingress : UInt16) : (h.others ingress).Pairwise (· < ·) := by
  have hcount : h.count.toNat < 65536 := h.count.toNat_lt
  refine List.Pairwise.filter _ (List.pairwise_map.mpr (.imp_of_mem ?_ List.pairwise_lt_range'))
  intro j k hj hk hlt
  rw [List.mem_range'_1] at hj hk
  rw [UInt16.lt_iff_toNat_lt, UInt16.toNat_ofNat', UInt16.toNat_ofNat', Nat.mod_eq_of_lt (by omega),
    Nat.mod_eq_of_lt (by omega)]
  exact hlt

theorem react_control (text : Bytes) (h : Hub) : react (.control text) h =
    .ok ([⟨Message.control, echoBytes (Text.trimEnd (Utf8.decode text))⟩], h) := by
  show Except.ok ([echo (Utf8.decode text)], h) = _
  unfold echo Message.ofText echoBytes
  simp only [toString, Bytes.ofText_append]

theorem length_echoBytes (command : String) :
    (echoBytes command).length = 30 + (Bytes.ofText command).length := by
  have hfront : (Bytes.ofText "Received command '").length = 18 := by decide
  have hback : (Bytes.ofText "' (ignored)\n").length = 12 := by decide
  rw [echoBytes, List.length_append, List.length_append, hfront, hback]
  omega

theorem fits_of_mem_relayed (hframe : frame.length ≤ Message.maxPayload) (egresses : List UInt16) :
    ∀ m ∈ egresses.map (fun q => (⟨q, frame⟩ : Message)), m.Fits := by
  intro m hm
  obtain ⟨q, _, rfl⟩ := List.mem_map.mp hm
  exact hframe

theorem react_frame (hlo : 1 ≤ ingress) (hhi : ingress ≤ h.count) (frame : Bytes) :
    react (.frame ingress frame) h =
      .ok (if frame.isEmpty then [] else (h.others ingress).map (⟨·, frame⟩), h) := by
  have hknown : ¬ (ingress = 0 ∨ h.count < ingress) := by
    rintro (rfl | hlt)
    · exact absurd hlo (by decide)
    · exact UInt16.not_le.mpr hlt hhi
  show (h.relay ingress frame).map (·, h) = _
  rw [relay, if_neg hknown]
  cases frame <;> rfl

theorem handler_meets (ha : h.Admits e) (ho : out.Accepting) :
    ∃ result ms out', Tool.handler react e (h, out) = (result, h, out') ∧ h.Meets e result ms ∧
      out'.Accepting ∧ out'.data.toList = out.data.toList ++ ms.flatMap Message.toBytes := by
  cases e with
  | roster interface address =>
    exact ⟨_, _, out, rfl, .enrolled, ho, (List.append_nil _).symm⟩
  | frame ingress frame =>
    obtain ⟨hlo, hhi, hframe⟩ := ha
    have hr := react_frame hlo hhi frame
    by_cases hne : frame = []
    · subst hne
      exact ⟨_, _, out, Tool.handler_of_ok hr out, .empty, ho, (List.append_nil _).symm⟩
    · rw [if_neg (by simpa using hne)] at hr
      obtain ⟨hok, hdata⟩ := ho.sendEach (fits_of_mem_relayed hframe (h.others ingress))
      refine ⟨_, _, _, by rw [Tool.handler_of_ok hr, hok], ?_, ho.after_sendEach _, hdata⟩
      exact .relayed hne (fun _ => mem_others) (h.pairwise_others ingress)
  | control text =>
    have hcommand := Text.trims_trimEnd (Utf8.decode text)
    rw [Tool.handler_of_ok (react_control text h)]
    by_cases hfits : Message.Fits ⟨Message.control, echoBytes (Text.trimEnd (Utf8.decode text))⟩
    · obtain ⟨hok, hdata⟩ := ho.sendEach (List.forall_mem_singleton.mpr hfits)
      exact ⟨_, _, _, by rw [hok], .echoed hcommand hfits, ho.after_sendEach _, hdata⟩
    · rw [out.sendEach_of_head_large hfits]
      exact ⟨_, _, out, rfl, .refused hcommand (Nat.not_le.mp hfits), ho, (List.append_nil _).symm⟩

theorem calls_meet {events : List Event} (ha : ∀ e ∈ events, h.Admits e) (ho : out.Accepting) :
    ∃ replies : List (Except MessageError Unit × List Message),
      List.Forall₂ (fun e r => h.Meets e r.1 r.2) events replies ∧
      (Tool.calls react events (h, out)).1 = replies.map (·.1) ∧
      (Tool.calls react events (h, out)).2.1 = h ∧
      (Tool.calls react events (h, out)).2.2.data.toList =
        out.data.toList ++ (replies.flatMap (·.2)).flatMap Message.toBytes := by
  induction events generalizing out with
  | nil => exact ⟨[], .nil, rfl, rfl, (List.append_nil _).symm⟩
  | cons e events ih =>
    rw [List.forall_mem_cons] at ha
    obtain ⟨result, ms, out', hhandler, hmeets, ho', hdata⟩ := handler_meets ha.1 ho
    obtain ⟨replies, hreplies, hresults, hhub, hsent⟩ := ih ha.2 ho'
    refine ⟨(result, ms) :: replies, .cons hmeets hreplies, ?_, ?_, ?_⟩
    · simp only [Tool.calls, hhandler, hresults, List.map_cons]
    · simp only [Tool.calls, hhandler, hhub]
    · simp only [Tool.calls, hhandler, hsent, hdata, List.flatMap_cons, List.flatMap_append,
        List.append_assoc]

theorem fits_of_echoable {text : Bytes} {command : String} (ht : Echoable text)
    (hcommand : Text.Trims (Utf8.decode text) command) :
    (echoBytes command).length ≤ Message.maxPayload := by
  have hle := hcommand.length_le
  rw [length_echoBytes]
  simp only [Message.maxPayload, Message.maxSize, Message.headerSize]
  rcases ht with hshort | ⟨s, rfl, hshort⟩
  · have := Utf8.length_decode text
    omega
  · rw [Utf8.decode_ofText] at hle
    omega

theorem ok_of_meets (hm : h.Meets e result ms) (ht : ∀ text, e = .control text → Echoable text) :
    result = .ok () := by
  cases hm with
  | refused hcommand hlarge => exact absurd (fits_of_echoable (ht _ rfl) hcommand) (Nat.not_le.mpr hlarge)
  | _ => rfl

/-- **Only an echo that is too long can make the hub fail.** Every frame is passed on to all other
interfaces, in ascending order, and every text is echoed, also behind calls that have failed; a call fails
where the echo is longer than a message, and then nothing goes out. -/
theorem calls_fail_at_long_echoes {events : List Event} (ha : ∀ e ∈ events, h.Admits e) (ho : out.Accepting) :
    ∃ replies : List (Except MessageError Unit × List Message),
      List.Forall₂ (fun e r => h.Meets e r.1 r.2 ∧
        ((∀ text, e = .control text → Echoable text) → r.1 = .ok ())) events replies ∧
      (Tool.calls react events (h, out)).1 = replies.map (·.1) ∧
      (Tool.calls react events (h, out)).2.1 = h ∧
      (Tool.calls react events (h, out)).2.2.data.toList =
        out.data.toList ++ (replies.flatMap (·.2)).flatMap Message.toBytes := by
  obtain ⟨replies, hreplies, hrest⟩ := calls_meet ha ho
  exact ⟨replies, hreplies.imp fun _ _ hm => ⟨hm, ok_of_meets hm⟩, hrest⟩

def letters (n : Nat) : String := String.ofList (List.replicate n 'a')

theorem length_letters (n : Nat) : (Bytes.ofText (letters n)).length = n := by
  have ha : (String.utf8EncodeChar 'a').length = 1 := by decide
  rw [letters, Bytes.ofText_ofList, List.length_flatMap, List.map_replicate, List.sum_replicate_nat, ha,
    Nat.mul_one]

theorem trims_letters (n : Nat) : Text.Trims (letters n) (letters n) := by
  refine ⟨⟨[], (List.append_nil _).symm, List.forall_mem_nil _⟩, ?_⟩
  simp only [letters, String.toList_ofList]
  intro hne
  rw [List.getLast_replicate]
  decide

theorem eq_letters {n : Nat} {command : String}
    (hcommand : Text.Trims (Utf8.decode (Bytes.ofText (letters n))) command) : command = letters n := by
  rw [Utf8.decode_ofText] at hcommand
  exact hcommand.eq.trans (trims_letters n).eq.symm

theorem length_echo_letters (n : Nat) : (echoBytes (letters n)).length = 30 + n := by
  rw [length_echoBytes, length_letters]

theorem meets_letters {n : Nat} (hn : Message.maxPayload < 30 + n)
    (hm : h.Meets (.control (Bytes.ofText (letters n))) result ms) :
    result = .error (.payloadTooLarge (30 + n) Message.maxPayload) ∧ ms = [] := by
  cases hm with
  | echoed hcommand hfits =>
    rw [eq_letters hcommand, length_echo_letters] at hfits
    omega
  | refused hcommand hlarge =>
    rw [eq_letters hcommand, length_echo_letters]
    exact ⟨rfl, rfl⟩

def textBetweenFrames : List Event := [.frame 2 [7], .control (Bytes.ofText (letters 65531)), .frame 1 []]

theorem long_text_between_frames :
    (∀ e ∈ textBetweenFrames, Hub.Admits ⟨3⟩ e) ∧ ({} : Sink).Accepting ∧
      (Tool.calls react textBetweenFrames (⟨3⟩, {})).1 =
        [.ok (), .error (.payloadTooLarge (30 + 65531) Message.maxPayload), .ok ()] := by
  have ha : ∀ e ∈ textBetweenFrames, Hub.Admits ⟨3⟩ e := by
    simp [textBetweenFrames, Admits, Message.maxPayload, Message.maxSize, Message.headerSize]
  have ho : ({} : Sink).Accepting := ⟨rfl, rfl⟩
  refine ⟨ha, ho, ?_⟩
  obtain ⟨replies, hreplies, hresults, _⟩ := calls_fail_at_long_echoes ha ho
  rw [hresults]
  cases hreplies with
  | cons h₁ hreplies =>
  cases hreplies with
  | cons h₂ hreplies =>
  cases hreplies with
  | cons h₃ hreplies =>
  cases hreplies with
  | nil =>
    have hlong := (meets_letters (by decide) h₂.1).1
    have hfirst := h₁.2 (fun _ h => by cases h)
    have hlast := h₃.2 (fun _ h => by cases h)
    simp only [List.map_cons, List.map_nil, hfirst, hlong, hlast]

/-- A text that a message holds is not always echoed. -/
theorem long_text_is_refused :
    ofCount 2 = .ok ⟨2⟩ ∧ (Bytes.ofText (letters 65531)).length ≤ Message.maxPayload ∧ ({} : Sink).Accepting ∧
      (Tool.handler react (.control (Bytes.ofText (letters 65531))) (⟨2⟩, {})).1 =
        .error (.payloadTooLarge (30 + 65531) Message.maxPayload) := by
  have hfits : 65531 ≤ Message.maxPayload := by decide
  have ho : ({} : Sink).Accepting := ⟨rfl, rfl⟩
  refine ⟨rfl, by rwa [length_letters], ho, ?_⟩
  obtain ⟨result, ms, out, hhandler, hmeets, _⟩ :=
    handler_meets (h := ⟨2⟩) (e := .control (Bytes.ofText (letters 65531))) trivial ho
  rw [hhandler]
  exact (meets_letters (by decide) hmeets).1

end

end Hub

end EtherBench
