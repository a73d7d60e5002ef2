import EtherBench.Proofs.Multiplexer.Bounds

/-!
# Frames that come whole

A frame without a tag beside it is kept whole, or it ends the run, or it is cut
to the room of a capture and kept as if nothing were missing. The last needs a
link whose limit is not below that room.
-/

namespace EtherBench

namespace Multiplexer

section
variable {m : Multiplexer} {i : Nat} {l : Link} {a : Arrival} {rest : List Arrival} {frame : Bytes}

theorem capture_eq (hl : m.links[i]? = some l) :
    capture i m = ({ m with links := m.links.set i (receive i l).1 }, (receive i l).2) := by
  unfold capture
  rw [hl]

theorem receive_of_content (ha : l.arrivals = a :: rest) (hend : a.ending l = none)
    (hc : a.content = some frame) :
    ∃ b, Message.encode ⟨UInt16.ofNat (i + 1), frame⟩ = .ok b ∧
      receive i l = ({ l with arrivals := rest, slot := b }, none) := by
  have hfits : Message.Fits ⟨UInt16.ofNat (i + 1), frame⟩ := length_content hc
  refine ⟨_, Message.encode_of_fits hfits, ?_⟩
  rw [receive_of_arrivals i ha, hend, filled, hc]
  rfl

theorem capture_of_ending {x : Ending} (hl : m.links[i]? = some l) (ha : l.arrivals = a :: rest)
    (hend : a.ending l = some x) :
    capture i m = ({ m with links := m.links.set i { l with arrivals := rest } }, some x) := by
  rw [capture_eq hl, receive_of_arrivals i ha, hend]
  rfl

end

end Multiplexer

section
variable {l : Link} {frame : Bytes}

open Multiplexer (captureRoom)

theorem isEmpty_take_captureRoom (h : frame ≠ []) : (frame.take captureRoom).isEmpty = false := by
  cases frame with
  | nil => exact absurd rfl h
  | cons _ _ => rfl

/-- What a link reports of a frame that is too long is what the capture had room for. -/
theorem Arrival.ending_untagged (hmtu : l.mtu ≤ Link.maxMtu) (h : frame ≠ []) :
    (Arrival.frame frame none).ending l =
      if l.mtu + 18 < min captureRoom frame.length then
        some (.failed (.frameExceedsMtu l.name (min captureRoom frame.length) (l.mtu + 18)))
      else none := by
  simp only [ending, isEmpty_take_captureRoom h, Link.frameLimit_eq hmtu, content, Option.getD_some,
    List.length_take]
  rfl

theorem Arrival.content_untagged : (Arrival.frame frame none).content = some (frame.take captureRoom) := rfl

end

namespace Multiplexer

section
variable {m : Multiplexer} {i : Nat} {l : Link} {rest : List Arrival} {frame : Bytes}

theorem capture_of_untagged (hmtu : l.mtu ≤ Link.maxMtu) (hl : m.links[i]? = some l)
    (ha : l.arrivals = .frame frame none :: rest) (h : frame ≠ [])
    (hshort : min captureRoom frame.length ≤ l.mtu + 18) :
    ∃ b, Message.encode ⟨UInt16.ofNat (i + 1), frame.take captureRoom⟩ = .ok b ∧
      capture i m = ({ m with links := m.links.set i { l with arrivals := rest, slot := b } }, none) := by
  have hend := Arrival.ending_untagged hmtu h
  rw [if_neg (Nat.not_lt.mpr hshort)] at hend
  obtain ⟨b, hb, hreceive⟩ := receive_of_content ha hend Arrival.content_untagged
  exact ⟨b, hb, by rw [capture_eq hl, hreceive]⟩

theorem capture_of_long_untagged (hmtu : l.mtu ≤ Link.maxMtu) (hl : m.links[i]? = some l)
    (ha : l.arrivals = .frame frame none :: rest) (h : frame ≠ [])
    (hlong : l.mtu + 18 < min captureRoom frame.length) :
    capture i m = ({ m with links := m.links.set i { l with arrivals := rest } },
      some (.failed (.frameExceedsMtu l.name (min captureRoom frame.length) (l.mtu + 18)))) := by
  have hend := Arrival.ending_untagged hmtu h
  rw [if_pos hlong] at hend
  exact capture_of_ending hl ha hend

theorem content_of_kept (hmtu : l.mtu ≤ Link.maxMtu)
    (hend : (Arrival.frame frame none).ending l = none) :
    (Arrival.frame frame none).content = some frame ∨
      captureRoom < frame.length ∧ captureRoom ≤ l.mtu + 18 ∧
        (Arrival.frame frame none).content = some (frame.take captureRoom) := by
  rw [Arrival.content_untagged]
  by_cases hshort : frame.length ≤ captureRoom
  · rw [List.take_of_length_le hshort]
    exact .inl rfl
  · have hne : frame ≠ [] := List.ne_nil_of_length_pos (by omega)
    rw [Arrival.ending_untagged hmtu hne] at hend
    have hlimit : ¬ l.mtu + 18 < min captureRoom frame.length := by
      intro hlong
      simp [hlong] at hend
    exact .inr ⟨by omega, by omega, rfl⟩

theorem exceeds_of_ended {x : Ending} (hmtu : l.mtu ≤ Link.maxMtu) (h : frame ≠ [])
    (hend : (Arrival.frame frame none).ending l = some x) :
    l.mtu + 18 < frame.length ∧ l.mtu + 18 < captureRoom ∧
      x = .failed (.frameExceedsMtu l.name (min captureRoom frame.length) (l.mtu + 18)) := by
  rw [Arrival.ending_untagged hmtu h] at hend
  by_cases hlong : l.mtu + 18 < min captureRoom frame.length
  · rw [if_pos hlong, Option.some.injEq] at hend
    exact ⟨by omega, by omega, hend.symm⟩
  · simp [hlong] at hend

end

section
variable {m₀ m m₁ : Multiplexer} {e : Option Ending}

/-- **Frames come whole below the room of a capture.** At every point of every run, a frame that
comes without a tag is kept whole if neither the limit of its link nor the room is exceeded; where the
limit is below the room, a longer one ends the run. Where it is not, a frame that exceeds the room is
kept as far as the room goes, and this is the only way that less than a whole frame gets to the
child. -/
theorem untagged_frames_whole_below_room {schedule : List Readiness} {awake : Readiness} {k : Nat}
    (hm : m₀.Fresh) (hmtu : ∀ l ∈ m₀.links, Link.checkMtu l.name l.mtu = .ok l.mtu)
    (hr : sendRoster m₀ = (m₁, none)) (hu : upTo schedule awake k m₁ = (m, e)) :
    (∀ i l frame rest, m.links[i]? = some l → l.arrivals = .frame frame none :: rest → frame ≠ [] →
      (frame.length ≤ l.mtu + 18 → frame.length ≤ captureRoom →
        ∃ b, Message.encode ⟨UInt16.ofNat (i + 1), frame⟩ = .ok b ∧
          capture i m = ({ m with links := m.links.set i { l with arrivals := rest, slot := b } }, none)) ∧
      (l.mtu + 18 < frame.length → l.mtu + 18 < captureRoom →
        capture i m = ({ m with links := m.links.set i { l with arrivals := rest } },
          some (.failed (.frameExceedsMtu l.name (min captureRoom frame.length) (l.mtu + 18))))) ∧
      (captureRoom < frame.length → captureRoom ≤ l.mtu + 18 →
        ∃ b, Message.encode ⟨UInt16.ofNat (i + 1), frame.take captureRoom⟩ = .ok b ∧
          capture i m =
            ({ m with links := m.links.set i { l with arrivals := rest, slot := b } }, none))) ∧
    ∃ ms part, (∀ s ∈ m₀.roster :: ms, s.encode = .ok s.toBytes) ∧
      m.childInput.data.toList = (m₀.roster :: ms).flatMap Message.toBytes ++ part ∧
      ∀ i l₀ l, m₀.links[i]? = some l₀ → m.links[i]? = some l → ∃ got last,
        l₀.arrivals = got ++ last ++ l.arrivals ∧ (last = [] ∨ ∃ a x, last = [a] ∧ e = some x) ∧
        Message.payloadsOf (UInt16.ofNat (i + 1)) ms ++ l.held = got.filterMap Arrival.content ∧
        (∀ frame, .frame frame none ∈ got → (Arrival.frame frame none).content = some frame ∨
          captureRoom < frame.length ∧ captureRoom ≤ l.mtu + 18 ∧
            (Arrival.frame frame none).content = some (frame.take captureRoom)) ∧
        ∀ frame, .frame frame none ∈ last → frame ≠ [] →
          l.mtu + 18 < frame.length ∧ l.mtu + 18 < captureRoom ∧
            e = some (.failed (.frameExceedsMtu l.name (min captureRoom frame.length) (l.mtu + 18))) := by
  have h := upTo_keeps (fed_keeps hm.links.2) schedule awake k m₁ ⟨[], fed_of_fresh hm hr⟩
  rw [hu] at h
  obtain ⟨ms, h⟩ := h
  have hmtu : ∀ l ∈ m.links, l.mtu ≤ Link.maxMtu :=
    h.mtu_le fun l hl => mtu_le_of_checkMtu (hmtu l hl)
  constructor
  · -- the next arrival of a link: what counts is the smaller one of its limit and the room
    intro i l frame rest hl ha hne
    have hle := hmtu l (List.mem_of_getElem? hl)
    refine ⟨?_, ?_, ?_⟩
    · intro hlimit hshort
      have hkept := capture_of_untagged hle hl ha hne (by omega)
      rwa [List.take_of_length_le hshort] at hkept
    · intro hlimit hbelow
      exact capture_of_long_untagged hle hl ha hne (by omega)
    · intro _ hroom
      exact capture_of_untagged hle hl ha hne (by omega)
  · -- the arrivals so far: none that is kept ended the run
    have hfits : ∀ s ∈ m₀.roster :: ms, s.Fits := List.forall_mem_cons.mpr ⟨hm.roster_fits, h.fits⟩
    refine ⟨ms, m.begun, fun s hs => Message.encode_of_fits (hfits s hs), h.data, ?_⟩
    intro i l₀ l hl₀ hl
    have hle := hmtu l (List.mem_of_getElem? hl)
    obtain ⟨hname, hmtu, got, last, ha, hgot, hlast, hf⟩ := h.frames i l₀ l hl₀ hl
    refine ⟨got, last, ha, ?_, hf, ?_, ?_⟩
    · rcases hlast with hnil | ⟨a, x, hlast, _, he⟩
      · exact .inl hnil
      · exact .inr ⟨a, x, hlast, he⟩
    · intro frame hmem
      have hend := hgot _ hmem
      rw [← Arrival.ending_congr hname hmtu] at hend
      exact content_of_kept hle hend
    · intro frame hmem hne
      rcases hlast with rfl | ⟨a, x, rfl, hend, rfl⟩
      · cases hmem
      · obtain rfl := List.mem_singleton.mp hmem
        rw [← Arrival.ending_congr hname hmtu] at hend
        obtain ⟨hlong, hbelow, rfl⟩ := exceeds_of_ended hle hne hend
        exact ⟨hlong, hbelow, rfl⟩

def narrow : Multiplexer :=
  { links :=
      [{ name := "narrow", address := ⟨Vector.replicate 6 2⟩, mtu := Link.minMtu,
         arrivals := [.frame (List.replicate 86 7) none, .frame (List.replicate 87 7) none] }] }

def linkReady : Readiness := ⟨false, true, false, false, [true]⟩

theorem narrow_link_refuses_long_frame :
    narrow.Fresh ∧ (∀ l ∈ narrow.links, Link.checkMtu l.name l.mtu = .ok l.mtu) ∧
      sendRoster narrow = ((sendRoster narrow).1, none) ∧ ∃ m l,
        upTo (List.replicate 2 linkReady) linkReady 0 (sendRoster narrow).1 = (m, none) ∧
        m.links[0]? = some l ∧ l.arrivals = [.frame (List.replicate 87 7) none] ∧
        capture 0 m = ({ m with links := m.links.set 0 { l with arrivals := [] } },
          some (.failed (.frameExceedsMtu l.name 87 86))) ∧
        ∃ ms : List Message, ∃ part,
          m.childInput.data.toList = (narrow.roster :: ms).flatMap Message.toBytes ++ part := by
  have h : ofLinks narrow.links none = .ok { links := narrow.links } := rfl
  have hfresh : narrow.Fresh := fresh_of_ofLinks h (by decide) {} {} {} rfl rfl
  have hmtu : ∀ l ∈ narrow.links, Link.checkMtu l.name l.mtu = .ok l.mtu := by
    intro l hl
    rw [List.mem_singleton.mp hl]
    rfl
  have hr : sendRoster narrow = ((sendRoster narrow).1, none) := Prod.ext rfl (by decide)
  have hu : upTo (List.replicate 2 linkReady) linkReady 0 (sendRoster narrow).1 =
      ((upTo (List.replicate 2 linkReady) linkReady 0 (sendRoster narrow).1).1, none) :=
    Prod.ext rfl (by decide +kernel)
  have hl : (upTo (List.replicate 2 linkReady) linkReady 0 (sendRoster narrow).1).1.links[0]? =
      some { name := "narrow", address := ⟨Vector.replicate 6 2⟩, mtu := Link.minMtu,
             arrivals := [.frame (List.replicate 87 7) none] } := by
    decide +kernel
  obtain ⟨hcapture, ms, part, _, hdata, _⟩ := untagged_frames_whole_below_room hfresh hmtu hr hu
  obtain ⟨_, hlong, _⟩ := hcapture 0 _ _ [] hl rfl (by decide)
  exact ⟨hfresh, hmtu, hr, _, _, hu, hl, rfl, hlong (by decide) (by decide), ms, part, hdata⟩

def jumboFrame : Bytes := List.replicate 65531 7

def jumboLink : Link :=
  { name := "pair0", address := ⟨Vector.replicate 6 2⟩, mtu := Link.maxMtu,
    arrivals := [.frame jumboFrame none] }

/-- The slot of the link is given a message of 65527 octets, four short of the frame. -/
theorem largest_frame_is_cut :
    Link.checkMtu jumboLink.name jumboLink.mtu = .ok jumboLink.mtu ∧
      jumboLink.arrivals = [.frame jumboFrame none] ∧ jumboFrame.length = jumboLink.mtu + 18 ∧
      ∃ whole cut, Message.encode ⟨1, jumboFrame⟩ = .ok whole ∧
        Message.encode ⟨1, jumboFrame.take 65527⟩ = .ok cut ∧ cut ≠ whole ∧
        capture 0 { links := [jumboLink] } =
          ({ links := [{ jumboLink with arrivals := [], slot := cut }] }, none) := by
  have hroom : captureRoom = 65527 := rfl
  have hlen : jumboFrame.length = 65531 := List.length_replicate
  have hlimit : jumboFrame.length = jumboLink.mtu + 18 := hlen
  have hne : jumboFrame ≠ [] := List.ne_nil_of_length_pos (by omega)
  have hwhole : Message.Fits ⟨1, jumboFrame⟩ := Nat.le_of_eq hlen
  have hshort : min captureRoom jumboFrame.length ≤ jumboLink.mtu + 18 := by omega
  have hl : ({ links := [jumboLink] } : Multiplexer).links[0]? = some jumboLink := rfl
  obtain ⟨cut, hcut, hcapture⟩ := capture_of_untagged (Nat.le_refl Link.maxMtu) hl rfl hne hshort
  refine ⟨rfl, rfl, hlimit, _, cut, Message.encode_of_fits hwhole, hcut, ?_, hcapture⟩
  intro hsame
  have hcut := congrArg List.length (hsame.symm.trans (Message.encode_eq_ok_iff.mp hcut).2)
  simp only [Message.length_toBytes, List.length_take, hlen] at hcut
  omega

end

end Multiplexer

end EtherBench
