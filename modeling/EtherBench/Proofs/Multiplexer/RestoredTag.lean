import EtherBench.Proofs.Link.AuxData
import EtherBench.Proofs.Multiplexer.InPlace
import EtherBench.Proofs.Multiplexer.WholeFrames

/-!
# A tag goes back to where it was

The kernel takes a tag out of a frame and announces it beside the frame. What a
capture leaves in the slot is the frame as it was, also where it is put together
in the buffer of the slot.
-/

namespace EtherBench

namespace Multiplexer

section
variable {m : Multiplexer} {i : Nat} {l : Link} {rest : List Arrival} {f : Bytes} {t : Tag}

theorem content_of_without_tag (hlo : Tag.offset + Tag.size ≤ f.length)
    (hhi : f.length ≤ captureRoom + Tag.size) (ht : (f.drop Tag.offset).take Tag.size = t.toBytes) :
    (Arrival.frame (f.take Tag.offset ++ f.drop (Tag.offset + Tag.size)) (some t)).content = some f := by
  have hlen := Frame.length_without_tag hlo
  rw [content_frame, List.take_of_length_le (by omega), restoreTag,
    Frame.insertTag_of_without_tag hlo ht, Option.getD_some]

/-- **A tag that was taken out of a frame is put back** as the kernel announces it: the slot of the
link is left with a message of the frame as it was. -/
theorem announced_tag_is_restored {cs : List ControlMessage} (hl : m.links[i]? = some l)
    (hN : m.links.length ≤ Message.maxInterfaces)
    (hmtu : Link.checkMtu l.name l.mtu = .ok l.mtu) (hlo : 16 ≤ f.length) (hhi : f.length ≤ l.mtu + 18)
    (ht : (f.drop 12).take 4 = t.toBytes) (hcs : ControlMessage.Announce cs t)
    (ha : l.arrivals =
      .frame (f.take 12 ++ f.drop 16) ((AuxData.find? cs).bind AuxData.tag) :: rest) :
    ∃ kind b, kind.toNat = i + 1 ∧ Message.encode ⟨kind, f⟩ = .ok b ∧
      capture i m = ({ m with links := m.links.set i { l with arrivals := rest, slot := b } }, none) ∧
      ∀ p : Port, p.view = l → p.filled = 0 → p.Sound → ∃ p', p.receive i = some (p', none) ∧
        p'.view = { l with arrivals := rest, slot := b } := by
  have hi : i < Message.maxInterfaces :=
    Nat.lt_of_lt_of_le (List.getElem?_eq_some_iff.mp hl).1 hN
  have hmtu := mtu_le_of_checkMtu hmtu
  rw [AuxData.tag_of_announce hcs] at ha
  have hc : (Arrival.frame (f.take 12 ++ f.drop 16) (some t)).content = some f := by
    apply content_of_without_tag hlo _ ht
    exact Nat.le_trans hhi (Nat.add_le_add_right hmtu 18)
  have hend : (Arrival.frame (f.take 12 ++ f.drop 16) (some t)).ending l = none := by
    have hne : f.take 12 ++ f.drop 16 ≠ [] := by
      apply List.append_ne_nil_of_left_ne_nil
      apply List.ne_nil_of_length_pos
      rw [List.length_take]
      omega
    simp only [Arrival.ending, hc, Option.getD_some, isEmpty_take_captureRoom hne, Link.frameLimit_eq hmtu]
    exact if_neg (Nat.not_lt.mpr hhi)
  obtain ⟨b, hb, hreceive⟩ := receive_of_content (i := i) ha hend hc
  refine ⟨_, b, ?_, hb, ?_, ?_⟩
  · apply UInt16.toNat_ofNat_of_lt'
    exact Nat.lt_of_le_of_lt hi (by decide)
  · rw [capture_eq hl, hreceive]
  · rintro p rfl hempty hp
    obtain ⟨p', hp', hview, _⟩ := Port.receive_eq hp hempty hmtu hi
    rw [hreceive] at hp' hview
    exact ⟨p', hp', hview⟩

def serviceFrame : Bytes := List.replicate 12 2 ++ [0x88, 0xA8, 0, 0, 0x08, 0x06]

def serviceTag : Tag := ⟨0x88A8, 0⟩

/-- What comes beside the frame: a timestamp, data cut short, and the data in full. -/
def serviceMessages : List ControlMessage :=
  [⟨1, 35, List.replicate 16 9⟩, ⟨263, 8, [0x50, 0, 0, 0]⟩,
    ⟨263, 8, [0x51, 0, 0, 0] ++ List.replicate 12 1 ++ [0, 0, 0xA8, 0x88]⟩]

def serviceLink : Link :=
  { name := "pair0", address := ⟨Vector.replicate 6 2⟩, mtu := 1500,
    arrivals := [.frame (serviceFrame.take 12 ++ serviceFrame.drop 16)
      ((AuxData.find? serviceMessages).bind AuxData.tag)] }

theorem service_tag_is_restored :
    Link.checkMtu serviceLink.name serviceLink.mtu = .ok serviceLink.mtu ∧
      (serviceFrame.drop 12).take 4 = serviceTag.toBytes ∧
      ControlMessage.Announce serviceMessages serviceTag ∧
      ∃ kind b, kind.toNat = 1 ∧ Message.encode ⟨kind, serviceFrame⟩ = .ok b ∧
        capture 0 { links := [serviceLink] } =
          ({ links := [{ serviceLink with arrivals := [], slot := b }] }, none) ∧
        ∃ p', Port.receive 0 ⟨serviceLink, Layout.blank, 0⟩ = some (p', none) ∧
          p'.view = { serviceLink with arrivals := [], slot := b } := by
  have hcs : ControlMessage.Announce serviceMessages serviceTag :=
    ⟨serviceMessages.take 2, _, [], rfl, by decide, by decide, .typed rfl rfl rfl rfl⟩
  have hl : ({ links := [serviceLink] } : Multiplexer).links[0]? = some serviceLink := rfl
  obtain ⟨kind, b, hkind, hb, hcapture, hport⟩ := announced_tag_is_restored hl (by decide) rfl
    (by decide) (by decide) rfl hcs rfl
  have hblank : Port.Sound ⟨serviceLink, Layout.blank, 0⟩ := ⟨List.length_replicate, Nat.zero_le _⟩
  exact ⟨rfl, rfl, hcs, kind, b, hkind, hb, hcapture, hport _ rfl rfl hblank⟩

end

end Multiplexer

end EtherBench
