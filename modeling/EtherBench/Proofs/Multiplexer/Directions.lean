import EtherBench.Multiplexer.Run
import EtherBench.Proofs.Updates

/-!
# The two directions

What goes to the child and what comes from it share the links and nothing else,
and of a link the one uses its arrivals and its slot, the other its sends. No
phase touches both.
-/

namespace EtherBench

def Link.inward (l : Link) : Link := { l with sends := [], sent := #[] }

def Link.outward (l : Link) : Link := { l with arrivals := [], slot := [] }

namespace Multiplexer

/-- Nothing on the way to the child has changed. -/
structure SameInward (m m' : Multiplexer) : Prop where
  links : m'.links.map Link.inward = m.links.map Link.inward
  console : m'.console = m.console
  typed : m'.typed = m.typed
  inbound : m'.inbound = m.inbound
  childInput : m'.childInput = m.childInput
  captured : m'.statistics.captured = m.statistics.captured
  commands : m'.statistics.commands = m.statistics.commands

/-- Nothing on the way from the child has changed. -/
structure SameOutward (m m' : Multiplexer) : Prop where
  links : m'.links.map Link.outward = m.links.map Link.outward
  childOutput : m'.childOutput = m.childOutput
  childBuffer : m'.childBuffer = m.childBuffer
  childEnded : m'.childEnded = m.childEnded
  outbound : m'.outbound = m.outbound
  display : m'.display = m.display
  injected : m'.statistics.injected = m.statistics.injected
  consoleMessages : m'.statistics.consoleMessages = m.statistics.consoleMessages

section
variable {m m' m'' : Multiplexer}

theorem SameInward.refl (m : Multiplexer) : SameInward m m := ⟨rfl, rfl, rfl, rfl, rfl, rfl, rfl⟩

theorem SameOutward.refl (m : Multiplexer) : SameOutward m m :=
  ⟨rfl, rfl, rfl, rfl, rfl, rfl, rfl, rfl⟩

theorem SameInward.trans (h : SameInward m m') (h' : SameInward m' m'') : SameInward m m'' :=
  ⟨h'.links.trans h.links, h'.console.trans h.console, h'.typed.trans h.typed,
    h'.inbound.trans h.inbound, h'.childInput.trans h.childInput, h'.captured.trans h.captured,
    h'.commands.trans h.commands⟩

theorem SameOutward.trans (h : SameOutward m m') (h' : SameOutward m' m'') : SameOutward m m'' :=
  ⟨h'.links.trans h.links, h'.childOutput.trans h.childOutput, h'.childBuffer.trans h.childBuffer,
    h'.childEnded.trans h.childEnded, h'.outbound.trans h.outbound, h'.display.trans h.display,
    h'.injected.trans h.injected, h'.consoleMessages.trans h.consoleMessages⟩

theorem SameInward.consumed (m : Multiplexer) (rest : Bytes) :
    SameInward m { m with childBuffer := rest } := ⟨rfl, rfl, rfl, rfl, rfl, rfl, rfl⟩

theorem SameInward.slot (h : SameInward m m') (i : Nat) : m'.slot i = m.slot i := by
  have hs : ∀ n : Multiplexer, n.slot i = (((n.links.map Link.inward)[i]?).map Link.slot).getD [] := by
    intro n
    unfold Multiplexer.slot
    rw [List.getElem?_map]
    cases n.links[i]? <;> rfl
  rw [hs, hs, h.links]

theorem SameInward.message (h : SameInward m m') (o : Origin) : m'.message o = m.message o := by
  cases o with
  | slot i => exact h.slot i
  | console stop => simp only [Multiplexer.message, consoleBuffer, h.typed]

end

/-! ## What phases leave alone -/

section
variable (m : Multiplexer)

theorem sendOn_inward (frame : Bytes) (l : Link) : (sendOn frame l).2.inward = l.inward := by
  unfold sendOn
  split <;> rfl

theorem writeFrame_inward : SameInward m (writeFrame m).1 := by
  unfold writeFrame
  cases hj : m.outbound with
  | none => exact .refl m
  | some job =>
    simp only
    cases hl : m.links[job.link]? with
    | none => exact .refl m
    | some l =>
      have hs := map_set_of_eq hl (sendOn_inward (m.pendingFrame job) l)
      simp only
      split
      · exact ⟨hs, rfl, rfl, rfl, rfl, rfl, rfl⟩
      · exact ⟨hs, rfl, rfl, rfl, rfl, rfl, rfl⟩
      · split <;> exact ⟨hs, rfl, rfl, rfl, rfl, rfl, rfl⟩

theorem readChild_inward : SameInward m (readChild m).1 := by
  unfold readChild
  split <;> exact ⟨rfl, rfl, rfl, rfl, rfl, rfl, rfl⟩

theorem print_inward (text : Bytes) : SameInward m (print text m).1 := by
  unfold print
  split
  · exact ⟨rfl, rfl, rfl, rfl, rfl, rfl, rfl⟩
  · exact ⟨rfl, rfl, rfl, rfl, rfl, rfl, rfl⟩
  · split <;> exact ⟨rfl, rfl, rfl, rfl, rfl, rfl, rfl⟩

theorem takeMessages_inward : SameInward m (takeMessages m).1 := by
  fun_induction takeMessages m with
  | case1 m => exact .refl m
  | case2 m => exact .refl m
  | case3 m => exact .refl m
  | case4 m _ payload _ m' e hp =>
    have := print_inward m payload
    rwa [hp] at this
  | case5 m _ payload rest m' hp _ ih =>
    have := print_inward m payload
    rw [hp] at this
    exact (this.trans (.consumed m' rest)).trans ih
  | case6 m => exact .refl m
  | case7 m _ kind payload rest _ _ _ _ ih => exact (SameInward.consumed m rest).trans ih
  | case8 m => exact ⟨rfl, rfl, rfl, rfl, rfl, rfl, rfl⟩

theorem endOfChild_inward : SameInward m (endOfChild m).1 := by
  unfold endOfChild
  split
  · split <;> exact .refl m
  · exact .refl m

theorem readConsole_outward : SameOutward m (readConsole m).1 := by
  unfold readConsole
  split
  · exact .refl m
  · split <;> exact ⟨rfl, rfl, rfl, rfl, rfl, rfl, rfl, rfl⟩

theorem queueLine_outward : SameOutward m (queueLine m).1 := by
  unfold queueLine
  split <;> exact ⟨rfl, rfl, rfl, rfl, rfl, rfl, rfl, rfl⟩

theorem delivered_outward (o : Origin) : SameOutward m (delivered o m) := by
  cases o with
  | slot i =>
    have hs : ∀ l : Link, ({ l with slot := [] } : Link).outward = l.outward := fun _ => rfl
    exact ⟨map_modify_of_eq hs _ _, rfl, rfl, rfl, rfl, rfl, rfl, rfl⟩
  | console stop => exact ⟨rfl, rfl, rfl, rfl, rfl, rfl, rfl, rfl⟩

theorem writeInput_outward : SameOutward m (writeInput m).1 := by
  unfold writeInput
  cases hj : m.inbound with
  | none => exact .refl m
  | some job =>
    simp only
    split
    · exact ⟨rfl, rfl, rfl, rfl, rfl, rfl, rfl, rfl⟩
    · exact ⟨rfl, rfl, rfl, rfl, rfl, rfl, rfl, rfl⟩
    · split
      · exact ⟨rfl, rfl, rfl, rfl, rfl, rfl, rfl, rfl⟩
      · rename_i childInput _ _ _
        have := delivered_outward { m with childInput } job.origin
        exact ⟨this.links, this.childOutput, this.childBuffer, this.childEnded, this.outbound,
          this.display, this.injected, this.consoleMessages⟩

theorem receive_outward (i : Nat) (l : Link) : (receive i l).1.outward = l.outward := by
  unfold receive
  split
  · rfl
  · rfl
  · rfl
  · split
    · rfl
    · simp only
      split <;> rfl

theorem capture_outward (i : Nat) : SameOutward m (capture i m).1 := by
  unfold capture
  split
  · exact .refl m
  · rename_i l hl
    exact ⟨map_set_of_eq hl (receive_outward i l), rfl, rfl, rfl, rfl, rfl, rfl, rfl⟩

theorem queueSlot_outward (i : Nat) : SameOutward m (queueSlot i m).1 := by
  unfold queueSlot
  split <;> exact ⟨rfl, rfl, rfl, rfl, rfl, rfl, rfl, rfl⟩

end

end Multiplexer

end EtherBench
