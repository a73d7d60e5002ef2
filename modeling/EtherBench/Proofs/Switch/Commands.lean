import EtherBench.Proofs.Interface.Parse
import EtherBench.Proofs.Switch.Isolation
import EtherBench.Proofs.Text.Words

/-!
# What operators are told

The first word of operator text says which report it asks for, and text that asks
for none is passed over. A report is one message, whatever its size: of all that
an operator can type only a request for a report that no message holds makes the
switch fail. The table is short as long as names are; the list of interfaces
grows with their number, and a roster can list more of them than a report.
-/

namespace EtherBench.Switch

inductive Asks (s : Switch) (text : String) : String → Prop
  | table (h : Text.Names "mac" text ∨ Text.Names "table" text) : Asks s text s.tableReport
  | interfaces (h : Text.Names "interfaces" text) : Asks s text s.interfacesReport

section
variable {s : Switch} {text report : String} {out : Sink}

theorem report?_eq_some_iff : s.report? text = some report ↔ s.Asks text report := by
  have hmac : Text.Names "mac" text ↔ _ := Text.names_iff (by decide)
  have htable : Text.Names "table" text ↔ _ := Text.names_iff (by decide)
  have hinterfaces : Text.Names "interfaces" text ↔ _ := Text.names_iff (by decide)
  unfold report?
  simp only
  constructor
  · intro h
    split at h
    · rename_i hverb
      cases h
      exact .table (hverb.imp hmac.mpr htable.mpr)
    · split at h
      · rename_i hverb
        cases h
        exact .interfaces (hinterfaces.mpr hverb)
      · cases h
  · rintro (h | h)
    · rw [if_pos (h.imp hmac.mp htable.mp)]
    · have hverb := hinterfaces.mp h
      rw [hverb]
      rfl

/-! ## The size of a report -/

theorem length_entryLine_le (s : Switch) (e : Entry) :
    (Bytes.ofText (s.entryLine e)).length ≤ 31 + (Bytes.ofText (s.nameOf e.interface)).length := by
  have hline : s.entryLine e =
      e.address.text ++ " -> " ++ s.nameOf e.interface ++ " (#" ++ toString e.interface ++ ")\n" := rfl
  have hfixed : (Bytes.ofText " -> ").length = 4 ∧ (Bytes.ofText " (#").length = 3 ∧
      (Bytes.ofText ")\n").length = 2 := by decide
  have haddress := Bytes.length_ofText_address e.address
  have hindex := Bytes.length_ofText_word e.interface
  rw [hline]
  simp only [Bytes.ofText_append, List.length_append]
  omega

theorem length_nameOf_le {n : Nat} (hn : 1 ≤ n)
    (h : ∀ p ∈ s.ports, (Bytes.ofText p.interface.name).length ≤ n) (i : UInt16) :
    (Bytes.ofText (s.nameOf i)).length ≤ n := by
  have hunknown : (Bytes.ofText "?").length ≤ n := hn
  unfold nameOf
  split
  · exact hunknown
  · cases hp : s.ports[i.toNat - 1]? with
    | none => exact hunknown
    | some p => exact h p (List.mem_of_getElem? hp)

theorem length_entries_le (t : LearningTable) : t.entries.length ≤ LearningTable.capacity := by
  refine (List.length_filterMap_le ..).trans_eq ?_
  rw [Vector.length_toList]
  rfl

theorem tableReport_fits (h : ∀ p ∈ s.ports, (Bytes.ofText p.interface.name).length ≤ 8160) :
    (Bytes.ofText s.tableReport).length ≤ Message.maxPayload := by
  have hmax : Message.maxPayload = 65531 := rfl
  unfold tableReport
  split
  · decide
  · have hlines : ∀ line ∈ ((s.table.map LearningTable.entries).getD []).map s.entryLine,
        (Bytes.ofText line).length ≤ 8191 := by
      refine List.forall_mem_map.mpr fun e _ => ?_
      have := s.length_entryLine_le e
      have := length_nameOf_le (by decide) h e.interface
      omega
    have hentries : ((s.table.map LearningTable.entries).getD []).length ≤ 8 := by
      cases s.table with
      | none => exact Nat.zero_le _
      | some t => exact length_entries_le t
    have hreport := Bytes.length_join_le hlines
    rw [List.length_map] at hreport
    omega

theorem le_length_modeReport (mode : PortMode) : 13 ≤ (Bytes.ofText (modeReport mode)).length := by
  have hfixed : (Bytes.ofText "untagged vlan ").length = 14 ∧ (Bytes.ofText "tagged vlans ").length = 13 := by
    decide
  cases mode with
  | access vlan =>
    have hmode : modeReport (.access vlan) = "untagged vlan " ++ toString vlan := rfl
    rw [hmode, Bytes.ofText_append, List.length_append]
    omega
  | trunk vlans =>
    have hmode : modeReport (.trunk vlans) = "tagged vlans " ++ (PortMode.trunk vlans).vlanList := rfl
    rw [hmode, Bytes.ofText_append, List.length_append]
    omega

theorem le_length_portLine (p : SwitchPort) : 25 ≤ (Bytes.ofText (portLine p)).length := by
  have hline : portLine p = "#" ++ toString p.interface.index ++ " " ++ p.interface.name ++ " " ++
      (p.address.map MacAddress.text).getD "unknown" ++ " " ++ modeReport p.interface.mode ++ "\n" := rfl
  have hfixed : (Bytes.ofText "#").length = 1 ∧ (Bytes.ofText " ").length = 1 ∧
      (Bytes.ofText "\n").length = 1 := by decide
  have haddress : 7 ≤ (Bytes.ofText ((p.address.map MacAddress.text).getD "unknown")).length := by
    cases p.address with
    | none => decide
    | some a => exact Nat.le_trans (by decide) (Bytes.length_ofText_address a).ge
  have hindex := Bytes.length_ofText_word p.interface.index
  have hmode := le_length_modeReport p.interface.mode
  rw [hline]
  simp only [Bytes.ofText_append, List.length_append]
  omega

/-- No message holds a line for each of so many interfaces, although a roster can list four times as many. -/
theorem interfacesReport_large (h : 2622 ≤ s.ports.length) :
    Message.maxPayload < (Bytes.ofText s.interfacesReport).length := by
  have hmax : Message.maxPayload = 65531 := rfl
  have hlines : ∀ line ∈ s.ports.map portLine, 25 ≤ (Bytes.ofText line).length :=
    List.forall_mem_map.mpr fun p _ => le_length_portLine p
  have hreport := Bytes.le_length_join hlines
  rw [List.length_map] at hreport
  unfold interfacesReport
  omega

/-! ## Commands -/

theorem react_control (text : Bytes) (s : Switch) :
    react (.control text) s = .ok (s.command (Utf8.decode text), s) := rfl

theorem handler_of_not_asks {text : Bytes} (h : ∀ report, ¬ s.Asks (Utf8.decode text) report) (out : Sink) :
    Tool.handler react (.control text) (s, out) = (.ok (), s, out) := by
  have hnone : s.report? (Utf8.decode text) = none :=
    Option.eq_none_iff_forall_not_mem.mpr fun report hr => h report (report?_eq_some_iff.mp hr)
  rw [Tool.handler_of_ok (react_control text s), command, hnone]
  rfl

theorem handler_of_asks {text : Bytes} (h : s.Asks (Utf8.decode text) report) (out : Sink) :
    Tool.handler react (.control text) (s, out) =
      ((out.sendEach [Message.ofText report]).1, s, (out.sendEach [Message.ofText report]).2) := by
  rw [Tool.handler_of_ok (react_control text s), command, report?_eq_some_iff.mpr h]
  rfl

/-- **Only a report that is too long can make a command fail.** Text that asks for no report is passed
over, and a report that a message holds is sent; a longer one is refused with nothing sent. No command
changes the switch. The table can be sent as long as names are not excessive, and the list of interfaces
cannot from some number of them on. -/
theorem command_fails_at_long_report (s : Switch) (text : Bytes) (ho : out.Accepting) :
    ((∀ report, ¬ s.Asks (Utf8.decode text) report) →
      Tool.handler react (.control text) (s, out) = (.ok (), s, out)) ∧
    (∀ report, s.Asks (Utf8.decode text) report →
      ((Bytes.ofText report).length ≤ Message.maxPayload →
        ∃ out', Tool.handler react (.control text) (s, out) = (.ok (), s, out') ∧
          out'.data.toList = out.data.toList ++ (Message.ofText report).toBytes) ∧
      (Message.maxPayload < (Bytes.ofText report).length →
        Tool.handler react (.control text) (s, out) =
          (.error (.payloadTooLarge (Bytes.ofText report).length Message.maxPayload), s, out))) ∧
    ((∀ p ∈ s.ports, (Bytes.ofText p.interface.name).length ≤ 8160) →
      (Bytes.ofText s.tableReport).length ≤ Message.maxPayload) ∧
    (2622 ≤ s.ports.length → Message.maxPayload < (Bytes.ofText s.interfacesReport).length) := by
  refine ⟨fun h => handler_of_not_asks h out, fun report h => ⟨fun hfits => ?_, fun hlarge => ?_⟩,
    tableReport_fits, interfacesReport_large⟩
  · have hfits : (Message.ofText report).Fits := hfits
    obtain ⟨hok, hdata⟩ := ho.sendEach (List.forall_mem_singleton.mpr hfits)
    refine ⟨_, by rw [handler_of_asks h, hok], ?_⟩
    rw [hdata, List.flatMap_singleton]
  · have hlarge : ¬ (Message.ofText report).Fits := Nat.not_le.mpr hlarge
    rw [handler_of_asks h, out.sendEach_of_head_large hlarge]
    rfl

theorem couple_lists_interfaces :
    ({} : Sink).Accepting ∧ ∃ out',
      Tool.handler react (.control (Bytes.ofText "\tInterfaces please\n")) (couple, {}) =
        (.ok (), couple, out') ∧
      out'.data.toList = Message.toBytes
        (.ofText "#1 left unknown untagged vlan 0\n#2 right unknown untagged vlan 0\n") := by
  have ho : ({} : Sink).Accepting := ⟨rfl, rfl⟩
  have hreport : couple.interfacesReport =
      "#1 left unknown untagged vlan 0\n#2 right unknown untagged vlan 0\n" := by decide
  have hasks : couple.Asks (Utf8.decode (Bytes.ofText "\tInterfaces please\n")) couple.interfacesReport := by
    rw [Utf8.decode_ofText]
    exact report?_eq_some_iff.mp (by decide)
  obtain ⟨_, hcommand, _⟩ := command_fails_at_long_report couple (Bytes.ofText "\tInterfaces please\n") ho
  obtain ⟨out', hhandler, hdata⟩ := (hcommand _ hasks).1 (by rw [hreport]; decide)
  refine ⟨ho, out', hhandler, ?_⟩
  rw [hdata, hreport]
  rfl

/-- Arguments that parse, and text that asks for a report, are not enough to get it. -/
theorem long_list_is_refused :
    ∃ interfaces s, Interface.parseAll (List.replicate 2622 "a") = .ok interfaces ∧
      ofInterfaces interfaces = .ok s ∧ ({} : Sink).Accepting ∧
      Tool.handler react (.control (Bytes.ofText "interfaces")) (s, {}) =
        (.error (.payloadTooLarge (Bytes.ofText s.interfacesReport).length Message.maxPayload), s, {}) := by
  have hplain : ∀ s ∈ List.replicate 2622 "a", s ≠ "" ∧ '[' ∉ s.toList := by
    intro s hs
    rw [List.eq_of_mem_replicate hs]
    decide
  obtain ⟨interfaces, hparse⟩ :=
    Interface.exists_parseAll_of_plain (by rw [List.length_replicate]; decide) hplain
  obtain ⟨hlength, hmax⟩ := Interface.length_of_parseAll hparse
  rw [List.length_replicate] at hlength hmax
  obtain ⟨s, hs⟩ : ∃ s, ofInterfaces interfaces = .ok s := ⟨_, dif_pos (hlength ▸ hmax)⟩
  have hports : s.ports.length = 2622 := by rw [← hlength, ← ports_of_ofInterfaces hs, List.length_map]
  have hasks : s.Asks (Utf8.decode (Bytes.ofText "interfaces")) s.interfacesReport := by
    rw [Utf8.decode_ofText]
    exact .interfaces ((Text.names_iff (by decide)).mpr (by decide))
  have hlarge : ¬ (Message.ofText s.interfacesReport).Fits :=
    Nat.not_le.mpr (interfacesReport_large hports.ge)
  refine ⟨interfaces, s, hparse, hs, ⟨rfl, rfl⟩, ?_⟩
  rw [handler_of_asks hasks, Sink.sendEach_of_head_large _ hlarge]
  rfl

end

end EtherBench.Switch
