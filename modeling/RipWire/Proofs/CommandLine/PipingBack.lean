import RipWire.Proofs.CommandLine.Piping

/-!
# Encoding into decoding

What an encode run prints for the documents of an array, when it accepts them all, is
what a decode run reads as its payloads, one on each line. A line denotes the octets
of its packet, with spaces between them or without, so that the document of the
packet is printed at the end, however the packet was described at first.
-/

namespace RipWire.CommandLine

namespace Encode

theorem accepts_line (spaced : Bool) {version : Version} {p : Packet} (hp : p.WellFormed version) :
    Decode.Accepts (Hex.line spaced p.octets) p :=
  ⟨p.octets, Hex.denotes_line spaced hp.octets_ne_nil, Packet.read_octets hp⟩

theorem payloads_shown (spaced : Bool) {packets : List Packet}
    (hp : ∀ p ∈ packets, ∃ version, p.WellFormed version) :
    Decode.payloads (packets.flatMap fun p => shown spaced p.octets) =
      packets.map fun p => Hex.line spaced p.octets := by
  have hlines : (packets.flatMap fun p => shown spaced p.octets) =
      (packets.map fun p => Hex.line spaced p.octets).flatMap (· ++ [10]) := by
    rw [List.flatMap_map]
    simp only [shown_eq]
  rw [hlines]
  refine Decode.payloads_of_lines ?_ ?_ ?_
  · exact List.forall_mem_map.mpr fun p _ => (Hex.oneLine_line spaced p.octets).1
  · exact List.forall_mem_map.mpr fun p _ => Hex.bare_line spaced p.octets
  · refine List.forall_mem_map.mpr fun p hm => ?_
    obtain ⟨version, hw⟩ := hp p hm
    exact Hex.line_ne_nil spaced hw.octets_ne_nil

end Encode

namespace Invocation

/-- An encode run on a text that holds an array of documents, and a decode run that reads what the
first one prints and writes a document on one line. Both are quiet, and can print visible ASCII.
`holds` leaves out an array with an integer of more than 4300 digits, which can not be read. Nesting
has no limit. -/
structure PipedBack (i j : Invocation) (t : Text) (documents : List Json) (operand : Option Text)
    (switches others : List Switch) : Prop where
  encodes : parse i.arguments = .request ⟨.encode, switches, operand⟩
  describes : i.described? ⟨.encode, switches, operand⟩ = some t
  holds : Json.read t = .ok (.array documents)
  quiet : i.Quiet switches (encodingOf switches t)
  takes : i.TakesAscii
  decodes : parse j.arguments = .request ⟨.decode, others, none⟩
  compact : .indent ∉ others
  pipe : j.input = some i.run.outlets.printed
  quiet_other : j.Quiet others (decoding others (Decode.payloads i.run.outlets.printed))
  takes_other : j.TakesAscii

/-- The line that a document comes back as: the document of the packet that it describes. -/
def ShownAgainAs (document : Json) (line : Text) : Prop :=
  ∃ p json, Packet.ofJson document = .ok p ∧ p.toJson = .ok json ∧ line = json.write Json.oneLine

section PipedBack

variable {i j : Invocation} {t : Text} {documents : List Json} {operand : Option Text}
  {switches others : List Switch} (h : i.PipedBack j t documents operand switches others)

include h

theorem PipedBack.run_eq : i.run = i.runEncode ⟨.encode, switches, operand⟩ := by
  simp only [run, h.encodes, runRequest]

theorem PipedBack.run_other_eq :
    j.run = j.configured others (decoding others (Decode.payloads i.run.outlets.printed)) := by
  simp only [run, h.decodes, runRequest, runDecode, h.pipe]
  rfl

/-- Decoding undoes encoding. When every document is accepted, both runs end with status 0, and
the decode run prints a line for each document, in order: that of the packet it describes. -/
theorem PipedBack.decode_undoes_encode
    (haccepted : ∀ document ∈ documents, ∃ p, Packet.ofJson document = .ok p) :
    i.run.status = .ok 0 ∧ j.run.status = .ok 0 ∧
      ∃ lines, List.Forall₂ ShownAgainAs documents lines ∧
        j.run.outlets.printed = lines.flatMap (· ++ [10]) ∧ ∀ line ∈ lines, 10 ∉ line := by
  obtain ⟨packets, hpackets⟩ := Checks.exists_forall₂ (R := Encode.Accepts) haccepted
  have hwell : ∀ p ∈ packets, ∃ version, p.WellFormed version :=
    Checks.forall_mem_of_forall₂ hpackets (fun _ _ haccepts _ => haccepts.wellFormed) haccepted
  obtain ⟨hprinted, hstatus⟩ := runEncode_of_accepts h.describes h.quiet
    (Json.documents_of_array h.holds) hpackets (h.takes.takes_shown _ packets)
  rw [← h.run_eq] at hprinted hstatus
  -- The lines are accepted as payloads, each as the packet that it is printed for.
  have hpayloads : Decode.payloads i.run.outlets.printed =
      packets.map fun p => Hex.line (.spaced ∈ switches) p.octets := by
    rw [hprinted]
    exact Encode.payloads_shown _ hwell
  have haccepts : List.Forall₂ Decode.Accepts (Decode.payloads i.run.outlets.printed) packets := by
    rw [hpayloads, List.forall₂_map_left_iff, List.forall₂_same]
    intro p hm
    obtain ⟨version, hw⟩ := hwell p hm
    exact Encode.accepts_line _ hw
  obtain ⟨shown, hshown⟩ := Encode.exists_shows hwell
  obtain ⟨hdecoded, hother⟩ := decoding_of_accepts h.quiet_other h.takes_other haccepts hshown
  rw [← h.run_other_eq] at hdecoded hother
  refine ⟨hstatus, hother, shown.map (Json.write Json.oneLine), ?_, ?_, ?_⟩
  · rw [List.forall₂_map_right_iff]
    exact Checks.forall₂_trans (fun document p json hmade hshows =>
      ⟨p, json, hmade, hshows.2, rfl⟩) hpackets hshown
  · rw [hdecoded, Decode.output_shownAs (if_neg (by simpa using h.compact)).symm, List.flatMap_map]
  · refine List.forall_mem_map.mpr fun json hm hfeed => ?_
    have hplain := (Decode.plainObject_of_shows hshown json hm).1
    exact absurd (Json.isAscii_write hplain 10 hfeed).1 (by decide)

end PipedBack

/-- A packet that is described by codes, and one of which all that has a default is left out. -/
theorem decode_undoes_encode_of_two_documents :
    let documents : List Json := [
      .object [(text "command", .int 1), (text "version", .int 1)],
      .object [(text "version", .int 2), (text "command", .string "response"),
        (text "entries", .array [
          .object [(text "metric", .int 16), (text "ip-address", .string "192.0.2.1")]])]]
    let t := (Json.array documents).write Json.oneLine
    let i := { unconfigured [] with arguments := [text "encode", text "-s", t] }
    let j := unconfigured i.run.outlets.printed
    i.PipedBack j t documents (some t) [.spaced] [] ∧
      (∀ document ∈ documents, ∃ p, Packet.ofJson document = .ok p) ∧
      i.run.status = .ok 0 ∧ j.run.status = .ok 0 ∧
      ∃ lines, List.Forall₂ ShownAgainAs documents lines ∧
        j.run.outlets.printed = lines.flatMap (· ++ [10]) ∧ ∀ line ∈ lines, 10 ∉ line := by
  intro documents t i j
  have hi : i.Ready [] := (ready_unconfigured []).congr rfl rfl
  have hspaced : i.Ready [.spaced] := hi.of_overridden rfl
  have hj : j.Ready [] := ready_unconfigured _
  have hplain : Json.Plain (.array documents) := by
    simp only [documents, Json.Plain, Json.PlainItems, Json.PlainMembers]
    decide
  have hread : Json.read t = .ok (.array documents) :=
    Json.read_write Json.spacious_oneLine hplain
  have hpiped : i.PipedBack j t documents (some t) [.spaced] [] :=
    ⟨rfl, rfl, hread, hspaced.quiet _, takesAscii_of_utf8 rfl, rfl, by simp, rfl, hj.quiet _,
      takesAscii_of_utf8 rfl⟩
  have haccepted : ∀ document ∈ documents, ∃ p, Packet.ofJson document = .ok p :=
    List.forall_mem_cons.mpr ⟨⟨_, rfl⟩, List.forall_mem_singleton.mpr ⟨_, rfl⟩⟩
  exact ⟨hpiped, haccepted, hpiped.decode_undoes_encode haccepted⟩

end Invocation

end RipWire.CommandLine
