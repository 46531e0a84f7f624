import RipWire.Proofs.CommandLine.Encoding
import RipWire.Proofs.CommandLine.Isolation
import RipWire.Proofs.Datagram.Plain
import RipWire.Proofs.Json.Documents
import RipWire.Proofs.Octets.Lines

/-!
# Decoding into encoding

What a decode run prints, without a complaint in it, is what an encode run reads
as the documents of the packets. The lines that come out at the end hold the
octets that are sent for the packets, whatever the payloads looked like.
-/

namespace RipWire

namespace CommandLine

open Decode (Answer Answers)
open Payload (Denotes MarkedTwice)

namespace Decode

/-- A payload that is accepted, as the hexadecimal of a packet. -/
def Accepts (payload : Text) (p : Packet) : Prop :=
  ∃ octets, Denotes payload octets ∧ Packet.read octets = .ok p

theorem Accepts.wellFormed {payload : Text} {p : Packet} (h : Accepts payload p) :
    ∃ version, p.WellFormed version := by
  obtain ⟨octets, -, hr⟩ := h
  exact Packet.read_wellFormed hr

theorem Accepts.not_marked {payload : Text} {p : Packet} (h : Accepts payload p) :
    ¬ MarkedTwice payload := by
  obtain ⟨octets, hd, -⟩ := h
  rintro ⟨mark, digits, -, ht, hm, -, -⟩
  rw [Denotes, ht] at hd
  exact Payload.not_spells_mark hm hd.2

/-- The answer to an accepted payload. -/
def shownAs (indented : Bool) (document : Json) : Answer :=
  ⟨document.write (if indented then Json.indented else Json.oneLine) ++ text "\n", false⟩

theorem Accepts.answers {indented : Bool} {payload : Text} {p : Packet} {document : Json}
    (h : Accepts payload p) (hj : p.toJson = .ok document) :
    Answers indented payload (shownAs indented document) := by
  obtain ⟨octets, hd, hr⟩ := h
  exact .document hd hr hj

theorem accepts_of_answers {indented : Bool} {payload : Text} {answer : Answer}
    (h : Answers indented payload answer) (hr : answer.refused = false) :
    ∃ p, Accepts payload p := by
  cases h with
  | document hd hread hj => exact ⟨_, _, hd, hread⟩
  | invalidPayload hd hread => cases hr
  | invalidHexadecimal hn => cases hr

theorem exists_documents {payloads : List Text}
    (h : ∀ payload ∈ payloads, ∃ p, Accepts payload p) :
    ∃ packets documents, List.Forall₂ Accepts payloads packets ∧
      List.Forall₂ Encode.Shows packets documents := by
  obtain ⟨packets, hpackets⟩ := Checks.exists_forall₂ h
  have hwell : ∀ p ∈ packets, ∃ version, p.WellFormed version :=
    Checks.forall_mem_of_forall₂ hpackets (fun _ _ haccepts _ => haccepts.wellFormed) h
  obtain ⟨documents, hdocuments⟩ := Encode.exists_shows hwell
  exact ⟨packets, documents, hpackets, hdocuments⟩

theorem answers_shownAs {indented : Bool} {payloads : List Text} {packets : List Packet}
    {documents : List Json} (hp : List.Forall₂ Accepts payloads packets)
    (hd : List.Forall₂ Encode.Shows packets documents) :
    List.Forall₂ (Answers indented) payloads (documents.map (shownAs indented)) := by
  rw [List.forall₂_map_right_iff]
  exact Checks.forall₂_trans (fun _ _ _ haccepts hshows => haccepts.answers hshows.2) hp hd

theorem accepts_of_answered {indented : Bool} {payloads : List Text} {answers : List Answer}
    (h : List.Forall₂ (Answers indented) payloads answers)
    (hr : ∀ answer ∈ answers, answer.refused = false) :
    ∀ payload ∈ payloads, ∃ p, Accepts payload p := by
  induction h with
  | nil => simp
  | cons hfirst hrest ih =>
      obtain ⟨hanswer, hmore⟩ := List.forall_mem_cons.mp hr
      exact List.forall_mem_cons.mpr ⟨accepts_of_answers hfirst hanswer, ih hmore⟩

theorem plainObject_of_shows {packets : List Packet} {documents : List Json}
    (hd : List.Forall₂ Encode.Shows packets documents) : ∀ v ∈ documents, v.PlainObject := by
  induction hd with
  | nil => simp
  | cons hfirst hrest ih =>
      exact List.forall_mem_cons.mpr ⟨Packet.plain_toJson hfirst.2, ih⟩

theorem output_shownAs {indented : Bool} {layout : Json.Layout}
    (hl : layout = if indented then Json.indented else Json.oneLine) (documents : List Json) :
    (documents.map (shownAs indented)).flatMap Answer.output =
      documents.flatMap fun v => v.write layout ++ [10] := by
  rw [hl, List.flatMap_map]
  rfl

theorem visible_shownAs {indented : Bool} {document : Json} (hv : document.PlainObject) :
    ∀ c ∈ (shownAs indented document).output, c = 10 ∨ 32 ≤ c ∧ c ≤ 126 := by
  intro c hm
  cases List.mem_append.mp hm with
  | inl hwritten =>
      cases indented with
      | false => exact .inr (Json.isAscii_write hv.1 c hwritten)
      | true => exact Json.written_within Json.within_indented document 0 hv.1 c hwritten
  | inr hfeed => exact .inl (List.mem_singleton.mp hfeed)

theorem documents_of_printed {indented : Bool} {packets : List Packet} {documents : List Json}
    (hd : List.Forall₂ Encode.Shows packets documents)
    (hone : indented = true → documents.length ≤ 1) :
    Json.documents ((documents.map (shownAs indented)).flatMap Answer.output) = .ok documents := by
  have hv := plainObject_of_shows hd
  cases indented with
  | false =>
      rw [output_shownAs rfl, if_neg (by decide)]
      exact Json.documents_lines hv
  | true =>
      rw [output_shownAs rfl, if_pos rfl]
      match documents, hone rfl with
      | [], _ => rfl
      | [v], _ =>
          rw [List.flatMap_singleton]
          exact Json.documents_write Json.spacious_indented (hv v List.mem_cons_self)

end Decode

namespace Invocation

/-- What a decode run does with its payloads. -/
def decoding (switches : List Switch) (payloads : List Text) (settings : Settings) : Course :=
  decode ⟨.indent ∈ switches, (settings .traceback).isOn⟩ payloads

/-- A decode run that reads its payloads from standard input, and an encode run that reads what
the first one prints. Both are quiet, and can print visible ASCII. -/
structure Piped (i j : Invocation) (input : Text) (switches others : List Switch) : Prop where
  decodes : parse i.arguments = .request ⟨.decode, switches, none⟩
  reads : i.input = some input
  quiet : i.Quiet switches (decoding switches (Decode.payloads input))
  takes : i.TakesAscii
  encodes : parse j.arguments = .request ⟨.encode, others, none⟩
  close : .spaced ∉ others
  pipe : j.input = some i.run.outlets.printed
  quiet_other : j.Quiet others (encodingOf others i.run.outlets.printed)
  takes_other : j.TakesAscii

/-- The line that an accepted payload comes back as: the octets that are sent for its packet. -/
def ComesBackAs (payload line : Text) : Prop :=
  ∃ octets p sent, Denotes payload octets ∧ Packet.read octets = .ok p ∧
    Packet.write (.packet p) = .ok sent ∧ line = Text.upper (Hex.encode sent)

theorem comesBackAs_of_accepts {payload : Text} {p : Packet} (h : Decode.Accepts payload p) :
    ComesBackAs payload (Text.upper (Hex.encode p.octets)) := by
  obtain ⟨version, hw⟩ := h.wellFormed
  obtain ⟨octets, hd, hr⟩ := h
  exact ⟨octets, p, p.octets, hd, hr, Packet.write_of_wellFormed hw, rfl⟩

theorem decoding_of_answers {switches : List Switch} {payloads : List Text}
    {answers : List Answer} (settings : Settings)
    (ha : List.Forall₂ (Answers (.indent ∈ switches)) payloads answers)
    (hm : ∀ payload ∈ payloads, ¬ MarkedTwice payload) :
    Event.contents (decoding switches payloads settings).events = answers.map Answer.output ∧
      (decoding switches payloads settings).status =
        .ok (statusOf (answers.any Answer.refused)) := by
  let options : DecodeOptions := ⟨.indent ∈ switches, (settings .traceback).isOn⟩
  have hindented : List.Forall₂ (Answers options.indented) payloads answers := ha
  obtain ⟨hcontents, hresult⟩ := Decode.decodeAll_of_answers hindented hm
  refine ⟨hcontents, ?_⟩
  calc
    _ = (Decode.decodeAll options payloads).2.map statusOf := rfl
    _ = _ := by rw [hresult, Except.map]

theorem TakesAscii.takes_shownAs {i : Invocation} (h : i.TakesAscii) (indented : Bool)
    {packets : List Packet} {documents : List Json}
    (hd : List.Forall₂ Encode.Shows packets documents) :
    i.outside.Takes .stdout ((documents.map (Decode.shownAs indented)).map Answer.output) := by
  simp only [Log.Outside.Takes, List.forall_mem_map]
  intro document hm
  exact h _ (Decode.visible_shownAs (Decode.plainObject_of_shows hd document hm))

theorem TakesAscii.takes_shown {i : Invocation} (h : i.TakesAscii) (spaced : Bool)
    (packets : List Packet) :
    i.outside.Takes .stdout (packets.map fun p => Encode.shown spaced p.octets) :=
  List.forall_mem_map.mpr fun p _ => h _ (Encode.visible_shown spaced p.octets)

theorem accepts_of_decoding {i : Invocation} {switches : List Switch} {payloads : List Text}
    (hq : i.Quiet switches (decoding switches payloads))
    (hzero : (i.configured switches (decoding switches payloads)).status = .ok 0) :
    ∀ payload ∈ payloads, ∃ p, Decode.Accepts payload p := by
  obtain ⟨configuration, log, outlets, hload, hstart, -⟩ := hq
  simp only [configured, hload, hstart] at hzero
  have hcourse := (perform_ok hzero).1
  obtain ⟨refused, hresult, -⟩ := Checks.map_ok_iff.mp hcourse
  obtain ⟨answers, ha⟩ := exists_answers (.indent ∈ switches) payloads
  have hanswered := (decoding_of_answers (overridden switches configuration.settings) ha
    (Decode.not_marked_of_decodeAll hresult)).2
  rw [hcourse] at hanswered
  refine Decode.accepts_of_answered ha ?_
  cases hany : answers.any Answer.refused with
  | false => simpa using hany
  | true =>
      rw [hany] at hanswered
      cases hanswered

section Decoding

variable {i : Invocation} {switches : List Switch} {payloads : List Text}
  (hq : i.Quiet switches (decoding switches payloads)) (ht : i.TakesAscii)

include hq ht

theorem decoding_of_accepts {packets : List Packet} {documents : List Json}
    (hpackets : List.Forall₂ Decode.Accepts payloads packets)
    (hdocuments : List.Forall₂ Encode.Shows packets documents) :
    (i.configured switches (decoding switches payloads)).outlets.printed =
        (documents.map (Decode.shownAs (.indent ∈ switches))).flatMap Answer.output ∧
      (i.configured switches (decoding switches payloads)).status = .ok 0 := by
  obtain ⟨settings, hconfigured⟩ := hq.configured_eq
  have hanswers : List.Forall₂ (Answers (.indent ∈ switches)) payloads
      (documents.map (Decode.shownAs (.indent ∈ switches))) :=
    Decode.answers_shownAs hpackets hdocuments
  have hmarked : ∀ payload ∈ payloads, ¬ MarkedTwice payload := by
    intro payload hm
    obtain ⟨p, ha⟩ := Decode.accepts_of_answered hanswers (by simp [Decode.shownAs]) payload hm
    exact ha.not_marked
  obtain ⟨hcontents, hresult⟩ := decoding_of_answers settings hanswers hmarked
  rw [hcontents] at hconfigured
  obtain ⟨hout, hstatus⟩ := hconfigured (ht.takes_shownAs _ hdocuments)
  rw [hout, hstatus, hresult, List.flatMap_def]
  simp [Decode.shownAs, statusOf, Except.mapError]

theorem decoding_zero_iff :
    (i.configured switches (decoding switches payloads)).status = .ok 0 ↔
      ∀ payload ∈ payloads, ∃ p, Decode.Accepts payload p := by
  refine ⟨accepts_of_decoding hq, ?_⟩
  intro h
  obtain ⟨packets, documents, hpackets, hdocuments⟩ := Decode.exists_documents h
  exact (decoding_of_accepts hq ht hpackets hdocuments).2

end Decoding

section Piped

variable {i j : Invocation} {input : Text} {switches others : List Switch}
  (h : i.Piped j input switches others)

include h

theorem Piped.run_eq :
    i.run = i.configured switches (decoding switches (Decode.payloads input)) := by
  simp only [run, h.decodes, runRequest, runDecode, h.reads]
  rfl

theorem Piped.run_other_eq : j.run = j.runEncode ⟨.encode, others, none⟩ := by
  simp only [run, h.encodes, runRequest]

/-- Encoding undoes decoding. When the decode run ends with status 0, which it does exactly when
every payload is accepted, the encode run ends with status 0 too, and prints a line for each
payload, in order, with the octets that are sent for the packet of that payload. -/
theorem Piped.encode_undoes_decode
    (hone : .indent ∈ switches → (Decode.payloads input).length ≤ 1) :
    (i.run.status = .ok 0 ↔
        ∀ payload ∈ Decode.payloads input, ∃ p, Decode.Accepts payload p) ∧
      (i.run.status = .ok 0 → j.run.status = .ok 0 ∧
        ∃ lines, List.Forall₂ ComesBackAs (Decode.payloads input) lines ∧
          j.run.outlets.printed = lines.flatMap (· ++ [10]) ∧ ∀ line ∈ lines, 10 ∉ line) := by
  have hzero := decoding_zero_iff h.quiet h.takes
  rw [← h.run_eq] at hzero
  refine ⟨hzero, fun hstatus => ?_⟩
  obtain ⟨packets, documents, hpackets, hdocuments⟩ :=
    Decode.exists_documents (hzero.mp hstatus)
  have hprinted := (decoding_of_accepts h.quiet h.takes hpackets hdocuments).1
  rw [← h.run_eq] at hprinted
  have hlength : documents.length = (Decode.payloads input).length :=
    (hpackets.length_eq.trans hdocuments.length_eq).symm
  have hread : Json.documents i.run.outlets.printed = .ok documents := by
    rw [hprinted]
    exact Decode.documents_of_printed hdocuments (by simpa [hlength] using hone)
  have hdescribed : j.described? ⟨.encode, others, none⟩ = some i.run.outlets.printed := by
    rw [described?, h.pipe]
  obtain ⟨hencoded, hother⟩ := runEncode_of_accepts hdescribed h.quiet_other hread
    (hdocuments.flip.imp fun _ _ => Encode.Shows.accepts)
    (h.takes_other.takes_shown _ packets)
  rw [h.run_other_eq]
  refine ⟨hother, packets.map fun p => Text.upper (Hex.encode p.octets), ?_, ?_, ?_⟩
  · exact List.forall₂_map_right_iff.mpr (hpackets.imp fun _ _ => comesBackAs_of_accepts)
  · rw [hencoded, List.flatMap_map]
    simp [Encode.shown, h.close, text]
  · intro line hm
    obtain ⟨p, -, rfl⟩ := List.mem_map.mp hm
    rw [← Hex.line_close]
    exact (Hex.oneLine_line false p.octets).1

end Piped

/-- Two packets. The first has a carriage return between its digits, and the second was received
with reserved octets that are not sent. -/
theorem encode_undoes_decode_of_two_packets :
    let input := text "0x02:02\r:00:00\r\n\n" ++
      text " 0101FFFF 00000000 00000000 00000000 00000000 0000001a\n"
    let i := unconfigured input
    let j := { unconfigured i.run.outlets.printed with arguments := [text "encode"] }
    i.Piped j input [] [] ∧ i.run.status = .ok 0 ∧ j.run.status = .ok 0 ∧
      ∃ lines, List.Forall₂ ComesBackAs (Decode.payloads input) lines ∧
        j.run.outlets.printed = lines.flatMap (· ++ [10]) ∧ ∀ line ∈ lines, 10 ∉ line := by
  intro input i j
  have hi : i.Ready [] := ready_unconfigured input
  have hj : j.Ready [] := hi.congr rfl rfl
  have hpiped : i.Piped j input [] [] :=
    ⟨rfl, rfl, hi.quiet _, takesAscii_of_utf8 rfl, rfl, by simp, rfl, hj.quiet _,
      takesAscii_of_utf8 rfl⟩
  obtain ⟨hzero, hback⟩ := hpiped.encode_undoes_decode (by simp)
  have hstatus : i.run.status = .ok 0 := by
    refine hzero.mpr (List.forall_mem_cons.mpr ⟨?_, List.forall_mem_singleton.mpr ?_⟩)
    · exact ⟨_, [2, 2, 0, 0], ⟨by simp, rfl⟩, rfl⟩
    · exact ⟨_, [1, 1, 255, 255, 0, 0, 0, 0, 0, 0, 0, 0, 0, 0, 0, 0, 0, 0, 0, 0, 0, 0, 0, 26],
        ⟨by simp, rfl⟩, rfl⟩
  exact ⟨hpiped, hstatus, hback hstatus⟩

end Invocation

end CommandLine

end RipWire
