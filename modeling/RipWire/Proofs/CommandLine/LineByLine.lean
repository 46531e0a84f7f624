import RipWire.Proofs.CommandLine.Encoding
import RipWire.Proofs.CommandLine.Isolation
import RipWire.Proofs.Json.DocumentLines
import RipWire.Proofs.Json.RoundTrip
import RipWire.Proofs.Octets.Lines

/-!
# Lines of an encode run

An encode run prints a line for each document: the octets of a packet, or a complaint
that cannot be taken for octets. It does so unless a complaint gives a text from the
document as it is, and that text has a line feed in it. What stands behind the line
feed is then a line of its own, and may look like octets.
-/

namespace RipWire.CommandLine

open Decode (Answer)
open Payload (Denotes)

namespace Encode

/-- The line that a document is owed: the octets of its packet, or a complaint. -/
inductive LineFor (spaced : Bool) (document : Json) (line : Text) : Prop where
  | packet {p : Packet} {octets : Bytes} (made : Packet.ofJson document = .ok p)
      (sent : Packet.write (.packet p) = .ok octets) (shown : line = Hex.line spaced octets)
  | complaint {fault : Fault} (refused : Packet.ofJson document = .error fault)
      (headed : text "invalid packet: " <+: line) (nothing : ¬ ∃ octets, Denotes line octets)

/-- A text of as many lines as there are documents, each of them the one that its document is
owed. -/
def LineByLine (spaced : Bool) (documents : List Json) (printed : Text) : Prop :=
  ∃ lines, List.Forall₂ (LineFor spaced) documents lines ∧
    printed = lines.flatMap (· ++ [10]) ∧ ∀ line ∈ lines, 10 ∉ line

/-- No line feed is in the text that refusing a document gives as it is. -/
def StaysOnLine (document : Json) : Prop :=
  ∀ fault, Packet.ofJson document = .error fault → ∀ raw ∈ fault.rawText?, 10 ∉ raw

theorem not_denotes_complaint (reason : Text) :
    ¬ ∃ octets, Denotes (text "invalid packet: " ++ reason) octets := by
  rintro ⟨octets, hne, hspells⟩
  obtain ⟨digits, hdigits⟩ : ∃ digits,
      Payload.normalise (text "invalid packet: " ++ reason) = 105 :: digits :=
    ⟨_, rfl⟩
  rw [hdigits] at hspells
  have hdigit := (Hex.exists_spells_iff.mp ⟨octets, hspells⟩).2 105 List.mem_cons_self
  exact absurd hdigit (by decide)

theorem staysOnLine_of_ok {document : Json} {p : Packet} (h : Packet.ofJson document = .ok p) :
    StaysOnLine document := by
  intro fault hfault
  rw [h] at hfault
  cases hfault

theorem staysOnLine_iff {document : Json} {fault : Fault}
    (h : Packet.ofJson document = .error fault) : StaysOnLine document ↔ 10 ∉ fault.message := by
  rw [(Packet.reported_ofJson h).feed]
  constructor
  · rintro hstays ⟨raw, hraw, hfeed⟩
    exact hstays fault h raw hraw hfeed
  · intro hnone other hother raw hraw hfeed
    cases h.symm.trans hother
    exact hnone ⟨raw, hraw, hfeed⟩

section Answers

variable {spaced : Bool} {document : Json} {answer : Answer} (h : Answers spaced document answer)

include h

theorem Answers.exists_line (hstays : StaysOnLine document) :
    ∃ line, LineFor spaced document line ∧ answer.output = line ++ [10] ∧ 10 ∉ line := by
  cases h with
  | @packet p octets made sent =>
      exact ⟨_, .packet made sent rfl, shown_eq spaced octets, (Hex.oneLine_line spaced octets).1⟩
  | @refusal fault refused =>
      refine ⟨text "invalid packet: " ++ fault.message,
        .complaint refused (List.prefix_append _ _) (not_denotes_complaint _), rfl, ?_⟩
      exact mt List.mem_append.mp
        (not_or.mpr ⟨by decide, (staysOnLine_iff refused).mp hstays⟩)

/-- An answer ends in a line feed, and has another one when its document does not stay on a
line. -/
theorem Answers.count_feeds :
    1 ≤ answer.output.count 10 ∧ (answer.output.count 10 = 1 → StaysOnLine document) := by
  cases h with
  | packet made sent =>
      rw [shown_eq, List.count_append]
      exact ⟨Nat.le_add_left _ _, fun _ => staysOnLine_of_ok made⟩
  | @refusal fault refused =>
      have hhead : (text "invalid packet: ").count 10 = 0 := by decide
      have hend : (text "\n").count 10 = 1 := by decide
      rw [List.count_append, List.count_append, hhead, hend, staysOnLine_iff refused,
        ← List.count_eq_zero]
      omega

end Answers

section LineByLine

variable {spaced : Bool} {documents : List Json} {answers : List Answer}
  (h : List.Forall₂ (Answers spaced) documents answers)

include h

theorem lineByLine_of_staysOnLine (hstay : ∀ document ∈ documents, StaysOnLine document) :
    LineByLine spaced documents (answers.flatMap Answer.output) := by
  induction h with
  | nil => exact ⟨[], .nil, rfl, by simp⟩
  | cons hfirst _ ih =>
      obtain ⟨hstays, hmore⟩ := List.forall_mem_cons.mp hstay
      obtain ⟨line, hline, houtput, hone⟩ := hfirst.exists_line hstays
      obtain ⟨lines, hlines, hprinted, hall⟩ := ih hmore
      refine ⟨line :: lines, .cons hline hlines, ?_, List.forall_mem_cons.mpr ⟨hone, hall⟩⟩
      rw [List.flatMap_cons, List.flatMap_cons, houtput, hprinted]

/-- By induction on the documents: each of them adds a line feed at least, and may add no more. -/
theorem count_feeds : documents.length ≤ (answers.flatMap Answer.output).count 10 ∧
    ((answers.flatMap Answer.output).count 10 = documents.length →
      ∀ document ∈ documents, StaysOnLine document) := by
  induction h with
  | nil => simp
  | cons hfirst _ ih =>
      obtain ⟨hone, hstays⟩ := hfirst.count_feeds
      obtain ⟨hmany, hmore⟩ := ih
      rw [List.flatMap_cons, List.count_append, List.length_cons]
      refine ⟨by omega, fun hcount => List.forall_mem_cons.mpr ⟨hstays ?_, hmore ?_⟩⟩ <;> omega

theorem lineByLine_iff : LineByLine spaced documents (answers.flatMap Answer.output) ↔
    ∀ document ∈ documents, StaysOnLine document := by
  refine ⟨?_, lineByLine_of_staysOnLine h⟩
  rintro ⟨lines, hlines, hprinted, hone⟩
  refine (count_feeds h).2 ?_
  rw [hprinted, Text.count_feeds hone, hlines.length_eq]

end LineByLine

end Encode

namespace Invocation

/-- A quiet encode run whose answers can be printed gives every document its own, in order. What it
prints is a line for each of them, exactly when every document stays on its line. -/
theorem runEncode_lineByLine_iff {i : Invocation} {request : Request} {t : Text}
    {documents : List Json}
    (ht : i.described? request = some t)
    (hq : i.Quiet request.switches (encodingOf request.switches t))
    (hd : Json.documents t = .ok documents)
    (hw : i.TakesAnswers (Encode.Answers (.spaced ∈ request.switches)) documents) :
    (∃ answers, List.Forall₂ (Encode.Answers (.spaced ∈ request.switches)) documents answers ∧
        (i.runEncode request).outlets.printed = answers.flatMap Answer.output ∧
        (i.runEncode request).status = .ok (statusOf (answers.any Answer.refused))) ∧
      (Encode.LineByLine (.spaced ∈ request.switches) documents
          (i.runEncode request).outlets.printed ↔
        ∀ document ∈ documents, Encode.StaysOnLine document) := by
  obtain ⟨answers, hanswers⟩ := Encode.exists_answers (.spaced ∈ request.switches) documents
  obtain ⟨hprinted, hstatus⟩ :=
    runEncode_of_answers ht hq hd hanswers (TakesAnswers.takes hanswers hw)
  refine ⟨⟨answers, hanswers, hprinted, hstatus⟩, ?_⟩
  rw [hprinted]
  exact Encode.lineByLine_iff hanswers

/-- A packet, and a document whose family is unknown. -/
theorem runEncode_lineByLine_of_two_documents :
    let documents : List Json := [
      .object [(text "command", .string "request"), (text "version", .int 1)],
      .object [(text "command", .string "response"), (text "version", .int 2),
        (text "entries", .array [.object [(text "address-family", .string "ipx"),
          (text "ip-address", .string "192.0.2.1"), (text "metric", .int 16)]])]]
    let t := (Json.array documents).write Json.oneLine
    let request : Request := ⟨.encode, [], some t⟩
    let i := { unconfigured [] with arguments := [text "encode", t] }
    parse i.arguments = .request request ∧ i.described? request = some t ∧
      i.Quiet [] (encodingOf [] t) ∧ Json.documents t = .ok documents ∧
      i.TakesAnswers (Encode.Answers false) documents ∧
      Encode.LineByLine false documents (i.runEncode request).outlets.printed := by
  intro documents t request i
  have hready : i.Ready [] := (ready_unconfigured []).congr rfl rfl
  have hplain : Json.Plain (.array documents) := by
    simp only [documents, Json.Plain, Json.PlainItems, Json.PlainMembers]
    decide
  have hd : Json.documents t = .ok documents :=
    Json.documents_of_array (Json.read_write Json.spacious_oneLine hplain)
  have hstay : ∀ document ∈ documents, Encode.StaysOnLine document :=
    List.forall_mem_cons.mpr ⟨Encode.staysOnLine_of_ok rfl,
      List.forall_mem_singleton.mpr ((Encode.staysOnLine_iff rfl).mpr (by decide))⟩
  have hquiet : i.Quiet [] (encodingOf [] t) := hready.quiet _
  have ht : i.described? request = some t := rfl
  have hprinted : (unconfigured []).outside.Takes .stdout
      (Event.contents (Encode.encodeAll ⟨false, false⟩ documents).1) := by decide
  have hw : i.TakesAnswers (Encode.Answers false) documents := takesAnswers_of_encodeAll hprinted
  exact ⟨rfl, ht, hquiet, hd, hw, (runEncode_lineByLine_iff ht hquiet hd hw).2.mpr hstay⟩

/-- The name of a command that is not known is given as it is, and what stands behind the line feed
in it is a line that is read as a packet. -/
theorem not_lineByLine_of_unknown_command :
    let name := text "x\n01010000"
    let document : Json := .object [(text "command", .string name), (text "version", .int 1)]
    let t := text "\x7b\"command\": \"x\\n01010000\", \"version\": 1\x7d"
    let i := { unconfigured [] with arguments := [text "encode", t] }
    i.Ready [] ∧ parse i.arguments = .request ⟨.encode, [], some t⟩ ∧
      Json.documents t = .ok [document] ∧
      i.run.outlets.printed = text "invalid packet: unknown command x\n01010000\n" ∧
      (∃ octets p, Denotes (text "01010000") octets ∧ Packet.read octets = .ok p) ∧
      ¬ Encode.LineByLine false [document] i.run.outlets.printed := by
  intro name document t i
  have hready : i.Ready [] := (ready_unconfigured []).congr rfl rfl
  have hread : Json.read t = .ok document := by
    have hcommand := Json.quoted_written (show (text "command").IsAscii by decide)
    have hversion := Json.quoted_written (show (text "version").IsAscii by decide)
    have hname : Json.Quoted false [] (text "x\\n01010000\"") name := by
      have hdigits := Json.stringBody_written (show (text "01010000").IsAscii by decide) [] false
        [10, 120] []
      have hfeed := Json.stringBody_escape [] false [120]
        (show Json.simpleEscape? 110 = some 10 from rfl)
      have hplain := Json.stringBody_plain [] false [] (show 120 ≠ 34 by decide) (by decide)
        (by decide)
      exact Json.quoted_of_stringBody ((hplain _).trans ((hfeed _).trans hdigits))
    have hone : Json.Spelling Json.value (Text.ofInt 1) (.int 1) :=
      Json.spelling_int (by
        rw [Json.Plain]
        decide)
    have hlast := hversion.lastMember hone Json.gap_nil Json.gap_blank Json.gap_nil
      [(text "command", .string name)]
    have hmembers : Json.Spelling (Json.members · [] ·) _ document :=
      hcommand.nextMember hname.spelling Json.gap_nil Json.gap_blank Json.gap_nil Json.gap_blank
        hlast
    exact Json.read_ok_iff.mpr (hmembers.brace Json.gap_nil).holds
  have hd : Json.documents t = .ok [document] := Json.documents_of_read (by simp [document]) hread
  have hrefused : Packet.ofJson document = .error (.unknownCommand name) := rfl
  have hanswers : List.Forall₂ (Encode.Answers false) [document] _ :=
    .cons (.refusal hrefused) .nil
  have ht : i.described? ⟨.encode, [], some t⟩ = some t := rfl
  have htakes : i.outside.Takes .stdout
      [text "invalid packet: unknown command x\n01010000\n"] := by decide
  have hprinted : i.run.outlets.printed = _ :=
    (runEncode_of_answers ht (hready.quiet _) hd hanswers htakes).1
  refine ⟨hready, rfl, hd, hprinted, ⟨[1, 1, 0, 0], _, ⟨by simp, rfl⟩, rfl⟩, fun hlined => ?_⟩
  rw [hprinted, Encode.lineByLine_iff hanswers] at hlined
  exact hlined document List.mem_cons_self _ hrefused name rfl (by decide)

end Invocation

end RipWire.CommandLine
