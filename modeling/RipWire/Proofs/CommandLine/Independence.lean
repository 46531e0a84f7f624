import RipWire.Proofs.CommandLine.Encoding
import RipWire.Proofs.CommandLine.Isolation
import RipWire.Proofs.Datagram.Plain
import RipWire.Proofs.Json.DocumentLines
import RipWire.Proofs.Json.RoundTrip

/-!
# Independence of documents

An encode run on an array of documents comes to the same as a run for each of them.
A document that is refused does not end the run, and leaves the answers to the others
as they are.
-/

namespace RipWire.CommandLine

open Decode (Answer)

/-- A run comes to one answer: it prints that alone, and its status tells whether it is a refusal. -/
def Ending.Gives (ending : Ending) (answer : Answer) : Prop :=
  ending.outlets.printed = answer.output ∧ ending.status = .ok (statusOf answer.refused)

namespace Ending

variable {endings : List Ending} {answers : List Answer}
  (h : List.Forall₂ Ending.Gives endings answers)

include h

theorem flatMap_printed :
    endings.flatMap (·.outlets.printed) = answers.flatMap Answer.output := by
  induction h with
  | nil => rfl
  | cons hfirst _ ih => rw [List.flatMap_cons, List.flatMap_cons, hfirst.1, ih]

theorem exists_refused_iff :
    (∃ ending ∈ endings, ending.status = .ok 1) ↔ answers.any Answer.refused = true := by
  induction h with
  | nil => simp
  | @cons ending answer endings answers hfirst _ ih =>
      have hone : ending.status = .ok 1 ↔ answer.refused = true := by
        rw [hfirst.2]
        cases answer.refused <;> simp [statusOf]
      rw [List.exists_mem_cons_iff, hone, ih, List.any_cons, Bool.or_eq_true]

end Ending

namespace Invocation

/-- An encode run on a text that holds an array of documents, with the octets of a packet spaced or
not. It is quiet, and standard output takes its answers. `holds` leaves out an array with an integer
of more than 4300 digits, which can not be read. Nesting has no limit. -/
inductive EncodesArray (i : Invocation) (spaced : Bool) (documents : List Json) : Prop where
  | of {switches : List Switch} {operand : Option Text} {t : Text}
      (encodes : parse i.arguments = .request ⟨.encode, switches, operand⟩)
      (spacing : decide (.spaced ∈ switches) = spaced)
      (describes : i.described? ⟨.encode, switches, operand⟩ = some t)
      (holds : Json.read t = .ok (.array documents))
      (quiet : i.Quiet switches (encodingOf switches t))
      (takes : i.TakesAnswers (Encode.Answers spaced) documents)

section EncodesArray

variable {i : Invocation} {spaced : Bool} {documents : List Json}
  (h : i.EncodesArray spaced documents)

include h

theorem EncodesArray.answered {answers : List Answer}
    (ha : List.Forall₂ (Encode.Answers spaced) documents answers) :
    i.run.outlets.printed = answers.flatMap Answer.output ∧
      i.run.status = .ok (statusOf (answers.any Answer.refused)) := by
  cases h with
  | @of switches operand t encodes spacing describes holds quiet takes =>
      have hrun : i.run = i.runEncode ⟨.encode, switches, operand⟩ := by
        simp only [run, encodes, runRequest]
      have hdocuments := Json.documents_of_array holds
      have htakes := TakesAnswers.takes ha takes
      rw [← spacing] at ha
      rw [hrun]
      exact runEncode_of_answers describes quiet hdocuments ha htakes

end EncodesArray

theorem EncodesArray.gives {j : Invocation} {spaced : Bool} {document : Json} {answer : Answer}
    (h : j.EncodesArray spaced [document]) (ha : Encode.Answers spaced document answer) :
    j.run.Gives answer := by
  obtain ⟨hprinted, hstatus⟩ := h.answered (.cons ha .nil)
  rw [List.flatMap_singleton] at hprinted
  rw [List.any_cons, List.any_nil, Bool.or_false] at hstatus
  exact ⟨hprinted, hstatus⟩

/-- A run on an array prints what the runs on its documents print, in order. It always ends with a
status, which tells of a refusal when one of theirs does. Each of them comes to the answer that
its document is owed, and no note to the log can get in the way. -/
theorem EncodesArray.run_eq_each {i : Invocation} {spaced : Bool} {documents : List Json}
    {singles : List Invocation} (h : i.EncodesArray spaced documents)
    (hs : List.Forall₂ (fun j document => j.EncodesArray spaced [document]) singles documents) :
    i.run.outlets.printed = singles.flatMap (·.run.outlets.printed) ∧
      (i.run.status = .ok 0 ∨ i.run.status = .ok 1) ∧
      (i.run.status = .ok 1 ↔ ∃ j ∈ singles, j.run.status = .ok 1) ∧
      List.Forall₂ (fun j document =>
        ∃ answer, Encode.Answers spaced document answer ∧ j.run.Gives answer) singles documents ∧
      ∀ options t note, .note note ∈ (encode options t).events → note.message.Spellable := by
  obtain ⟨answers, ha⟩ := Encode.exists_answers spaced documents
  obtain ⟨hprinted, hstatus⟩ := h.answered ha
  have hgives : List.Forall₂ Ending.Gives (singles.map run) answers := by
    rw [List.forall₂_map_left_iff]
    exact Checks.forall₂_trans (fun j document answer hj howed => hj.gives howed) hs ha
  refine ⟨?_, ?_, ?_, ?_, fun _ _ _ => encode_spellable⟩
  · rw [hprinted, ← Ending.flatMap_printed hgives, List.flatMap_map]
  · rw [hstatus]
    cases answers.any Answer.refused with
    | false => exact .inl rfl
    | true => exact .inr rfl
  · have hany := Ending.exists_refused_iff hgives
    simp only [List.mem_map, exists_exists_and_eq_and] at hany
    rw [hany, hstatus]
    cases answers.any Answer.refused <;> simp [statusOf]
  · apply hs.imp
    intro j document hj
    obtain ⟨answer, howed⟩ := Encode.Answers.exists spaced document
    exact ⟨answer, howed, hj.gives howed⟩

/-- An encode run on an array of documents, with nothing configured. -/
def unconfiguredArray (documents : List Json) : Invocation :=
  { unconfigured [] with
    arguments := [text "encode", (Json.array documents).write Json.oneLine] }

theorem encodesArray_unconfigured {documents : List Json} (hplain : Json.Plain (.array documents))
    (hp : parse (unconfiguredArray documents).arguments =
      .request ⟨.encode, [], some ((Json.array documents).write Json.oneLine)⟩)
    (ht : (unconfiguredArray documents).TakesAnswers (Encode.Answers false) documents) :
    (unconfiguredArray documents).EncodesArray false documents := by
  have hready : (unconfiguredArray documents).Ready [] := (ready_unconfigured []).congr rfl rfl
  exact .of hp rfl rfl (Json.read_write Json.spacious_oneLine hplain) (hready.quiet _) ht

/-- A number, which is no document, between two packets. -/
theorem run_eq_each_of_three_documents :
    let request : Json := .object [(text "command", .int 1), (text "version", .int 2)]
    let response : Json := .object [(text "command", .string "response"), (text "version", .int 1)]
    let documents := [request, .int 7, response]
    let i := unconfiguredArray documents
    let singles := documents.map fun document => unconfiguredArray [document]
    i.EncodesArray false documents ∧
      List.Forall₂ (fun j document => j.EncodesArray false [document]) singles documents ∧
      i.run.outlets.printed = singles.flatMap (·.run.outlets.printed) ∧
      (i.run.status = .ok 0 ∨ i.run.status = .ok 1) ∧
      (i.run.status = .ok 1 ↔ ∃ j ∈ singles, j.run.status = .ok 1) ∧
      List.Forall₂ (fun j document =>
        ∃ answer, Encode.Answers false document answer ∧ j.run.Gives answer) singles documents ∧
      ∀ options t note, .note note ∈ (encode options t).events → note.message.Spellable := by
  intro request response documents i singles
  have hplain : Json.Plain (.array documents) := by
    simp only [documents, request, response, Json.Plain, Json.PlainItems, Json.PlainMembers]
    decide
  have hsingle : ∀ document ∈ documents, Json.Plain (.array [document]) := by
    intro document hm
    rw [Json.Plain, Json.plainItems_iff] at hplain ⊢
    exact List.forall_mem_singleton.mpr (hplain document hm)
  have hprinted : (unconfigured []).outside.Takes .stdout
      (Event.contents (Encode.encodeAll ⟨false, false⟩ documents).1) := by decide
  have htakes : i.TakesAnswers (Encode.Answers false) documents :=
    takesAnswers_of_encodeAll hprinted
  have hi : i.EncodesArray false documents := encodesArray_unconfigured hplain rfl htakes
  have hone (document : Json) (hm : document ∈ documents)
      (hp : parse (unconfiguredArray [document]).arguments =
        .request ⟨.encode, [], some ((Json.array [document]).write Json.oneLine)⟩) :
      (unconfiguredArray [document]).EncodesArray false [document] :=
    encodesArray_unconfigured (hsingle document hm) hp
      (List.forall_mem_singleton.mpr (htakes document hm))
  have hs : List.Forall₂ (fun j document => j.EncodesArray false [document]) singles documents :=
    .cons (hone request (by simp [documents]) rfl)
      (.cons (hone (.int 7) (by simp [documents]) rfl)
        (.cons (hone response (by simp [documents]) rfl) .nil))
  exact ⟨hi, hs, hi.run_eq_each hs⟩

end Invocation

end RipWire.CommandLine
