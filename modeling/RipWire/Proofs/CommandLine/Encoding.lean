import RipWire.Proofs.CommandLine.Decoding
import RipWire.Proofs.Datagram.Complaints
import RipWire.Proofs.Datagram.Document
import RipWire.Proofs.Datagram.RoundTrip

/-!
# Encoding document by document

What the encode command owes to a document depends on that document alone, and it
gives it for one document after another. The document of a well-formed packet is
encoded as the octets of the packet.
-/

namespace RipWire.CommandLine

open Decode (Answer)

namespace Encode

/-- The answer that a document is owed: the octets that are sent for its packet, or a complaint
about it. -/
inductive Answers (spaced : Bool) (document : Json) : Answer → Prop where
  | packet {p : Packet} {octets : Bytes} (made : Packet.ofJson document = .ok p)
      (sent : Packet.write (.packet p) = .ok octets) :
      Answers spaced document ⟨shown spaced octets, false⟩
  | refusal {fault : Fault} (refused : Packet.ofJson document = .error fault) :
      Answers spaced document ⟨text "invalid packet: " ++ fault.message ++ text "\n", true⟩

theorem write_of_ofJson {document : Json} {p : Packet} (h : Packet.ofJson document = .ok p) :
    Packet.write (.packet p) = .ok p.octets := by
  obtain ⟨version, hp⟩ := Packet.ofDocument_wellFormed h
  exact Packet.write_of_wellFormed hp

theorem Answers.exists (spaced : Bool) (document : Json) :
    ∃ answer, Answers spaced document answer := by
  cases h : Packet.ofJson document with
  | ok p => exact ⟨_, .packet h (write_of_ofJson h)⟩
  | error fault => exact ⟨_, .refusal h⟩

theorem Answers.unique {spaced : Bool} {document : Json} {answer other : Answer}
    (h : Answers spaced document answer) (ho : Answers spaced document other) :
    answer = other := by
  cases h with
  | packet hmade hsent =>
      cases ho with
      | packet hmade' hsent' =>
          cases hmade.symm.trans hmade'
          cases hsent.symm.trans hsent'
          rfl
      | refusal hrefused' => cases hmade.symm.trans hrefused'
  | refusal hrefused =>
      cases ho with
      | packet hmade' hsent' => cases hrefused.symm.trans hmade'
      | refusal hrefused' =>
          cases hrefused.symm.trans hrefused'
          rfl

theorem exists_answers (spaced : Bool) (documents : List Json) :
    ∃ answers, List.Forall₂ (Answers spaced) documents answers :=
  Checks.exists_forall₂ fun document _ => Answers.exists spaced document

theorem encodeDocument_of_answers {options : EncodeOptions} {document : Json} {answer : Answer}
    (h : Answers options.spaced document answer) :
    Event.contents (encodeDocument options document).1 = [answer.output] ∧
      (encodeDocument options document).2 = .ok answer.refused := by
  cases h with
  | packet made sent =>
      simp only [encodeDocument, packed, made, sent, bind, Except.bind, Event.contents_append,
        Event.contents_notes, List.nil_append]
      exact ⟨rfl, trivial⟩
  | @refusal fault refused =>
      have hhandled := (Packet.reported_ofJson refused).handled
      simp only [encodeDocument, packed, refused, bind, Except.bind, Decode.contents_complaint]
      exact ⟨rfl, trivial⟩

theorem encodeAll_of_answers {options : EncodeOptions} {documents : List Json}
    {answers : List Answer} (h : List.Forall₂ (Answers options.spaced) documents answers) :
    Event.contents (encodeAll options documents).1 = answers.map Answer.output ∧
      (encodeAll options documents).2 = .ok (answers.any Answer.refused) := by
  induction h with
  | nil => exact ⟨rfl, rfl⟩
  | @cons document answer documents answers hfirst _ ih =>
      obtain ⟨hcontents, hresult⟩ := encodeDocument_of_answers hfirst
      obtain ⟨ihcontents, ihresult⟩ := ih
      cases hd : encodeDocument options document with
      | mk events result =>
          rw [hd] at hcontents hresult
          cases hresult
          simp only [encodeAll, hd, Event.contents_append, hcontents, ihcontents, ihresult,
            List.map_cons, List.any_cons, List.singleton_append]
          exact ⟨trivial, rfl⟩

/-! ### What the log is told -/

theorem encodeDocument_spellable {options : EncodeOptions} {document : Json} {note : Log.Note}
    (hn : .note note ∈ (encodeDocument options document).1) : note.message.Spellable := by
  unfold encodeDocument at hn
  cases hp : packed document with
  | ok result =>
      simp only [hp, List.mem_append, List.mem_singleton, reduceCtorEq, or_false] at hn
      obtain ⟨other, hm, he⟩ := List.mem_map.mp hn
      cases he
      exact Packet.writeNotes_spellable _ note hm
  | error fault =>
      rw [hp] at hn
      cases hc : fault.faultClass with
      | other => simp [hc] at hn
      | _ =>
          simp only [hc] at hn
          exact Decode.complaint_spellable hn

theorem encodeAll_spellable {options : EncodeOptions} {documents : List Json} {note : Log.Note}
    (hn : .note note ∈ (encodeAll options documents).1) : note.message.Spellable := by
  induction documents with
  | nil => exact (List.not_mem_nil hn).elim
  | cons document rest ih =>
      have hfirst : .note note ∈ (encodeDocument options document).1 → note.message.Spellable :=
        encodeDocument_spellable
      cases hd : encodeDocument options document with
      | mk events result =>
          rw [hd] at hfirst
          cases result with
          | error fault =>
              simp only [encodeAll, hd] at hn
              exact hfirst hn
          | ok refused =>
              simp only [encodeAll, hd, List.mem_append] at hn
              exact hn.elim hfirst ih

/-! ### Accepted documents -/

/-- A document that is accepted, as the description of a packet. -/
def Accepts (document : Json) (p : Packet) : Prop :=
  Packet.ofJson document = .ok p

/-- The answer to a document that describes a packet. -/
def sentAs (spaced : Bool) (p : Packet) : Answer :=
  ⟨shown spaced p.octets, false⟩

theorem Accepts.wellFormed {document : Json} {p : Packet} (h : Accepts document p) :
    ∃ version, p.WellFormed version :=
  Packet.ofDocument_wellFormed h

theorem answers_sentAs (spaced : Bool) {documents : List Json} {packets : List Packet}
    (h : List.Forall₂ Accepts documents packets) :
    List.Forall₂ (Answers spaced) documents (packets.map (sentAs spaced)) := by
  rw [List.forall₂_map_right_iff]
  exact h.imp fun _ _ hmade => .packet hmade (write_of_ofJson hmade)

/-- A document that a well-formed packet is shown as. -/
def Shows (p : Packet) (document : Json) : Prop :=
  (∃ version, p.WellFormed version) ∧ p.toJson = .ok document

theorem exists_shows {packets : List Packet} (h : ∀ p ∈ packets, ∃ version, p.WellFormed version) :
    ∃ documents, List.Forall₂ Shows packets documents := by
  refine Checks.exists_forall₂ fun p hm => ?_
  obtain ⟨version, hp⟩ := h p hm
  obtain ⟨document, hj, -⟩ := hp.document
  exact ⟨document, ⟨version, hp⟩, hj⟩

theorem Shows.accepts {p : Packet} {document : Json} (h : Shows p document) :
    Accepts document p := by
  obtain ⟨⟨version, hp⟩, hj⟩ := h
  obtain ⟨other, hother, hback⟩ := hp.document
  cases hj.symm.trans hother
  exact hback

end Encode

theorem encode_spellable {options : EncodeOptions} {t : Text} {note : Log.Note}
    (hn : .note note ∈ (encode options t).events) : note.message.Spellable := by
  unfold encode at hn
  cases hd : Json.documents t with
  | error reason => simp [hd] at hn
  | ok documents =>
      rw [hd] at hn
      exact Encode.encodeAll_spellable hn

namespace Invocation

/-- The text that holds the documents of a request: its operand, or else standard input. Without
either there is none to encode, and the usage is shown. -/
def described? (i : Invocation) (request : Request) : Option Text :=
  match request.operand, i.input with
  | some t, _ => some t
  | none, some input => some input
  | none, none => none

/-- What an encode run does with the text that holds its documents. -/
def encodingOf (switches : List Switch) (t : Text) (settings : Settings) : Course :=
  encode ⟨.spaced ∈ switches, (settings .traceback).isOn⟩ t

theorem runEncode_eq {i : Invocation} {request : Request} {t : Text}
    (ht : i.described? request = some t) :
    i.runEncode request = i.configured request.switches (encodingOf request.switches t) := by
  unfold described? at ht
  unfold runEncode
  cases ho : request.operand with
  | some operand =>
      rw [ho] at ht
      cases ht
      rfl
  | none =>
      rw [ho] at ht
      cases hi : i.input with
      | some input =>
          rw [hi] at ht
          cases ht
          rfl
      | none =>
          rw [hi] at ht
          cases ht

theorem takesAnswers_of_encodeAll {i : Invocation} {options : EncodeOptions}
    {documents : List Json}
    (ht : i.outside.Takes .stdout (Event.contents (Encode.encodeAll options documents).1)) :
    i.TakesAnswers (Encode.Answers options.spaced) documents := by
  obtain ⟨answers, ha⟩ := Encode.exists_answers options.spaced documents
  rw [(Encode.encodeAll_of_answers ha).1] at ht
  exact takesAnswers_of_takes ha (fun _ _ _ => Encode.Answers.unique) ht

section Quiet

variable {i : Invocation} {request : Request} {t : Text} {documents : List Json}
  (ht : i.described? request = some t)
  (hq : i.Quiet request.switches (encodingOf request.switches t))
  (hd : Json.documents t = .ok documents)

include ht hq hd

theorem runEncode_of_answers {answers : List Answer}
    (ha : List.Forall₂ (Encode.Answers (.spaced ∈ request.switches)) documents answers)
    (htakes : i.outside.Takes .stdout (answers.map Answer.output)) :
    (i.runEncode request).outlets.printed = answers.flatMap Answer.output ∧
      (i.runEncode request).status = .ok (statusOf (answers.any Answer.refused)) := by
  obtain ⟨settings, hconfigured⟩ := hq.configured_eq
  let options : EncodeOptions := ⟨.spaced ∈ request.switches, (settings .traceback).isOn⟩
  have hspaced : List.Forall₂ (Encode.Answers options.spaced) documents answers := ha
  obtain ⟨hcontents, hresult⟩ := Encode.encodeAll_of_answers hspaced
  have hcourse : encodingOf request.switches t settings =
      ⟨(Encode.encodeAll options documents).1,
        .ok (statusOf (answers.any Answer.refused))⟩ := by
    simp only [encodingOf, encode, hd]
    rw [hresult]
    rfl
  rw [hcourse, hcontents] at hconfigured
  rw [runEncode_eq ht, List.flatMap_def]
  exact hconfigured htakes

theorem runEncode_of_accepts {packets : List Packet}
    (hp : List.Forall₂ Encode.Accepts documents packets)
    (htakes : i.outside.Takes .stdout
      (packets.map fun p => Encode.shown (.spaced ∈ request.switches) p.octets)) :
    (i.runEncode request).outlets.printed =
        packets.flatMap (fun p => Encode.shown (.spaced ∈ request.switches) p.octets) ∧
      (i.runEncode request).status = .ok 0 := by
  have hanswers := Encode.answers_sentAs (.spaced ∈ request.switches) hp
  have houtputs : (packets.map (Encode.sentAs (.spaced ∈ request.switches))).map Answer.output =
      packets.map fun p => Encode.shown (.spaced ∈ request.switches) p.octets :=
    List.map_map
  rw [← houtputs] at htakes
  obtain ⟨hprinted, hstatus⟩ := runEncode_of_answers ht hq hd hanswers htakes
  constructor
  · rw [hprinted, List.flatMap_map]
    rfl
  · rw [hstatus]
    simp [Encode.sentAs, statusOf]

end Quiet

end Invocation

end RipWire.CommandLine
