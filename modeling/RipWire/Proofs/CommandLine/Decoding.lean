import RipWire.Proofs.CommandLine.Output
import RipWire.Proofs.Datagram.Outcome
import RipWire.Proofs.Octets.Digits

/-!
# Decoding payload by payload

What the decode command owes to a payload depends on that payload alone. It
gives it for one payload after another, until one comes whose digits start with
a second radix mark: there the run ends, with a fault and without a status.
-/

namespace RipWire.CommandLine

open Payload (Denotes MarkedTwice)

namespace Decode

/-- What is printed for a payload, and whether that refuses it. -/
structure Answer where
  output : Text
  refused : Bool

/-- The answer that a payload is owed: the document of its packet, a complaint about the datagram
that it spells, or one about digits that spell none. -/
inductive Answers (indented : Bool) (payload : Text) : Answer → Prop where
  | document {octets : Bytes} {p : Packet} {json : Json} (denoted : Denotes payload octets)
      (parsed : Packet.read octets = .ok p) (shown : p.toJson = .ok json) :
      Answers indented payload
        ⟨json.write (if indented then Json.indented else Json.oneLine) ++ text "\n", false⟩
  | invalidPayload {octets : Bytes} {error : CodecError} (denoted : Denotes payload octets)
      (refused : Packet.read octets = .error (.codec error)) :
      Answers indented payload ⟨text "invalid payload: " ++ error.message ++ text "\n", true⟩
  | invalidHexadecimal (nothing : ¬ ∃ octets, Denotes payload octets) :
      Answers indented payload
        ⟨text "invalid hexadecimal: " ++ payload.take 50 ++ text "\n", true⟩

theorem Answers.unique {indented : Bool} {payload : Text} {answer other : Answer}
    (h : Answers indented payload answer) (ho : Answers indented payload other) :
    answer = other := by
  cases h with
  | document hs hr hj =>
      cases ho with
      | document hs' hr' hj' =>
          cases hs.unique hs'
          cases hr.symm.trans hr'
          cases hj.symm.trans hj'
          rfl
      | invalidPayload hs' hr' =>
          cases hs.unique hs'
          cases hr.symm.trans hr'
      | invalidHexadecimal hn => exact (hn ⟨_, hs⟩).elim
  | invalidPayload hs hr =>
      cases ho with
      | document hs' hr' hj' =>
          cases hs.unique hs'
          cases hr.symm.trans hr'
      | invalidPayload hs' hr' =>
          cases hs.unique hs'
          cases hr.symm.trans hr'
          rfl
      | invalidHexadecimal hn => exact (hn ⟨_, hs⟩).elim
  | invalidHexadecimal hn =>
      cases ho with
      | document hs' hr' hj' => exact (hn ⟨_, hs'⟩).elim
      | invalidPayload hs' hr' => exact (hn ⟨_, hs'⟩).elim
      | invalidHexadecimal hn' => rfl

theorem Answers.exists (indented : Bool) (payload : Text) :
    ∃ answer, Answers indented payload answer := by
  by_cases hs : ∃ octets, Denotes payload octets
  · obtain ⟨octets, hs⟩ := hs
    cases hr : Packet.read octets with
    | ok p =>
        obtain ⟨version, hp⟩ := Packet.read_wellFormed hr
        obtain ⟨json, hj⟩ := hp.toJson_ok
        exact ⟨_, .document hs hr hj⟩
    | error fault =>
        obtain ⟨error, rfl⟩ := Packet.read_error hr
        exact ⟨_, .invalidPayload hs hr⟩
  · exact ⟨_, .invalidHexadecimal hs⟩

/-! ### One payload -/

theorem decodePayload_of_denotes (options : DecodeOptions) {payload : Text} {octets : Bytes}
    (hs : Denotes payload octets) :
    decodePayload options payload = decodeOctets options octets := by
  have hh : Payload.isHex (Payload.normalise payload) = true := Payload.isHex_of_spells hs.1 hs.2
  have hd : Hex.decode (Payload.normalise payload) = .ok octets := Hex.decodeFrom_ok_iff.mpr hs.2
  simp only [decodePayload, hh, hd, Bool.not_true, Bool.false_eq_true, if_false]

theorem decodePayload_of_marked (options : DecodeOptions) {payload : Text}
    (hm : MarkedTwice payload) :
    decodePayload options payload = ([], .error (.hexDigit 1)) := by
  have hh : Payload.isHex (Payload.normalise payload) = true := Payload.Marked.isHex hm
  have hd : Hex.decode (Payload.normalise payload) = .error 1 := Payload.Marked.decode hm
  simp only [decodePayload, hh, hd, Bool.not_true, Bool.false_eq_true, if_false]

theorem decodePayload_of_nothing (options : DecodeOptions) {payload : Text}
    (hn : ¬ ∃ octets, Denotes payload octets) (hm : ¬ MarkedTwice payload) :
    decodePayload options payload = ([invalidHexadecimal payload], .ok true) := by
  have hh : ¬ Payload.isHex (Payload.normalise payload) = true := by
    intro h
    rcases Payload.isHex_cases h with hs | h
    · exact hn hs
    · exact hm h
  simp only [decodePayload, hh, Bool.not_false, if_true]

theorem contents_complaint (title heading : Text) (traced : Bool) (fault : Fault) :
    Event.contents (complaint title heading traced fault) =
      [heading ++ text ": " ++ fault.message ++ text "\n"] := by
  cases traced <;> rfl

theorem decodePayload_of_answers {options : DecodeOptions} {payload : Text} {answer : Answer}
    (ha : Answers options.indented payload answer) (hm : ¬ MarkedTwice payload) :
    Event.contents (decodePayload options payload).1 = [answer.output] ∧
      (decodePayload options payload).2 = .ok answer.refused := by
  cases ha with
  | document hs hr hj =>
      rw [decodePayload_of_denotes options hs]
      simp only [decodeOctets, hr, document, hj, Except.map, Event.contents_append,
        Event.contents_notes, List.nil_append]
      exact ⟨rfl, trivial⟩
  | invalidPayload hs hr =>
      rw [decodePayload_of_denotes options hs]
      simp only [decodeOctets, hr, Event.contents_append, Event.contents_notes, List.nil_append,
        contents_complaint]
      exact ⟨rfl, trivial⟩
  | invalidHexadecimal hn =>
      rw [decodePayload_of_nothing options hn hm]
      exact ⟨rfl, rfl⟩

theorem complaint_spellable {title heading : Text} {traced : Bool} {fault : Fault}
    {note : Log.Note} (hn : .note note ∈ complaint title heading traced fault) :
    note.message.Spellable := by
  have hnote : note = ⟨.error, .cli, .ofFault title fault⟩ := by
    cases traced <;> simpa [complaint] using hn
  rw [hnote]
  exact ⟨_, rfl⟩

theorem decodeOctets_spellable {options : DecodeOptions} {octets : Bytes} {note : Log.Note}
    (hn : .note note ∈ (decodeOctets options octets).1) : note.message.Spellable := by
  have hread : .note note ∈ (Packet.readNotes octets).map Event.note →
      note.message.Spellable := by
    intro h
    obtain ⟨other, hm, he⟩ := List.mem_map.mp h
    cases he
    exact Packet.readNotes_spellable octets note hm
  cases hr : Packet.read octets with
  | ok p =>
      cases hd : document options.indented p with
      | ok shown =>
          simp only [decodeOctets, hr, hd, List.mem_append, List.mem_singleton, reduceCtorEq,
            or_false] at hn
          exact hread hn
      | error fault =>
          simp only [decodeOctets, hr, hd] at hn
          exact hread hn
  | error fault =>
      obtain ⟨error, rfl⟩ := Packet.read_error hr
      simp only [decodeOctets, hr, List.mem_append] at hn
      exact hn.elim hread complaint_spellable

theorem decodePayload_spellable {options : DecodeOptions} {payload : Text} {note : Log.Note}
    (hn : .note note ∈ (decodePayload options payload).1) : note.message.Spellable := by
  by_cases hm : MarkedTwice payload
  · rw [decodePayload_of_marked options hm] at hn
    exact (List.not_mem_nil hn).elim
  by_cases hs : ∃ octets, Denotes payload octets
  · obtain ⟨octets, hs⟩ := hs
    rw [decodePayload_of_denotes options hs] at hn
    exact decodeOctets_spellable hn
  · rw [decodePayload_of_nothing options hs hm] at hn
    simp [invalidHexadecimal] at hn

/-! ### One payload after another -/

theorem decodeAll_append {options : DecodeOptions} {before : List Text} {answers : List Answer}
    (ha : List.Forall₂ (Answers options.indented) before answers)
    (hm : ∀ payload ∈ before, ¬ MarkedTwice payload) (rest : List Text) :
    Event.contents (decodeAll options (before ++ rest)).1 =
        answers.map Answer.output ++ Event.contents (decodeAll options rest).1 ∧
      (decodeAll options (before ++ rest)).2 =
        (decodeAll options rest).2.map (answers.any Answer.refused || ·) := by
  -- The rest stays arbitrary: it may be empty, or start with a payload that ends everything.
  induction ha with
  | nil =>
      refine ⟨rfl, ?_⟩
      rw [List.nil_append]
      cases (decodeAll options rest).2 <;> rfl
  | @cons payload answer before answers hanswer ha ih =>
      obtain ⟨hpayload, hbefore⟩ := List.forall_mem_cons.mp hm
      obtain ⟨hcontents, hresult⟩ := decodePayload_of_answers hanswer hpayload
      obtain ⟨ihcontents, ihresult⟩ := ih hbefore
      cases hd : decodePayload options payload with
      | mk events result =>
          rw [hd] at hcontents hresult
          cases hresult
          simp only [List.cons_append, decodeAll, hd, Event.contents_append, hcontents, ihcontents,
            ihresult, List.map_cons, List.any_cons, List.nil_append]
          refine ⟨trivial, ?_⟩
          cases (decodeAll options rest).2 with
          | error fault => rfl
          | ok refused => simp [Except.map, Bool.or_assoc]

theorem decodeAll_of_answers {options : DecodeOptions} {payloads : List Text}
    {answers : List Answer} (ha : List.Forall₂ (Answers options.indented) payloads answers)
    (hm : ∀ payload ∈ payloads, ¬ MarkedTwice payload) :
    Event.contents (decodeAll options payloads).1 = answers.map Answer.output ∧
      (decodeAll options payloads).2 = .ok (answers.any Answer.refused) := by
  have h := decodeAll_append ha hm []
  rw [List.append_nil] at h
  simpa [decodeAll, Except.map, Event.contents] using h

theorem decodeAll_of_marked {options : DecodeOptions} {payload : Text} (hm : MarkedTwice payload)
    (rest : List Text) : decodeAll options (payload :: rest) = ([], .error (.hexDigit 1)) := by
  simp only [decodeAll, decodePayload_of_marked options hm]

theorem not_marked_of_decodeAll {options : DecodeOptions} {payloads : List Text} {refused : Bool}
    (h : (decodeAll options payloads).2 = .ok refused) :
    ∀ payload ∈ payloads, ¬ MarkedTwice payload := by
  induction payloads generalizing refused with
  | nil => simp
  | cons payload rest ih =>
      have hm : ¬ MarkedTwice payload := by
        intro hm
        rw [decodeAll_of_marked hm] at h
        cases h
      refine List.forall_mem_cons.mpr ⟨hm, ?_⟩
      obtain ⟨answer, ha⟩ := Answers.exists options.indented payload
      have happ := (decodeAll_append (.cons ha .nil) (by simpa using hm) rest).2
      rw [List.singleton_append, h] at happ
      cases hr : (decodeAll options rest).2 with
      | error fault => simp [hr, Except.map] at happ
      | ok more => exact ih hr

theorem decodeAll_spellable {options : DecodeOptions} {payloads : List Text} {note : Log.Note}
    (hn : .note note ∈ (decodeAll options payloads).1) : note.message.Spellable := by
  induction payloads with
  | nil => exact (List.not_mem_nil hn).elim
  | cons payload rest ih =>
      have hfirst : .note note ∈ (decodePayload options payload).1 → note.message.Spellable :=
        decodePayload_spellable
      cases hd : decodePayload options payload with
      | mk events result =>
          rw [hd] at hfirst
          cases result with
          | error fault =>
              simp only [decodeAll, hd] at hn
              exact hfirst hn
          | ok refused =>
              simp only [decodeAll, hd, List.mem_append] at hn
              exact hn.elim hfirst ih

end Decode

/-- Standard output takes every answer that is owed to some items. -/
def Invocation.TakesAnswers {Item : Type} (i : Invocation)
    (Owed : Item → Decode.Answer → Prop) (items : List Item) : Prop :=
  ∀ item ∈ items, ∀ answer, Owed item answer → i.outside.refusal .stdout answer.output = none

section TakesAnswers

variable {Item : Type} {i : Invocation} {Owed : Item → Decode.Answer → Prop} {items : List Item}
  {answers : List Decode.Answer} (ha : List.Forall₂ Owed items answers)

include ha

theorem Invocation.TakesAnswers.takes (h : i.TakesAnswers Owed items) :
    i.outside.Takes .stdout (answers.map Decode.Answer.output) := by
  induction ha with
  | nil => exact List.forall_mem_nil _
  | cons hfirst _ ih =>
      obtain ⟨hitem, hmore⟩ := List.forall_mem_cons.mp h
      exact List.forall_mem_cons.mpr ⟨hitem _ hfirst, ih hmore⟩

theorem Invocation.takesAnswers_of_takes
    (hunique : ∀ item answer other, Owed item answer → Owed item other → answer = other)
    (h : i.outside.Takes .stdout (answers.map Decode.Answer.output)) :
    i.TakesAnswers Owed items := by
  induction ha with
  | nil => exact List.forall_mem_nil _
  | cons hfirst _ ih =>
      obtain ⟨hitem, hmore⟩ := List.forall_mem_cons.mp h
      refine List.forall_mem_cons.mpr ⟨?_, ih hmore⟩
      intro answer howed
      rw [hunique _ _ _ howed hfirst]
      exact hitem

end TakesAnswers

end RipWire.CommandLine
