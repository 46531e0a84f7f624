import RipWire.Proofs.CommandLine.Decoding

/-!
# Isolation of payloads

A decode run with a working log answers every payload exactly when none of them
is marked twice and standard output takes the answers. At the first payload that
is marked twice, it breaks off, with the answers before it printed and no status.
-/

namespace RipWire.CommandLine

open Decode (Answer Answers)
open Payload (MarkedTwice)

namespace Invocation

/-- The payloads of a request: its operand, or else the lines of standard input. Without either
there are none to decode, and the usage is shown. -/
def payloads? (i : Invocation) (request : Request) : Option (List Text) :=
  match request.operand, i.input with
  | some payload, _ => some [payload]
  | none, some input => some (Decode.payloads input)
  | none, none => none

/-- Every payload is answered, in order, and the status tells whether one was refused. -/
def Isolates (i : Invocation) (request : Request) (payloads : List Text) : Prop :=
  ∃ answers, List.Forall₂ (Answers (.indent ∈ request.switches)) payloads answers ∧
    (i.runDecode request).outlets.printed = answers.flatMap Answer.output ∧
    (i.runDecode request).status = .ok (statusOf (answers.any Answer.refused))

/-- Some payloads are answered, in order, and then the letter of a radix mark is met where a digit
is due. -/
def BreaksOff (i : Invocation) (request : Request) (answered : List Text) : Prop :=
  ∃ answers, List.Forall₂ (Answers (.indent ∈ request.switches)) answered answers ∧
    (i.runDecode request).outlets.printed = answers.flatMap Answer.output ∧
    (i.runDecode request).status = .error (.fault (.hexDigit 1))

theorem runDecode_eq {i : Invocation} {request : Request} {payloads : List Text}
    (hp : i.payloads? request = some payloads) :
    i.runDecode request = i.configured request.switches fun settings =>
      decode ⟨.indent ∈ request.switches, (settings .traceback).isOn⟩ payloads := by
  unfold payloads? at hp
  unfold runDecode
  cases ho : request.operand with
  | some payload =>
      rw [ho] at hp
      cases hp
      rfl
  | none =>
      rw [ho] at hp
      cases hi : i.input with
      | some input =>
          rw [hi] at hp
          cases hp
          rfl
      | none =>
          rw [hi] at hp
          cases hp

theorem exists_answers (indented : Bool) (payloads : List Text) :
    ∃ answers, List.Forall₂ (Answers indented) payloads answers :=
  Checks.exists_forall₂ fun payload _ => Answers.exists indented payload

theorem takesAnswers_of_decodeAll {i : Invocation} {options : DecodeOptions}
    {payloads : List Text} (hm : ∀ payload ∈ payloads, ¬ MarkedTwice payload)
    (ht : i.outside.Takes .stdout (Event.contents (Decode.decodeAll options payloads).1)) :
    i.TakesAnswers (Answers options.indented) payloads := by
  obtain ⟨answers, ha⟩ := exists_answers options.indented payloads
  rw [(Decode.decodeAll_of_answers ha hm).1] at ht
  exact takesAnswers_of_takes ha (fun _ _ _ => Answers.unique) ht

variable {i : Invocation} {request : Request} {payloads : List Text}
  (hr : i.Ready request.switches) (hp : i.payloads? request = some payloads)

include hr hp

/-- A ready run is the decoding of its payloads: it prints and ends as that does if all of its texts
can be printed, and if it ends with a status then so does that. -/
theorem runDecode_course :
    ∃ options : DecodeOptions, options.indented = decide (.indent ∈ request.switches) ∧
      (i.outside.Takes .stdout (Event.contents (Decode.decodeAll options payloads).1) →
        (i.runDecode request).outlets.printed =
            (Event.contents (Decode.decodeAll options payloads).1).flatten ∧
          (i.runDecode request).status =
            ((Decode.decodeAll options payloads).2.map statusOf).mapError .fault) ∧
      ∀ status, (i.runDecode request).status = .ok status →
        (Decode.decodeAll options payloads).2.map statusOf = .ok status ∧
          i.outside.Takes .stdout (Event.contents (Decode.decodeAll options payloads).1) := by
  obtain ⟨settings, log, outlets, hprepared⟩ := hr
  refine ⟨⟨.indent ∈ request.switches, (settings .traceback).isOn⟩, rfl, ?_⟩
  rw [runDecode_eq hp, hprepared.configured_eq, ← (of_start hprepared.starts).2]
  refine ⟨?_, fun status => perform_ok⟩
  rw [(of_start hprepared.starts).2]
  exact fun ht => hprepared.perform_eq ht

theorem isolates_of_not_marked (hm : ∀ payload ∈ payloads, ¬ MarkedTwice payload)
    (ht : i.TakesAnswers (Answers (.indent ∈ request.switches)) payloads) :
    i.Isolates request payloads := by
  obtain ⟨options, hindented, hcourse, -⟩ := runDecode_course hr hp
  obtain ⟨answers, ha⟩ := exists_answers (.indent ∈ request.switches) payloads
  have htakes := TakesAnswers.takes ha ht
  rw [← hindented] at ha
  obtain ⟨hcontents, hresult⟩ := Decode.decodeAll_of_answers ha hm
  rw [hcontents] at hcourse
  obtain ⟨hout, hstatus⟩ := hcourse htakes
  rw [hindented] at ha
  refine ⟨answers, ha, hout, ?_⟩
  rw [hstatus, hresult]
  rfl

theorem not_marked_of_isolates (h : i.Isolates request payloads) :
    (∀ payload ∈ payloads, ¬ MarkedTwice payload) ∧
      i.TakesAnswers (Answers (.indent ∈ request.switches)) payloads := by
  obtain ⟨options, hindented, -, hcourse⟩ := runDecode_course hr hp
  obtain ⟨answers, -, -, hstatus⟩ := h
  obtain ⟨hstatus, htakes⟩ := hcourse _ hstatus
  obtain ⟨refused, hresult, -⟩ := Checks.map_ok_iff.mp hstatus
  have hm := Decode.not_marked_of_decodeAll hresult
  rw [← hindented]
  exact ⟨hm, takesAnswers_of_decodeAll hm htakes⟩

theorem breaksOff_of_marked {before after : List Text} {payload : Text}
    (hs : payloads = before ++ payload :: after)
    (hbefore : ∀ earlier ∈ before, ¬ MarkedTwice earlier) (hm : MarkedTwice payload)
    (ht : i.TakesAnswers (Answers (.indent ∈ request.switches)) before) :
    i.BreaksOff request before := by
  obtain ⟨options, hindented, hcourse, -⟩ := runDecode_course hr hp
  obtain ⟨answers, ha⟩ := exists_answers (.indent ∈ request.switches) before
  have htakes := TakesAnswers.takes ha ht
  rw [← hindented] at ha
  obtain ⟨hcontents, hresult⟩ := Decode.decodeAll_append ha hbefore (payload :: after)
  rw [← hs, Decode.decodeAll_of_marked hm] at hcontents hresult
  rw [hcontents, Event.contents, List.filterMap_nil, List.append_nil] at hcourse
  obtain ⟨hout, hstatus⟩ := hcourse htakes
  rw [hindented] at ha
  refine ⟨answers, ha, hout, ?_⟩
  rw [hstatus, hresult]
  rfl

/-- A ready run answers all of its payloads exactly when none of them is marked twice and standard
output takes the answers that they are owed. The first that is marked twice is where it breaks off.
Nothing that the log is told can stop it either. -/
theorem runDecode_isolates_iff :
    (∀ payload, ∃! answer, Answers (.indent ∈ request.switches) payload answer) ∧
      (i.Isolates request payloads ↔
        (∀ payload ∈ payloads, ¬ MarkedTwice payload) ∧
          i.TakesAnswers (Answers (.indent ∈ request.switches)) payloads) ∧
      (∀ before payload after, payloads = before ++ payload :: after →
        (∀ earlier ∈ before, ¬ MarkedTwice earlier) → MarkedTwice payload →
          i.TakesAnswers (Answers (.indent ∈ request.switches)) before →
            i.BreaksOff request before) ∧
      ∀ options note, .note note ∈ (decode options payloads).events → note.message.Spellable := by
  refine ⟨?_, ⟨not_marked_of_isolates hr hp, ?_⟩, ?_, ?_⟩
  · intro payload
    obtain ⟨answer, ha⟩ := Answers.exists (.indent ∈ request.switches) payload
    exact ⟨answer, ha, fun other ho => ho.unique ha⟩
  · rintro ⟨hm, ht⟩
    exact isolates_of_not_marked hr hp hm ht
  · intro before payload after hs hbefore hm ht
    exact breaksOff_of_marked hr hp hs hbefore hm ht
  · intro options note hn
    exact Decode.decodeAll_spellable hn

omit hr hp

/-- A run that reads its payloads from standard input, with nothing configured. -/
def unconfigured (input : Text) : Invocation where
  arguments := [text "decode"]
  input := some input
  sources := ⟨[], none⟩
  files := []
  outside := .utf8 fun _ => none
  stamp := ⟨[], []⟩
  host := ⟨[], [], []⟩

theorem ready_unconfigured (input : Text) : (unconfigured input).Ready [] := by
  refine ⟨_, _, _, ⟨⟨_, rfl, rfl⟩, rfl, ?_⟩⟩
  refine Log.sparesOutput_of_destination ?_
  rintro handler ⟨⟩
  decide

/-- A packet with a carriage return between its digits, a datagram that is cut short and a line
without digits. -/
theorem runDecode_isolates_three_lines :
    (unconfigured (text "02 02\r 00 00\n\n0x0203\r\nrip\n")).Isolates ⟨.decode, [], none⟩
      [text "02 02\r 00 00", text "0x0203", text "rip"] := by
  have hr := ready_unconfigured (text "02 02\r 00 00\n\n0x0203\r\nrip\n")
  have hp : (unconfigured (text "02 02\r 00 00\n\n0x0203\r\nrip\n")).payloads?
      ⟨.decode, [], none⟩ = some [text "02 02\r 00 00", text "0x0203", text "rip"] := rfl
  have hm : ∀ payload ∈ [text "02 02\r 00 00", text "0x0203", text "rip"],
      ¬ MarkedTwice payload := by
    intro payload hm
    rintro ⟨mark, digits, octets, ht, hmark, -⟩
    simp only [List.mem_cons, List.not_mem_nil, or_false] at hm
    rcases hm with rfl | rfl | rfl <;> rcases hmark with rfl | rfl <;> cases ht
  have ht : (unconfigured []).outside.Takes .stdout (Event.contents
      (Decode.decodeAll ⟨false, false⟩ [text "02 02\r 00 00", text "0x0203", text "rip"]).1) := by
    decide
  exact (runDecode_isolates_iff hr hp).2.1.mpr ⟨hm, takesAnswers_of_decodeAll hm ht⟩

theorem runDecode_not_isolates :
    (unconfigured (text "0x0x02010000\n")).Ready [] ∧
      (unconfigured (text "0x0x02010000\n")).payloads? ⟨.decode, [], none⟩ =
        some [text "0x0x02010000"] ∧
      ¬ (unconfigured (text "0x0x02010000\n")).Isolates ⟨.decode, [], none⟩
        [text "0x0x02010000"] := by
  refine ⟨ready_unconfigured _, rfl, ?_⟩
  rintro ⟨answers, -, -, hstatus⟩
  cases hstatus

end Invocation

end RipWire.CommandLine
