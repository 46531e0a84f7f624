import RipWire.Proofs.CommandLine.Encoding
import RipWire.Proofs.CommandLine.Isolation
import RipWire.Proofs.CommandLine.Switches

/-!
# The output with the log aside

Two runs of one command on one input print the same and end alike, whatever they are told
about their logs, as long as neither of them writes its log to standard output, under its own
name or as a file. What a course prints does not depend on the log, and the switches for the
log and for traces change nothing but what is noted and traced.
-/

namespace RipWire

namespace Log

theorem sparesOutput_of_start {settings : Settings} {outlets started : Outlets} {log : Log}
    (hd : Destination.ofText? outlets.outside.opens (settings .destination).display ≠
      some .stdout)
    (h : silent.start settings outlets = (log, started, .ok ())) : log.SparesOutput := by
  apply sparesOutput_of_destination
  intro handler hh
  by_cases he : (settings .enable).isOn = true
  · obtain ⟨destination, hstarted⟩ := started_of_start he h
    rw [hstarted.handler] at hh
    cases hh
    intro hstdout
    rw [hstarted.resolved] at hd
    exact hd (congrArg some hstdout)
  · rw [start, if_neg he] at h
    cases h
    cases hh

end Log

namespace CommandLine

namespace Event

/-- Events with a result, of which others have the printed texts and the result in common. -/
def Alike {Result : Type} (one two : List Event × Result) : Prop :=
  contents one.1 = contents two.1 ∧ one.2 = two.2

/-- What is done first, and then the rest, unless there is a fault in front of it. -/
def andThen (first rest : List Event × Except Fault Bool) : List Event × Except Fault Bool :=
  match first with
  | (events, .error fault) => (events, .error fault)
  | (events, .ok refused) => (events ++ rest.1, rest.2.map (refused || ·))

theorem Alike.andThen {first other rest others : List Event × Except Fault Bool}
    (h : Alike first other) (hrest : Alike rest others) :
    Alike (Event.andThen first rest) (Event.andThen other others) := by
  obtain ⟨events, result⟩ := first
  obtain ⟨events', result'⟩ := other
  obtain ⟨hcontents, rfl⟩ := h
  cases result with
  | error fault => exact ⟨hcontents, rfl⟩
  | ok refused =>
      refine ⟨?_, ?_⟩
      · simp only [Event.andThen, contents_append]
        rw [hcontents, hrest.1]
      · simp only [Event.andThen]
        rw [hrest.2]

end Event

/-! ### Traces do not matter -/

section Traces

variable (shape traced other : Bool)

theorem decodeOctets_alike (octets : Bytes) :
    Event.Alike (Decode.decodeOctets ⟨shape, traced⟩ octets)
      (Decode.decodeOctets ⟨shape, other⟩ octets) := by
  unfold Decode.decodeOctets
  cases Packet.read octets with
  | ok p => exact ⟨rfl, rfl⟩
  | error fault =>
      cases fault with
      | codec error =>
          refine ⟨?_, rfl⟩
          simp only [Event.contents_append, Decode.contents_complaint]
      | _ => exact ⟨rfl, rfl⟩

theorem decodePayload_alike (payload : Text) :
    Event.Alike (Decode.decodePayload ⟨shape, traced⟩ payload)
      (Decode.decodePayload ⟨shape, other⟩ payload) := by
  by_cases hm : Payload.MarkedTwice payload
  · rw [Decode.decodePayload_of_marked _ hm, Decode.decodePayload_of_marked _ hm]
    exact ⟨rfl, rfl⟩
  by_cases hs : ∃ octets, Payload.Denotes payload octets
  · obtain ⟨octets, hs⟩ := hs
    rw [Decode.decodePayload_of_denotes _ hs, Decode.decodePayload_of_denotes _ hs]
    exact decodeOctets_alike shape traced other octets
  · rw [Decode.decodePayload_of_nothing _ hs hm, Decode.decodePayload_of_nothing _ hs hm]
    exact ⟨rfl, rfl⟩

theorem decodeAll_alike (payloads : List Text) :
    Event.Alike (Decode.decodeAll ⟨shape, traced⟩ payloads)
      (Decode.decodeAll ⟨shape, other⟩ payloads) := by
  induction payloads with
  | nil => exact ⟨rfl, rfl⟩
  | cons payload rest ih => exact (decodePayload_alike shape traced other payload).andThen ih

theorem encodeDocument_alike (document : Json) :
    Event.Alike (Encode.encodeDocument ⟨shape, traced⟩ document)
      (Encode.encodeDocument ⟨shape, other⟩ document) := by
  unfold Encode.encodeDocument
  cases Encode.packed document with
  | ok result => exact ⟨rfl, rfl⟩
  | error fault =>
      cases hc : fault.faultClass with
      | other =>
          simp only [hc]
          exact ⟨rfl, rfl⟩
      | _ =>
          simp only [hc]
          exact ⟨by simp only [Decode.contents_complaint], rfl⟩

theorem encodeAll_alike (documents : List Json) :
    Event.Alike (Encode.encodeAll ⟨shape, traced⟩ documents)
      (Encode.encodeAll ⟨shape, other⟩ documents) := by
  induction documents with
  | nil => exact ⟨rfl, rfl⟩
  | cons document rest ih => exact (encodeDocument_alike shape traced other document).andThen ih

end Traces

/-! ### Runs with their logs elsewhere -/

/-- Requests for one decoding or encoding, which turn on the same switches but for those of the log
and of traces. -/
structure Request.SameWork (request other : Request) : Prop where
  verb : request.verb = other.verb
  works : request.verb = .decode ∨ request.verb = .encode
  operand : request.operand = other.operand
  switches : ∀ s, s ≠ .debug → s ≠ .traceback → (s ∈ request.switches ↔ s ∈ other.switches)

/-- Command lines that ask for the same work, or that are the same and ask for none. -/
inductive Parsed.SameWork : Parsed → Parsed → Prop where
  | request {request other : Request} (same : request.SameWork other) :
      SameWork (.request request) (.request other)
  | none {parsed : Parsed} (idle : ∀ request, parsed ≠ .request request) : SameWork parsed parsed

theorem Parsed.sameWork_preceded {parsed : Parsed} {switches : List Switch}
    (hw : ∀ request, parsed = .request request → request.verb = .decode ∨ request.verb = .encode)
    (hs : ∀ s ∈ switches, s = .debug ∨ s = .traceback) :
    (parsed.preceded switches).SameWork parsed := by
  cases parsed with
  | request request =>
      apply SameWork.request
      refine ⟨rfl, hw request rfl, rfl, ?_⟩
      intro s hdebug htraceback
      have hfront : s ∉ switches := fun hm => (hs s hm).elim hdebug htraceback
      simp [hfront]
  | _ =>
      apply SameWork.none
      intro request h
      cases h

/-- A command line for decoding or encoding asks for the same work with any number of switches for
the log and for traces right behind the command. -/
theorem sameWork_of_spells {verb : Verb} (hv : verb = .decode ∨ verb = .encode)
    {flags : List Text} {switches : List Switch} (h : List.Forall₂ (Spells verb) flags switches)
    (hs : ∀ s ∈ switches, s = .debug ∨ s = .traceback) (rest : List Text) :
    (parse (verb.name :: (flags ++ rest))).SameWork (parse (verb.name :: rest)) := by
  have hhelp : Switch.help ∉ switches := by
    intro hm
    cases hs _ hm with
    | inl h => cases h
    | inr h => cases h
  rw [parse_name_switches h hhelp]
  apply Parsed.sameWork_preceded _ hs
  intro request hrequest
  rw [verb_of_parse_name hrequest]
  exact hv

/-- Courses that print the same texts in the same order, and end alike. -/
structure Course.Alike (course other : Course) : Prop where
  contents : Event.contents course.events = Event.contents other.events
  status : course.status = other.status

/-- Runs that print the same, and end alike. -/
structure Ending.Alike (ending other : Ending) : Prop where
  printed : ending.outlets.printed = other.outlets.printed
  status : ending.status = other.status

theorem decode_alike {options others : DecodeOptions} (h : options.indented = others.indented)
    (payloads : List Text) : (decode options payloads).Alike (decode others payloads) := by
  obtain ⟨shape, traced⟩ := options
  obtain ⟨_, other⟩ := others
  cases h
  obtain ⟨hcontents, hresult⟩ := decodeAll_alike shape traced other payloads
  exact ⟨hcontents, congrArg (Except.map statusOf) hresult⟩

theorem encode_alike {options others : EncodeOptions} (h : options.spaced = others.spaced)
    (t : Text) : (encode options t).Alike (encode others t) := by
  obtain ⟨shape, traced⟩ := options
  obtain ⟨_, other⟩ := others
  cases h
  unfold encode
  cases Json.documents t with
  | error reason => exact ⟨rfl, rfl⟩
  | ok documents =>
      obtain ⟨hcontents, hresult⟩ := encodeAll_alike shape traced other documents
      exact ⟨hcontents, congrArg (Except.map statusOf) hresult⟩

namespace Invocation

/-- The configuration loads, and a log starts of which the destination is not the standard output of
the process, neither by its name nor by a path that leads there. -/
def LogsElsewhere (i : Invocation) (switches : List Switch) : Prop :=
  ∃ configuration log outlets, Configuration.initial.load i.sources = (configuration, .ok ()) ∧
    Log.silent.start (overridden switches configuration.settings) i.outlets =
      (log, outlets, .ok ()) ∧
    Log.Destination.ofText? i.outside.opens (configuration.settings .destination).display ≠
      some .stdout

theorem overridden_destination (switches : List Switch) (settings : Settings) :
    overridden switches settings .destination = settings .destination := by
  unfold overridden
  split <;> split <;> simp [Settings.assign]

theorem LogsElsewhere.ready {i : Invocation} {switches : List Switch}
    (h : i.LogsElsewhere switches) : i.Ready switches := by
  obtain ⟨configuration, log, outlets, hload, hstart, hd⟩ := h
  rw [← overridden_destination switches configuration.settings] at hd
  exact ⟨_, log, outlets, ⟨configuration, hload, rfl⟩, hstart, Log.sparesOutput_of_start hd hstart⟩

section Runs

variable {i j : Invocation} (hw : i.outside.refusal .stdout = j.outside.refusal .stdout)

include hw

theorem perform_alike {log other : Log} {outlets others : Log.Outlets} {course next : Course}
    (hi : outlets.outside = i.outside) (hj : others.outside = j.outside)
    (ho : outlets.printed = others.printed) (h : course.Alike next)
    (hs : log.SparesOutputOn i.stamp course.events)
    (hs' : other.SparesOutputOn j.stamp next.events) :
    (i.perform log outlets course).Alike (j.perform other others next) := by
  obtain ⟨hprinted, hstatus⟩ := perform_contents hs outlets
  obtain ⟨hprinted', hstatus'⟩ := perform_contents hs' others
  constructor
  · rw [hprinted, hprinted', ho, hi, hj, h.contents, Log.Outside.taken, Log.Outside.taken, hw]
  · rw [hstatus, hstatus', hi, hj, hw, h.contents, h.status]

theorem perform_silent_alike {outlets others : Log.Outlets} (hi : outlets.outside = i.outside)
    (hj : others.outside = j.outside) (ho : outlets.printed = others.printed) (course : Course) :
    (i.perform .silent outlets course).Alike (j.perform .silent others course) := by
  have hs : Log.silent.SparesOutput := fun _ _ _ => rfl
  exact perform_alike hw hi hj ho ⟨rfl, rfl⟩ (hs.on _ _) (hs.on _ _)

theorem report_alike (contents : List Text) (status : Nat) :
    (i.report contents status).Alike (j.report contents status) := by
  unfold report
  apply perform_silent_alike hw <;> rfl

theorem configured_alike {switches others : List Switch} {course next : Settings → Course}
    (hi : i.LogsElsewhere switches) (hj : j.LogsElsewhere others)
    (h : ∀ settings different, (course settings).Alike (next different)) :
    (i.configured switches course).Alike (j.configured others next) := by
  obtain ⟨settings, log, outlets, hprepared⟩ := hi.ready
  obtain ⟨different, other, started, hother⟩ := hj.ready
  rw [hprepared.configured_eq, hother.configured_eq]
  obtain ⟨hprinted, houtside⟩ := of_start hprepared.starts
  obtain ⟨hprinted', houtside'⟩ := of_start hother.starts
  exact perform_alike hw houtside houtside' (hprinted.trans hprinted'.symm)
    (h settings different) (hprepared.spares.on _ _) (hother.spares.on _ _)

theorem runDecode_alike {request other : Request} (hsame : request.SameWork other)
    (hin : i.input = j.input) (hi : i.LogsElsewhere request.switches)
    (hj : j.LogsElsewhere other.switches) : (i.runDecode request).Alike (j.runDecode other) := by
  have hindent : decide (.indent ∈ request.switches) = decide (.indent ∈ other.switches) :=
    decide_eq_decide.mpr (hsame.switches .indent (by decide) (by decide))
  unfold runDecode
  rw [hsame.operand, hin]
  cases other.operand with
  | some payload => exact configured_alike hw hi hj fun _ _ => decode_alike hindent _
  | none =>
      cases j.input with
      | some input => exact configured_alike hw hi hj fun _ _ => decode_alike hindent _
      | none => exact report_alike hw _ _

theorem runEncode_alike {request other : Request} (hsame : request.SameWork other)
    (hin : i.input = j.input) (hi : i.LogsElsewhere request.switches)
    (hj : j.LogsElsewhere other.switches) : (i.runEncode request).Alike (j.runEncode other) := by
  have hspaced : decide (.spaced ∈ request.switches) = decide (.spaced ∈ other.switches) :=
    decide_eq_decide.mpr (hsame.switches .spaced (by decide) (by decide))
  unfold runEncode
  rw [hsame.operand, hin]
  cases other.operand with
  | some input => exact configured_alike hw hi hj fun _ _ => encode_alike hspaced _
  | none =>
      cases j.input with
      | some input => exact configured_alike hw hi hj fun _ _ => encode_alike hspaced _
      | none => exact report_alike hw _ _

theorem withHelp_alike (scope : Scope) {goesOn next : Log.Outlets → Ending}
    (h : ∀ outlets others : Log.Outlets, outlets.outside = i.outside →
      others.outside = j.outside → outlets.printed = others.printed →
        (goesOn outlets).Alike (next others)) :
    (i.withHelp scope goesOn).Alike (j.withHelp scope next) := by
  unfold withHelp
  rw [hw]
  cases j.outside.refusal .stdout (help scope) with
  | none => exact h _ _ rfl rfl rfl
  | some fault =>
      cases fault with
      | broken => exact h _ _ rfl rfl rfl
      | encoding reason => exact ⟨rfl, rfl⟩

theorem run_alike_of_idle {parsed : Parsed} (idle : ∀ request, parsed ≠ .request request)
    (hi : parse i.arguments = parsed) (hj : parse j.arguments = parsed) : i.run.Alike j.run := by
  unfold run
  rw [hi, hj]
  cases parsed with
  | request request => exact absurd rfl (idle request)
  | help scope => exact withHelp_alike hw scope fun _ _ _ _ ho => ⟨ho, rfl⟩
  | refused scope reason => exact ⟨rfl, rfl⟩
  | bare =>
      apply withHelp_alike hw .main
      intro outlets others houtlets hothers ho
      exact perform_silent_alike hw houtlets hothers ho _

end Runs

/-! ### Any two configurations -/

/-- Two runs of one decoding or encoding on one input. Their configurations may differ, and so may
the switches for the log and for traces and what they find outside, but standard output takes the
same texts, and each run starts a log with another destination. -/
structure LogAside (i j : Invocation) : Prop where
  work : (parse i.arguments).SameWork (parse j.arguments)
  input : i.input = j.input
  output : i.outside.refusal .stdout = j.outside.refusal .stdout
  logs : ∀ request, parse i.arguments = .request request → i.LogsElsewhere request.switches
  logs_other : ∀ request, parse j.arguments = .request request → j.LogsElsewhere request.switches

theorem LogAside.run_alike {i j : Invocation} (h : i.LogAside j) : i.run.Alike j.run := by
  have hwork := h.work
  generalize hi : parse i.arguments = parsed at hwork
  generalize hj : parse j.arguments = other at hwork
  cases hwork with
  | none idle => exact run_alike_of_idle h.output idle hi hj
  | request same =>
      have hlogs := h.logs _ hi
      have hlogs' := h.logs_other _ hj
      unfold run
      rw [hi, hj]
      simp only [runRequest, ← same.verb]
      rcases same.works with hw | hw
      · rw [hw]
        exact runDecode_alike h.output same h.input hlogs hlogs'
      · rw [hw]
        exact runEncode_alike h.output same h.input hlogs hlogs'

/-- A run that reports everything under a path, and traces its faults. -/
def reporting (path : Text) (destination : Log.Destination) (input : Text) : Invocation :=
  { unconfigured input with
    arguments := [text "decode", text "-d", text "--traceback"]
    sources := ⟨[(text "ripcodec.log.destination", text "file:" ++ path),
      (text "ripcodec.log.short", text "false")], none⟩
    outside := .utf8 fun asked => if asked = path then some destination else none }

/-- A path may lead to standard output. The lines of the log then come between those of the run. -/
example :
    (reporting (text "/dev/stdout") .stdout (text "0203\n")).run.outlets.printed ≠
      (unconfigured (text "0203\n")).run.outlets.printed := by
  decide

end Invocation

end CommandLine

end RipWire
