import Mathlib.Data.List.TakeWhile
import RipWire.CommandLine.Run
import RipWire.Proofs.Fault.Checks
import RipWire.Proofs.Log.Starting

/-!
# What a run prints

A log that spares standard output does not add to what its commands print, so
that a course prints the texts of its events one after the other. It gets
through unless there is one among them that standard output does not take.
-/

namespace RipWire

namespace Log

/-- No line of the log goes to standard output. -/
def SparesOutput (log : Log) : Prop :=
  ∀ stamp note outlets, (log.emit stamp note outlets).1.stdout = outlets.stdout

/-- No line of the log goes to standard output when it is told about some events. -/
def SparesOutputOn (log : Log) (stamp : Stamp) (events : List CommandLine.Event) : Prop :=
  ∀ note, .note note ∈ events → ∀ outlets, (log.emit stamp note outlets).1.stdout = outlets.stdout

theorem SparesOutput.on {log : Log} (h : log.SparesOutput) (stamp : Stamp)
    (events : List CommandLine.Event) : log.SparesOutputOn stamp events :=
  fun note _ => h stamp note

theorem Outlets.printed_print (outlets : Outlets) (content : Text) :
    (outlets.print content).printed = outlets.printed ++ content := by
  simp [printed, print]

theorem Outlets.stdout_send {destination : Destination} (hd : destination ≠ .stdout)
    (outlets : Outlets) (line : Text) :
    (outlets.send destination line).stdout = outlets.stdout := by
  rw [send.eq_def]
  cases destination with
  | stdout => exact absurd rfl hd
  | stderr => cases outlets.outside.refusal .stderr line <;> rfl
  | file name => cases outlets.outside.refusal (.file name) line <;> rfl

theorem writeLines_stdout {stamp : Stamp} {handler : Handler}
    (hd : handler.destination ≠ .stdout) {level : Level} {source : Source} (lines : List Text)
    (outlets : Outlets) :
    (writeLines stamp handler level source lines outlets).stdout = outlets.stdout := by
  induction lines generalizing outlets with
  | nil => rfl
  | cons line rest ih => rw [writeLines, ih, Outlets.stdout_send hd]

theorem sparesOutput_of_destination {log : Log}
    (hd : ∀ handler, log.logger.handler = some handler → handler.destination ≠ .stdout) :
    log.SparesOutput := by
  intro stamp note outlets
  unfold emit
  split
  · rfl
  · split
    · rfl
    · split
      · rfl
      · next handler hh => exact writeLines_stdout (hd handler hh) _ _

/-- The texts in front of the first that can not be written. -/
def Outside.taken (outside : Outside) (destination : Destination) (texts : List Text) :
    List Text :=
  texts.takeWhile fun t => (outside.refusal destination t).isNone

theorem Outside.taken_of_takes {outside : Outside} {destination : Destination} {texts : List Text}
    (h : outside.Takes destination texts) : outside.taken destination texts = texts := by
  rw [taken, List.takeWhile_eq_self_iff]
  intro t hm
  rw [h t hm, Option.isNone_none]

end Log

namespace CommandLine

namespace Event

def content? : Event → Option Text
  | .print content => some content
  | _ => none

/-- The texts that events print, in order. -/
def contents (events : List Event) : List Text :=
  events.filterMap content?

theorem contents_print (content : Text) (rest : List Event) :
    contents (.print content :: rest) = content :: contents rest :=
  rfl

theorem contents_append (events more : List Event) :
    contents (events ++ more) = contents events ++ contents more :=
  List.filterMap_append

theorem contents_notes (notes : List Log.Note) : contents (notes.map Event.note) = [] := by
  simp [contents, List.filterMap_map, content?]

theorem performAll_finished (stamp : Log.Stamp) (log : Log) (events : List Event)
    (outlets : Log.Outlets) :
    (performAll stamp log events outlets).2 =
      (contents events).findSome? (outlets.outside.refusal .stdout) := by
  induction events generalizing outlets with
  | nil => rfl
  | cons event rest ih =>
      cases event with
      | print content =>
          rw [performAll, contents_print, List.findSome?_cons]
          cases outlets.outside.refusal .stdout content with
          | some fault => rfl
          | none => exact ih (outlets.print content)
      | note note =>
          rw [performAll, ih, Log.outside_emit]
          rfl
      | trace name => exact ih (outlets.printError (traced name))

/-- Performing events prints their texts, up to the first that can not be printed. Traces play no
part in it, nor do notes when the log spares standard output. -/
theorem performAll_contents {stamp : Log.Stamp} {log : Log} {events : List Event}
    (hs : log.SparesOutputOn stamp events) (outlets : Log.Outlets) :
    (performAll stamp log events outlets).1.printed =
      outlets.printed ++ (outlets.outside.taken .stdout (contents events)).flatten := by
  -- A note changes the outlets, but not what `printed` and `taken` look at.
  induction events generalizing outlets with
  | nil => simp [performAll, contents, Log.Outside.taken]
  | cons event rest ih =>
      have hrest : log.SparesOutputOn stamp rest :=
        fun note hm => hs note (List.mem_cons_of_mem _ hm)
      cases event with
      | print content =>
          rw [performAll, contents_print, Log.Outside.taken, List.takeWhile_cons]
          cases outlets.outside.refusal .stdout content with
          | some fault => simp
          | none =>
              have hprinted := ih hrest (outlets.print content)
              rw [Log.Outlets.printed_print, List.append_assoc] at hprinted
              exact hprinted
      | note note =>
          have hspared : (log.emit stamp note outlets).1.printed = outlets.printed := by
            rw [Log.Outlets.printed, hs note List.mem_cons_self, Log.Outlets.printed]
          rw [performAll, ih hrest, hspared, Log.outside_emit]
          rfl
      | trace name => exact ih hrest (outlets.printError (traced name))

end Event

namespace Invocation

/-- Standard output takes every text of visible ASCII characters and line feeds. -/
def TakesAscii (i : Invocation) : Prop :=
  ∀ t : Text, (∀ c ∈ t, c = 10 ∨ 32 ≤ c ∧ c ≤ 126) → i.outside.refusal .stdout t = none

theorem takesAscii_of_utf8 {i : Invocation} {opens : Text → Option Log.Destination}
    (h : i.outside = .utf8 opens) : i.TakesAscii := by
  intro t ht
  have hplain : t.takeWhile (!Log.isSurrogate ·) = t := by
    rw [List.takeWhile_eq_self_iff]
    intro c hm
    have hsmall : ¬ 0xd800 ≤ c := by
      rcases ht c hm with hfeed | ⟨-, hvisible⟩
      · rw [hfeed]
        decide
      · exact Nat.not_le_of_lt (Nat.lt_of_le_of_lt hvisible (by decide))
    simp [Log.isSurrogate, hsmall]
  rw [h]
  show Log.utf8Fault? t = none
  rw [Log.utf8Fault?, hplain, List.drop_length]
  rfl

/-- A run with a working log, of which no line goes to standard output. -/
structure Prepared (i : Invocation) (switches : List Switch) (settings : Settings) (log : Log)
    (outlets : Log.Outlets) : Prop where
  loads : ∃ configuration : Configuration,
    Configuration.initial.load i.sources = (configuration, .ok ()) ∧
      settings = overridden switches configuration.settings
  starts : Log.silent.start settings i.outlets = (log, outlets, .ok ())
  spares : log.SparesOutput

/-- The configuration loads, the log starts, and its lines do not go to standard output. -/
def Ready (i : Invocation) (switches : List Switch) : Prop :=
  ∃ settings log outlets, i.Prepared switches settings log outlets

theorem Prepared.configured_eq {i : Invocation} {switches : List Switch} {settings : Settings}
    {log : Log} {outlets : Log.Outlets} (h : i.Prepared switches settings log outlets)
    (course : Settings → Course) :
    i.configured switches course = i.perform log outlets (course settings) := by
  obtain ⟨configuration, hl, rfl⟩ := h.loads
  simp only [configured, hl, h.starts]

theorem of_start {i : Invocation} {log : Log} {settings : Settings} {outlets : Log.Outlets}
    {result : Except Log.ConfigureFault Unit}
    (h : Log.silent.start settings i.outlets = (log, outlets, result)) :
    outlets.printed = [] ∧ outlets.outside = i.outside := by
  have hsame := Log.sameLines_start .silent settings i.outlets
  have houtside := Log.outside_start .silent settings i.outlets
  rw [h] at hsame houtside
  refine ⟨?_, houtside⟩
  rw [Log.Outlets.printed, hsame.stdout]
  rfl

/-- What performing a course comes to, told from the texts that it prints and from its status. -/
theorem perform_contents {i : Invocation} {log : Log} {course : Course}
    (hs : log.SparesOutputOn i.stamp course.events) (outlets : Log.Outlets) :
    (i.perform log outlets course).outlets.printed = outlets.printed ++
        (outlets.outside.taken .stdout (Event.contents course.events)).flatten ∧
      (i.perform log outlets course).status =
        match (Event.contents course.events).findSome? (outlets.outside.refusal .stdout) with
        | some fault => .error (.output fault)
        | none => course.status.mapError .fault := by
  have hprinted := Event.performAll_contents hs outlets
  have hfinished := Event.performAll_finished i.stamp log course.events outlets
  unfold perform
  generalize Event.performAll i.stamp log course.events outlets = performed
    at hprinted hfinished ⊢
  obtain ⟨final, stopped⟩ := performed
  rw [← hfinished]
  cases stopped with
  | none => exact ⟨hprinted, rfl⟩
  | some fault => exact ⟨hprinted, rfl⟩

theorem perform_eq {i : Invocation} {log : Log} {outlets : Log.Outlets} {course : Course}
    (ho : outlets.printed = []) (hs : log.SparesOutputOn i.stamp course.events)
    (ht : outlets.outside.Takes .stdout (Event.contents course.events)) :
    (i.perform log outlets course).outlets.printed = (Event.contents course.events).flatten ∧
      (i.perform log outlets course).status = course.status.mapError .fault := by
  obtain ⟨hprinted, hstatus⟩ := perform_contents hs outlets
  rw [ho, List.nil_append, Log.Outside.taken_of_takes ht] at hprinted
  rw [List.findSome?_eq_none_iff.mpr ht] at hstatus
  exact ⟨hprinted, hstatus⟩

theorem Prepared.perform_eq {i : Invocation} {switches : List Switch} {settings : Settings}
    {log : Log} {outlets : Log.Outlets} (h : i.Prepared switches settings log outlets)
    {course : Course} (ht : i.outside.Takes .stdout (Event.contents course.events)) :
    (i.perform log outlets course).outlets.printed = (Event.contents course.events).flatten ∧
      (i.perform log outlets course).status = course.status.mapError .fault := by
  obtain ⟨hprinted, houtside⟩ := of_start h.starts
  rw [← houtside] at ht
  exact Invocation.perform_eq hprinted (h.spares.on _ _) ht

theorem perform_ok {i : Invocation} {log : Log} {outlets : Log.Outlets} {course : Course}
    {status : Nat} (h : (i.perform log outlets course).status = .ok status) :
    course.status = .ok status ∧
      outlets.outside.Takes .stdout (Event.contents course.events) := by
  have hfinished := Event.performAll_finished i.stamp log course.events outlets
  unfold perform at h
  generalize Event.performAll i.stamp log course.events outlets = performed at h hfinished
  obtain ⟨final, stopped⟩ := performed
  cases stopped with
  | some fault => cases h
  | none => exact ⟨Checks.mapError_ok_iff.mp h, List.findSome?_eq_none_iff.mp hfinished.symm⟩

/-- The configuration loads, the log starts, and it is told nothing in the course that it would
put on standard output. -/
def Quiet (i : Invocation) (switches : List Switch) (course : Settings → Course) : Prop :=
  ∃ configuration log outlets, Configuration.initial.load i.sources = (configuration, .ok ()) ∧
    Log.silent.start (overridden switches configuration.settings) i.outlets =
      (log, outlets, .ok ()) ∧
    log.SparesOutputOn i.stamp (course (overridden switches configuration.settings)).events

theorem Ready.quiet {i : Invocation} {switches : List Switch} (h : i.Ready switches)
    (course : Settings → Course) : i.Quiet switches course := by
  obtain ⟨settings, log, outlets, hprepared⟩ := h
  obtain ⟨configuration, hl, rfl⟩ := hprepared.loads
  exact ⟨configuration, log, outlets, hl, hprepared.starts, hprepared.spares.on _ _⟩

/-- Only the sources, the log files and what is found outside matter for readiness. -/
theorem Ready.congr {i j : Invocation} {switches : List Switch} (h : i.Ready switches)
    (hs : j.sources = i.sources) (ho : j.outlets = i.outlets) : j.Ready switches := by
  obtain ⟨settings, log, outlets, hprepared⟩ := h
  refine ⟨settings, log, outlets, ⟨?_, ?_, hprepared.spares⟩⟩
  · rw [hs]
    exact hprepared.loads
  · rw [ho]
    exact hprepared.starts

theorem Ready.of_overridden {i : Invocation} {switches others : List Switch}
    (h : i.Ready switches) (ho : overridden others = overridden switches) : i.Ready others := by
  obtain ⟨settings, log, outlets, hprepared⟩ := h
  refine ⟨settings, log, outlets, ⟨?_, hprepared.starts, hprepared.spares⟩⟩
  rw [ho]
  exact hprepared.loads

theorem Quiet.configured_eq {i : Invocation} {switches : List Switch}
    {course : Settings → Course} (h : i.Quiet switches course) :
    ∃ settings, i.outside.Takes .stdout (Event.contents (course settings).events) →
      (i.configured switches course).outlets.printed =
          (Event.contents (course settings).events).flatten ∧
        (i.configured switches course).status = (course settings).status.mapError .fault := by
  obtain ⟨configuration, log, outlets, hl, hstart, hs⟩ := h
  obtain ⟨hprinted, houtside⟩ := of_start hstart
  refine ⟨overridden switches configuration.settings, ?_⟩
  intro ht
  rw [← houtside] at ht
  simp only [configured, hl, hstart]
  exact perform_eq hprinted hs ht

end Invocation

end CommandLine

end RipWire
