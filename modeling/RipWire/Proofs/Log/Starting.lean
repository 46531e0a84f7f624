import Mathlib.Tactic.SplitIfs
import RipWire.Proofs.Log.Delivery

/-!
# A started log

What a start that succeeds makes of the settings and of what is found outside: which sources are
heard, from which level on, where the lines go and which form they have. A note passes exactly
when its source is heard and its level is reached, and only then is it spelled.
-/

namespace RipWire.Log

/-- The level that a text in the settings stands for: one of the five names, or another that is
understood. -/
inductive Level.Denotes : Text → Level → Prop where
  | named (level : Level) : Denotes level.name level
  | warn : Denotes (text "WARN") .warning
  | fatal : Denotes (text "FATAL") .critical
  /-- Without a level of its own a log passes warnings. -/
  | unset : Denotes (text "NOTSET") .warning

theorem Level.threshold?_eq_some_iff {t : Text} {threshold : Nat} :
    threshold? t = some threshold ↔ ∃ lowest, Denotes t lowest ∧ lowest.severity = threshold := by
  constructor
  · intro h
    unfold threshold? at h
    split_ifs at h with hdebug hinfo hwarning herror hcritical <;> cases h
    · subst hdebug
      exact ⟨.debug, .named .debug, rfl⟩
    · subst hinfo
      exact ⟨.info, .named .info, rfl⟩
    · rcases hwarning with rfl | rfl | rfl
      · exact ⟨.warning, .named .warning, rfl⟩
      · exact ⟨.warning, .warn, rfl⟩
      · exact ⟨.warning, .unset, rfl⟩
    · subst herror
      exact ⟨.error, .named .error, rfl⟩
    · rcases hcritical with rfl | rfl
      · exact ⟨.critical, .named .critical, rfl⟩
      · exact ⟨.critical, .fatal, rfl⟩
  · rintro ⟨lowest, hdenotes, rfl⟩
    cases hdenotes with
    | named => exact threshold?_name lowest
    | _ => decide

/-- The sources that settings ask for. The command line is always heard. -/
inductive Heard (settings : Settings) : Source → Prop where
  | cli : Heard settings .cli
  | all (on : (settings .all).isOn = true) (source : Source) : Heard settings source
  | parser (on : (settings .parser).isOn = true) : Heard settings .parser
  | serializer (on : (settings .serializer).isOn = true) : Heard settings .serializer
  | wire (on : (settings .packets).isOn = true) : Heard settings .wire

theorem heard_iff {settings : Settings} {source : Source} :
    Heard settings source ↔ hears settings source = true := by
  constructor
  · intro h
    cases h with
    | cli => rfl
    | all on => cases source <;> simp [hears, on]
    | parser on => simp [hears, on]
    | serializer on => simp [hears, on]
    | wire on => simp [hears, on]
  · intro h
    cases source with
    | cli => exact .cli
    | parser => exact (Bool.or_eq_true_iff.mp h).elim (.all · _) .parser
    | serializer => exact (Bool.or_eq_true_iff.mp h).elim (.all · _) .serializer
    | wire => exact (Bool.or_eq_true_iff.mp h).elim (.all · _) .wire

/-- Settings ask for what a source has to tell at a level. -/
structure Owed (settings : Settings) (level : Level) (source : Source) : Prop where
  heard : Heard settings source
  reached : ∃ lowest, Level.Denotes (settings .level).display lowest ∧
    lowest.severity ≤ level.severity

/-! ### Starting -/

/-- What settings make of the handler: another one, or none when they turn the log off. -/
def wanted (outside : Outside) (settings : Settings) : Except ConfigureFault (Option Logger) :=
  if (settings .enable).isOn then
    match Destination.ofText? outside.opens (settings .destination).display,
      Level.threshold? (settings .level).display with
    | none, _ => .error .destination
    | some _, none => .error .level
    | some destination, some threshold =>
      .ok (some ⟨threshold, some ⟨destination, (settings .short).isOn⟩⟩)
  else .ok none

/-- The log behind a start. -/
def behindStart (log : Log) (settings : Settings) : Except ConfigureFault (Option Logger) → Log
  | .error _ => { log with enabled := hears settings }
  | .ok none => log.disable
  | .ok (some logger) => ⟨true, hears settings, logger⟩

theorem Outlets.sameLines_opening (outlets : Outlets) (destination : Destination) :
    outlets.SameLines (outlets.opening destination) := by
  cases destination with
  | file name => exact ⟨rfl, rfl, Files.fileAt_opened _ name⟩
  | _ => exact .refl outlets

/-- What a start does depends on the settings and on what is found outside. Whether it succeeds or
not, it adds no line anywhere. -/
theorem start_eq (log : Log) (settings : Settings) (outlets : Outlets) :
    ∃ after, outlets.SameLines after ∧ after.outside = outlets.outside ∧
      log.start settings outlets = (log.behindStart settings (wanted outlets.outside settings),
        after, (wanted outlets.outside settings).map fun _ => ()) := by
  by_cases he : (settings .enable).isOn = true
  · simp only [start, wanted, if_pos he, configure, Logger.configure]
    cases Destination.ofText? outlets.outside.opens (settings .destination).display with
    | none => exact ⟨outlets, .refl outlets, rfl, rfl⟩
    | some destination =>
        refine ⟨_, outlets.sameLines_opening destination, outlets.outside_opening destination, ?_⟩
        cases Level.threshold? (settings .level).display <;> rfl
  · simp only [start, wanted, if_neg he]
    exact ⟨outlets, .refl outlets, rfl, rfl⟩

theorem sameLines_start (log : Log) (settings : Settings) (outlets : Outlets) :
    outlets.SameLines (log.start settings outlets).2.1 := by
  obtain ⟨after, hsame, -, hstart⟩ := log.start_eq settings outlets
  rw [hstart]
  exact hsame

theorem outside_start (log : Log) (settings : Settings) (outlets : Outlets) :
    (log.start settings outlets).2.1.outside = outlets.outside := by
  obtain ⟨after, -, houtside, hstart⟩ := log.start_eq settings outlets
  rw [hstart]
  exact houtside

/-- A log as settings want it, with the destination that these name outside. -/
structure Started (log : Log) (outside : Outside) (settings : Settings)
    (destination : Destination) : Prop where
  active : log.active = true
  enabled : log.enabled = hears settings
  resolved : Destination.ofText? outside.opens (settings .destination).display = some destination
  handler : log.logger.handler = some ⟨destination, (settings .short).isOn⟩
  threshold : Level.threshold? (settings .level).display = some log.logger.threshold

theorem started_of_start {log started : Log} {settings : Settings} {outlets after : Outlets}
    (he : (settings .enable).isOn = true)
    (h : log.start settings outlets = (started, after, .ok ())) :
    ∃ destination, started.Started outlets.outside settings destination := by
  obtain ⟨_, -, -, hstart⟩ := log.start_eq settings outlets
  rw [h, wanted, if_pos he] at hstart
  cases hdestination :
      Destination.ofText? outlets.outside.opens (settings .destination).display with
  | none => simp [hdestination, Except.map] at hstart
  | some destination =>
      cases hthreshold : Level.threshold? (settings .level).display with
      | none => simp [hdestination, hthreshold, Except.map] at hstart
      | some threshold =>
          simp only [hdestination, hthreshold, Prod.mk.injEq] at hstart
          rw [hstart.1]
          exact ⟨destination, rfl, rfl, hdestination, rfl, hthreshold⟩

/-! ### Telling a started log -/

theorem emit_of_not_passes {stamp : Stamp} {log : Log} {note : Note} {outlets : Outlets}
    (h : log.passes note.level note.source = false) :
    emit stamp log note outlets = (outlets, .unheard) := by
  simp [emit, h]

/-- The lines that a message makes at a destination. -/
def linesFor (stamp : Stamp) (destination : Destination) (settings : Settings) (level : Level)
    (source : Source) (content : Text) : List Text :=
  (content.splitOn 10).map
    (Handler.line stamp ⟨destination, (settings .short).isOn⟩ level source)

section Started

variable {log : Log} {outside : Outside} {settings : Settings} {destination : Destination}
  (h : log.Started outside settings destination)

include h

theorem Started.passes_iff {level : Level} {source : Source} :
    log.passes level source = true ↔ Owed settings level source := by
  rw [passes, h.active, h.enabled, Bool.true_and, Bool.and_eq_true, ← heard_iff,
    decide_eq_true_iff]
  constructor
  · rintro ⟨hheard, hreached⟩
    obtain ⟨lowest, hdenotes, hseverity⟩ := Level.threshold?_eq_some_iff.mp h.threshold
    exact ⟨hheard, lowest, hdenotes, hseverity ▸ hreached⟩
  · rintro ⟨hheard, lowest, hdenotes, hreached⟩
    have hthreshold := Level.threshold?_eq_some_iff.mpr ⟨lowest, hdenotes, rfl⟩
    rw [h.threshold, Option.some_inj] at hthreshold
    exact ⟨hheard, hthreshold ▸ hreached⟩

theorem Started.emit_written (stamp : Stamp) (note : Note) {content : Text}
    (ho : Owed settings note.level note.source) (hspell : note.message.spell = .ok content)
    (outlets : Outlets) :
    ∃ after, emit stamp log note outlets = (after, .written) ∧
      (outlets.outside.Takes destination
          (linesFor stamp destination settings note.level note.source content) →
        Outlets.DeliveredInTurn destination outlets
          (linesFor stamp destination settings note.level note.source content) after) := by
  have hpasses := h.passes_iff.mpr ho
  refine ⟨writeLines stamp ⟨destination, (settings .short).isOn⟩ note.level note.source
    (content.cutAt 10) outlets, ?_, ?_⟩
  · simp [emit, hpasses, hspell, h.handler]
  · intro htakes
    rw [linesFor, ← Text.cutAt_eq_splitOn] at htakes ⊢
    exact delivered_writeLines stamp ⟨destination, (settings .short).isOn⟩ note.level
      note.source htakes

theorem Started.emit_failed (stamp : Stamp) (note : Note) {fault : TemplateFault}
    (ho : Owed settings note.level note.source) (hspell : note.message.spell = .error fault)
    (outlets : Outlets) : emit stamp log note outlets = (outlets, .failed fault) := by
  have hpasses := h.passes_iff.mpr ho
  simp [emit, hpasses, hspell]

end Started

end RipWire.Log
