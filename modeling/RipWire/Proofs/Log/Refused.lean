import RipWire.Proofs.Log.Facade

/-!
# A start that is refused

A start is refused when the path of its destination can not be opened or its level is unknown.
The handler in force stays the one before, and an inactive log stays inactive. But the sources
that are heard are already those of the settings that have been refused. As long as the log is
inactive, nobody notices. An active log writes and drops messages as before only if it has heard
the same sources before.
-/

namespace RipWire.Log

theorem Level.severity_le (level : Level) : level.severity ≤ 50 := by
  cases level <;> decide

/-- Settings that enable the log but can not start it: their destination can not be opened, or it
can and their level stands for none. -/
inductive Refuses (outside : Outside) (settings : Settings) : ConfigureFault → Prop where
  | destination (enabled : (settings .enable).isOn = true)
      (closed : Destination.ofText? outside.opens (settings .destination).display = none) :
      Refuses outside settings .destination
  | level (enabled : (settings .enable).isOn = true) (destination : Destination)
      (resolved : Destination.ofText? outside.opens (settings .destination).display =
        some destination)
      (unknown : ∀ lowest, ¬ Level.Denotes (settings .level).display lowest) :
      Refuses outside settings .level

theorem threshold?_eq_none_iff {t : Text} :
    Level.threshold? t = none ↔ ∀ lowest, ¬ Level.Denotes t lowest := by
  constructor
  · intro hnone lowest hdenotes
    have hsome := Level.threshold?_eq_some_iff.mpr ⟨lowest, hdenotes, rfl⟩
    rw [hnone] at hsome
    cases hsome
  · intro h
    cases hthreshold : Level.threshold? t with
    | none => rfl
    | some threshold =>
        obtain ⟨lowest, hdenotes, -⟩ := Level.threshold?_eq_some_iff.mp hthreshold
        exact absurd hdenotes (h lowest)

theorem wanted_error_iff {outside : Outside} {settings : Settings} {fault : ConfigureFault} :
    wanted outside settings = .error fault ↔ Refuses outside settings fault := by
  constructor
  · intro h
    rw [wanted] at h
    split at h
    · next henable =>
        split at h
        · next hclosed =>
            cases h
            exact .destination henable hclosed
        · next destination hresolved hunknown =>
            cases h
            exact .level henable destination hresolved (threshold?_eq_none_iff.mp hunknown)
        · cases h
    · cases h
  · intro h
    cases h with
    | destination henable hclosed => rw [wanted, if_pos henable, hclosed]
    | level henable destination hresolved hunknown =>
        rw [wanted, if_pos henable, hresolved, threshold?_eq_none_iff.mpr hunknown]

theorem threshold_le_of_wanted {outside : Outside} {settings : Settings} {logger : Logger}
    (h : wanted outside settings = .ok (some logger)) : logger.threshold ≤ 50 := by
  rw [wanted] at h
  split at h
  · split at h
    · cases h
    · cases h
    · next destination threshold hdestination hthreshold =>
        cases h
        obtain ⟨lowest, -, hseverity⟩ := Level.threshold?_eq_some_iff.mp hthreshold
        rw [← hseverity]
        exact lowest.severity_le
  · cases h

/-! ### What is written does not depend on what has been -/

theorem emission_eq (stamp : Stamp) (log : Log) (note : Note) (outlets others : Outlets) :
    (emit stamp log note outlets).2 = (emit stamp log note others).2 := by
  rw [emit, emit]
  cases log.passes note.level note.source with
  | false => rfl
  | true =>
      cases note.message.spell with
      | error fault => rfl
      | ok content => cases log.logger.handler <;> rfl

theorem emit_congr {log other : Log} {note : Note} (hlogger : other.logger = log.logger)
    (hpasses : other.passes note.level note.source = log.passes note.level note.source)
    (stamp : Stamp) (outlets : Outlets) :
    emit stamp other note outlets = emit stamp log note outlets := by
  rw [emit, emit, hpasses, hlogger]

theorem emission_plain (stamp : Stamp) (log : Log) (level : Level) (source : Source)
    (content : Text) (outlets : Outlets) :
    (emit stamp log ⟨level, source, .plain content⟩ outlets).2 =
      if log.passes level source then .written else .unheard := by
  rw [emit]
  cases log.passes level source with
  | false => rfl
  | true => cases log.logger.handler <;> rfl

theorem passes_eq_of_emission {stamp : Stamp} {log other : Log} {source : Source}
    {outlets : Outlets}
    (h : (emit stamp other ⟨.critical, source, .plain []⟩ outlets).2 =
      (emit stamp log ⟨.critical, source, .plain []⟩ outlets).2) :
    other.passes .critical source = log.passes .critical source := by
  rw [emission_plain, emission_plain] at h
  cases hother : other.passes .critical source <;>
    cases hlog : log.passes .critical source <;> simp [hother, hlog] at h ⊢

section SameHandler

variable {log other : Log} (hactive : other.active = log.active)
  (hlogger : other.logger = log.logger)

include hactive hlogger

theorem passes_congr (henabled : log.active = true → other.enabled = log.enabled) (level : Level)
    (source : Source) : other.passes level source = log.passes level source := by
  rw [passes, passes, hactive, hlogger]
  cases ha : log.active with
  | false => rfl
  | true => rw [henabled ha]

/-- What passes when it is critical tells which sources an active log hears. -/
theorem enabled_eq_of_passes (hthreshold : log.logger.threshold ≤ 50)
    (h : ∀ source, other.passes .critical source = log.passes .critical source)
    (ha : log.active = true) : other.enabled = log.enabled := by
  funext source
  have hsource := h source
  simpa [passes, hactive, ha, hlogger, Level.severity, hthreshold] using hsource

theorem emit_eq_iff (hthreshold : log.logger.threshold ≤ 50) :
    (∀ stamp note outlets, emit stamp other note outlets = emit stamp log note outlets) ↔
      (log.active = true → other.enabled = log.enabled) := by
  constructor
  · intro h
    apply enabled_eq_of_passes hactive hlogger hthreshold
    intro source
    have hemit := h ⟨[], []⟩ ⟨.critical, source, .plain []⟩ ⟨[], [], [], .utf8 fun _ => none⟩
    exact passes_eq_of_emission (congrArg Prod.snd hemit)
  · intro henabled stamp note outlets
    exact emit_congr hlogger (passes_congr hactive hlogger henabled _ _) stamp outlets

end SameHandler

namespace Session

/-! ### Sessions that answer alike -/

/-- Nothing but what has been written already tells two sessions apart. The sources that are heard
do not matter while the log is not active. -/
structure Agrees (session other : Session) : Prop where
  settings : other.settings = session.settings
  outside : other.outlets.outside = session.outlets.outside
  active : other.log.active = session.log.active
  logger : other.log.logger = session.log.logger
  enabled : session.log.active = true → other.log.enabled = session.log.enabled

theorem Agrees.step {session other : Session} (h : session.Agrees other) (step : Step) :
    (other.step step).2 = (session.step step).2 ∧
      (session.step step).1.Agrees (other.step step).1 := by
  cases step with
  | adjust settings => exact ⟨rfl, rfl, h.outside, h.active, h.logger, h.enabled⟩
  | start =>
      obtain ⟨after, -, hafter, hstep⟩ := session.step_start
      obtain ⟨others, -, hothers, hother⟩ := other.step_start
      have hwanted : other.wanted = session.wanted := by
        rw [Session.wanted, Session.wanted, h.settings, h.outside]
      have houtside : others.outside = after.outside := by rw [hothers, hafter, h.outside]
      rw [hstep, hother, hwanted, h.settings]
      cases session.wanted with
      | error fault => exact ⟨rfl, rfl, houtside, h.active, h.logger, fun _ => rfl⟩
      | ok logger =>
          cases logger with
          | none => exact ⟨rfl, rfl, houtside, rfl, h.logger, fun _ => rfl⟩
          | some logger => exact ⟨rfl, rfl, houtside, rfl, rfl, fun _ => rfl⟩
  | disable => exact ⟨rfl, h.settings, h.outside, rfl, h.logger, fun _ => rfl⟩
  | tell stamp level name message =>
      simp only [Session.step]
      cases Source.ofName? name with
      | none => exact ⟨rfl, h⟩
      | some source =>
          have hemit : emit stamp other.log ⟨level, source, message⟩ other.outlets =
              emit stamp session.log ⟨level, source, message⟩ other.outlets :=
            emit_congr h.logger (passes_congr h.active h.logger h.enabled _ _) stamp other.outlets
          refine ⟨?_, h.settings, ?_, h.active, h.logger, h.enabled⟩
          · simp only [hemit]
            rw [emission_eq]
          · simp only [outside_emit, h.outside]

theorem Agrees.answers {session other : Session} (h : session.Agrees other) (more : List Step) :
    other.answers more = session.answers more := by
  induction more generalizing session other with
  | nil => rfl
  | cons step rest ih =>
      obtain ⟨hanswer, hagrees⟩ := h.step step
      rw [Session.answers, Session.answers, hanswer, ih hagrees]

/-- An active log gives itself away by its answers when it hears other sources. -/
theorem answers_eq_iff {session other : Session} (hsettings : other.settings = session.settings)
    (houtside : other.outlets.outside = session.outlets.outside)
    (hactive : other.log.active = session.log.active)
    (hlogger : other.log.logger = session.log.logger)
    (hthreshold : session.log.logger.threshold ≤ 50) :
    (∀ more, other.answers more = session.answers more) ↔
      (session.log.active = true → other.log.enabled = session.log.enabled) := by
  constructor
  · intro h
    apply enabled_eq_of_passes hactive hlogger hthreshold
    intro source
    have htold := h [.tell ⟨[], []⟩ .critical source.name (.plain [])]
    simp only [Session.answers, step_tell, List.cons.injEq, Answer.told.injEq, and_true] at htold
    rw [emission_eq _ _ _ _ session.outlets] at htold
    exact passes_eq_of_emission htold
  · intro henabled more
    exact Agrees.answers ⟨hsettings, houtside, hactive, hlogger, henabled⟩ more

/-! ### Critical messages are never held back by their level -/

theorem threshold_le_step {session : Session} (h : session.log.logger.threshold ≤ 50)
    (step : Step) : (session.step step).1.log.logger.threshold ≤ 50 := by
  cases step with
  | adjust settings => exact h
  | start =>
      obtain ⟨after, -, -, hstep⟩ := session.step_start
      rw [hstep]
      cases hw : session.wanted with
      | error fault => exact h
      | ok logger =>
          cases logger with
          | none => exact h
          | some logger => exact threshold_le_of_wanted hw
  | disable => exact h
  | tell stamp level name message =>
      rw [Session.step.eq_4]
      split <;> exact h

theorem threshold_le_run {session : Session} (h : session.log.logger.threshold ≤ 50)
    (steps : List Step) : (session.run steps).log.logger.threshold ≤ 50 := by
  induction steps generalizing session with
  | nil => exact h
  | cons step rest ih => exact ih (threshold_le_step h step)

/-! ### What a refused start leaves behind -/

/-- A start is refused by settings that can not start a log as things are outside. Behind it
everything is as before but the sources that are heard, which are those of the settings at hand,
and no line has been added anywhere. So it leaves the log as it was exactly when these sources have
been heard before. What is told later is written or dropped as it would have been without that
start, exactly when they have been heard or the log is not active. -/
theorem start_refused_unnoticed_iff (settings : Settings) (outlets : Outlets)
    (steps : List Step) :
    let session := (initial settings outlets).run steps
    let after := (session.step .start).1
    (∀ fault, (session.step .start).2 = .refused fault ↔
      Refuses session.outlets.outside session.settings fault) ∧
    ∀ fault, (session.step .start).2 = .refused fault →
      (after.settings = session.settings ∧
        after.log = { session.log with enabled := hears session.settings } ∧
        session.outlets.SameLines after.outlets) ∧
      (after.log = session.log ↔ session.log.enabled = hears session.settings) ∧
      ((∀ more, after.answers more = session.answers more) ↔
        (session.log.active = true → session.log.enabled = hears session.settings)) ∧
      ((∀ stamp note outlets, emit stamp after.log note outlets =
          emit stamp session.log note outlets) ↔
        (session.log.active = true → session.log.enabled = hears session.settings)) := by
  intro session after
  refine ⟨fun _ => refused_iff_wanted.trans wanted_error_iff, ?_⟩
  intro fault h
  obtain ⟨others, hsame, hothers, hstep⟩ := session.step_start
  rw [refused_iff_wanted.mp h] at hstep
  have hafter : after =
      ⟨session.settings, { session.log with enabled := hears session.settings }, others⟩ :=
    congrArg Prod.fst hstep
  have hfirst : (initial settings outlets).log.logger.threshold ≤ 50 := by
    show 30 ≤ 50
    decide
  have hthreshold : session.log.logger.threshold ≤ 50 := threshold_le_run hfirst steps
  have henabled : after.log.enabled = hears session.settings := by rw [hafter]
  have hsettings : after.settings = session.settings := by rw [hafter]
  have houtside : after.outlets.outside = session.outlets.outside := by rw [hafter, hothers]
  have hactive : after.log.active = session.log.active := by rw [hafter]
  have hlogger : after.log.logger = session.log.logger := by rw [hafter]
  refine ⟨?_, ?_, ?_, ?_⟩
  · rw [hafter]
    exact ⟨rfl, rfl, hsame⟩
  · constructor
    · intro hlog
      rw [← henabled, hlog]
    · intro hheard
      rw [hafter, ← hheard]
  · refine (answers_eq_iff hsettings houtside hactive hlogger hthreshold).trans ?_
    rw [henabled]
    exact imp_congr_right fun _ => eq_comm
  · refine (emit_eq_iff hactive hlogger hthreshold).trans ?_
    rw [henabled]
    exact imp_congr_right fun _ => eq_comm

/-- Settings that ask for the parser, and for a file that can not be opened. -/
def unreachable : Settings :=
  (Settings.preset.assign .parser (.switch true)).assign .destination
    (.phrase (text "file:missing/rip.log"))

/-- A log that has been writing to a file and is disabled. A start that is refused then goes
unnoticed. -/
theorem start_refused_unnoticed_when_disabled :
    let logged := Settings.preset.assign .destination (.phrase (text "file:/tmp/rip.log"))
    let session := (initial logged ⟨[], [], [], oneFile⟩).run
      [.start, .disable, .adjust unreachable]
    (session.step .start).2 = .refused .destination ∧
      (session.step .start).1.log ≠ session.log ∧
      ∀ more, (session.step .start).1.answers more = session.answers more := by
  intro logged session
  have hrefused : (session.step .start).2 = .refused .destination := rfl
  obtain ⟨-, hlog, hanswers, -⟩ := (start_refused_unnoticed_iff _ _ _).2 _ hrefused
  refine ⟨hrefused, ?_, hanswers.mpr nofun⟩
  intro hsame
  cases congrFun (hlog.mp hsame) .cli

/-- A log that hears the command line alone, and lets the parser be heard once it has been refused
a start. -/
theorem start_refused_noticed :
    let session := (initial Settings.preset ⟨[], [], [], oneFile⟩).run
      [.start, .adjust unreachable]
    let after := (session.step .start).1
    let told : Step := .tell ⟨text "12:34:56", text "4242"⟩ .error (text "parser")
      (.plain (text "stray"))
    (session.step .start).2 = .refused .destination ∧
      session.log.enabled .parser = false ∧ after.log.enabled .parser = true ∧
      session.answers [told] = [.told .unheard] ∧ after.answers [told] = [.told .written] ∧
      (session.run [told]).outlets.printedErrors = [] ∧
      (after.run [told]).outlets.printedErrors = text "parser     stray\n" :=
  ⟨rfl, rfl, rfl, rfl, rfl, rfl, rfl⟩

end Session

end RipWire.Log
