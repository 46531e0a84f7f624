import Mathlib.Data.List.Induction
import RipWire.Log.Session
import RipWire.Proofs.Log.Starting

/-!
# What the log writes in a process

As long as no start is refused, the latest start or disabling alone decides on what the log
writes. A message told after it is written exactly when that was a start with settings that
enable the log and ask for the message, line by line to the destination in those settings.
Settings that change later do not matter, nor do earlier starts, and nothing but a message ever
adds a line anywhere.
-/

namespace RipWire.Log

namespace Session

/-! ### Runs and their answers -/

theorem run_append (session : Session) (steps more : List Step) :
    session.run (steps ++ more) = (session.run steps).run more := by
  induction steps generalizing session with
  | nil => rfl
  | cons step rest ih => exact ih _

theorem answers_append (session : Session) (steps more : List Step) :
    session.answers (steps ++ more) =
      session.answers steps ++ (session.run steps).answers more := by
  induction steps generalizing session with
  | nil => rfl
  | cons step rest ih => exact congrArg ((session.step step).2 :: ·) (ih _)

theorem run_concat (session : Session) (steps : List Step) (step : Step) :
    session.run (steps ++ [step]) = ((session.run steps).step step).1 :=
  run_append session steps [step]

/-! ### Starts -/

def answerTo : Except ConfigureFault (Option Logger) → Answer
  | .ok _ => .done
  | .error fault => .refused fault

/-- What a start would make of the handler as things are. -/
def wanted (session : Session) : Except ConfigureFault (Option Logger) :=
  Log.wanted session.outlets.outside session.settings

theorem step_start (session : Session) :
    ∃ after, session.outlets.SameLines after ∧ after.outside = session.outlets.outside ∧
      session.step .start =
        (⟨session.settings, session.log.behindStart session.settings session.wanted, after⟩,
          answerTo session.wanted) := by
  obtain ⟨after, hsame, houtside, hstart⟩ :=
    session.log.start_eq session.settings session.outlets
  refine ⟨after, hsame, houtside, ?_⟩
  rw [Session.step.eq_2, hstart, wanted]
  cases Log.wanted session.outlets.outside session.settings <;> rfl

theorem refused_iff_wanted {session : Session} {fault : ConfigureFault} :
    (session.step .start).2 = .refused fault ↔ session.wanted = .error fault := by
  obtain ⟨after, -, -, hstep⟩ := session.step_start
  rw [hstep]
  cases session.wanted with
  | ok logger => simp [answerTo]
  | error other => simp [answerTo]

theorem outside_step (session : Session) (step : Step) :
    (session.step step).1.outlets.outside = session.outlets.outside := by
  cases step with
  | adjust settings => rfl
  | start =>
      obtain ⟨after, -, hafter, hstep⟩ := session.step_start
      rw [hstep]
      exact hafter
  | disable => rfl
  | tell stamp level name message =>
      rw [Session.step.eq_4]
      split
      · rfl
      · exact outside_emit _ _ _ _

theorem outside_run (session : Session) (steps : List Step) :
    (session.run steps).outlets.outside = session.outlets.outside := by
  induction steps generalizing session with
  | nil => rfl
  | cons step rest ih => exact (ih _).trans (session.outside_step step)

/-- No start is refused. -/
def Granted (session : Session) (steps : List Step) : Prop :=
  ∀ fault, .refused fault ∉ session.answers steps

theorem granted_concat_iff {session : Session} {steps : List Step} {step : Step} :
    session.Granted (steps ++ [step]) ↔
      session.Granted steps ∧ ∀ fault, ((session.run steps).step step).2 ≠ .refused fault := by
  rw [Granted, answers_append]
  simp only [answers, List.mem_append, List.mem_singleton, not_or, forall_and]
  exact and_congr Iff.rfl (forall_congr' fun fault => ne_comm)

/-- The latest start or disabling is a start, with these settings, and they enable the log. -/
def Governed (session : Session) (steps : List Step) (settings : Settings) : Prop :=
  ∃ before after, steps = before ++ .start :: after ∧
    (∀ later ∈ after, later ≠ .start ∧ later ≠ .disable) ∧
    settings = (session.run before).settings ∧ (settings .enable).isOn = true

/-- What one more step does to the question which settings govern. -/
theorem governed_concat_iff {session : Session} {steps : List Step} {step : Step}
    {settings : Settings} :
    session.Governed (steps ++ [step]) settings ↔
      (step = .start ∧ settings = (session.run steps).settings ∧
        (settings .enable).isOn = true) ∨
      (step ≠ .start ∧ step ≠ .disable ∧ session.Governed steps settings) := by
  constructor
  · rintro ⟨before, after, hsplit, hafter, hrest⟩
    -- The new step is the start itself, or the last of those behind it.
    rcases List.eq_nil_or_concat after with rfl | ⟨front, last, rfl⟩
    · obtain ⟨rfl, hstep⟩ := List.append_inj' hsplit rfl
      exact .inl ⟨List.singleton_inj.mp hstep, hrest⟩
    · rw [List.concat_eq_append, ← List.cons_append, ← List.append_assoc] at hsplit
      obtain ⟨hsteps, hstep⟩ := List.append_inj' hsplit rfl
      cases List.singleton_inj.mp hstep
      have hlast := hafter step (by simp)
      refine .inr ⟨hlast.1, hlast.2, before, front, hsteps, ?_, hrest⟩
      intro later hm
      exact hafter later (by simp [hm])
  · rintro (⟨rfl, hrest⟩ | ⟨hstart, hdisable, before, after, rfl, hafter, hrest⟩)
    · exact ⟨steps, [], rfl, by simp, hrest⟩
    · refine ⟨before, after ++ [step], by simp, ?_, hrest⟩
      intro later hm
      rcases List.mem_append.mp hm with hm | hm
      · exact hafter later hm
      · cases List.mem_singleton.mp hm
        exact ⟨hstart, hdisable⟩

/-! ### The log follows the latest start or disabling -/

/-- The log is as the settings that govern want it, and inactive when there are none. -/
structure Follows (session : Session) (steps : List Step) : Prop where
  started : ∀ settings, session.Governed steps settings →
    ∃ destination,
      (session.run steps).log.Started session.outlets.outside settings destination
  idle : (∀ settings, ¬ session.Governed steps settings) →
    (session.run steps).log.active = false

theorem Follows.of_same_log {session : Session} {steps : List Step} {step : Step}
    (h : session.Follows steps) (hstart : step ≠ .start) (hdisable : step ≠ .disable)
    (hlog : ((session.run steps).step step).1.log = (session.run steps).log) :
    session.Follows (steps ++ [step]) := by
  constructor
  · intro settings hgoverned
    rw [run_concat, hlog]
    rcases governed_concat_iff.mp hgoverned with ⟨hstep, -⟩ | ⟨-, -, hbefore⟩
    · exact absurd hstep hstart
    · exact h.started settings hbefore
  · intro hnone
    rw [run_concat, hlog]
    apply h.idle
    intro settings hbefore
    exact hnone settings (governed_concat_iff.mpr (.inr ⟨hstart, hdisable, hbefore⟩))

theorem exists_started {session : Session}
    (h : ∀ fault, (session.step .start).2 ≠ .refused fault) :
    ∃ log outlets, session.log.start session.settings session.outlets = (log, outlets, .ok ()) ∧
      (session.step .start).1.log = log := by
  obtain ⟨after, -, -, hstart⟩ := session.log.start_eq session.settings session.outlets
  cases hw : session.wanted with
  | error fault => exact absurd (refused_iff_wanted.mpr hw) (h fault)
  | ok logger =>
      rw [wanted] at hw
      rw [hw] at hstart
      refine ⟨_, _, hstart, ?_⟩
      rw [Session.step.eq_2, hstart]
      rfl

theorem follows_start {session : Session} {steps : List Step}
    (hgranted : ∀ fault, ((session.run steps).step .start).2 ≠ .refused fault) :
    session.Follows (steps ++ [.start]) := by
  obtain ⟨log, outlets, hstart, hlog⟩ := exists_started hgranted
  constructor
  · intro settings hgoverned
    rw [run_concat, hlog]
    rcases governed_concat_iff.mp hgoverned with ⟨-, rfl, henable⟩ | ⟨hne, -⟩
    · rw [← session.outside_run steps]
      exact started_of_start henable hstart
    · exact absurd rfl hne
  · intro hnone
    rw [run_concat, hlog]
    by_cases henable : ((session.run steps).settings .enable).isOn = true
    · exact absurd (governed_concat_iff.mpr (.inl ⟨rfl, rfl, henable⟩)) (hnone _)
    · rw [start, if_neg henable] at hstart
      cases hstart
      rfl

theorem Follows.concat {session : Session} {steps : List Step} (h : session.Follows steps)
    (step : Step) (hgranted : ∀ fault, ((session.run steps).step step).2 ≠ .refused fault) :
    session.Follows (steps ++ [step]) := by
  cases step with
  | adjust settings => exact h.of_same_log (by simp) (by simp) rfl
  | start => exact follows_start hgranted
  | disable =>
      constructor
      · intro settings hgoverned
        rcases governed_concat_iff.mp hgoverned with ⟨hstep, -⟩ | ⟨-, hne, -⟩
        · cases hstep
        · exact absurd rfl hne
      · intro _
        rw [run_concat]
        rfl
  | tell stamp level source message =>
      apply h.of_same_log (by simp) (by simp)
      rw [Session.step.eq_4]
      split <;> rfl

theorem follows_of_granted {settings : Settings} {outlets : Outlets} {steps : List Step}
    (h : (initial settings outlets).Granted steps) :
    (initial settings outlets).Follows steps := by
  -- From the end of the run, because the latest start is the one that counts.
  induction steps using List.reverseRecOn with
  | nil =>
      refine ⟨?_, fun _ => rfl⟩
      rintro _ ⟨before, after, hsplit, -⟩
      simp at hsplit
  | append_singleton steps step ih =>
      obtain ⟨hbefore, hstep⟩ := granted_concat_iff.mp h
      exact (ih hbefore).concat step hstep

/-! ### Telling the log -/

section Telling

variable {session : Session} {stamp : Stamp} {level : Level} {name : Text} {message : Message}

theorem step_tell (source : Source) :
    session.step (.tell stamp level source.name message) =
      let (outlets, emission) := session.log.emit stamp ⟨level, source, message⟩ session.outlets
      ({ session with outlets }, .told emission) := by
  simp only [step, Source.ofName?_name]

/-- A message is not written, nor spelled, when no source of its name passes. -/
theorem step_tell_unheard
    (h : ∀ source : Source, name = source.name → session.log.passes level source = false) :
    session.step (.tell stamp level name message) = (session, .told .unheard) := by
  cases hname : Source.ofName? name with
  | none => simp only [step, hname]
  | some source =>
      have hsource : name = source.name := by
        have hfound := List.find?_some hname
        exact (of_decide_eq_true hfound).symm
      subst hsource
      rw [step_tell, emit_of_not_passes (h source rfl)]

theorem step_tell_inactive (h : session.log.active = false) :
    session.step (.tell stamp level name message) = (session, .told .unheard) := by
  apply step_tell_unheard
  intro source _
  rw [passes, h, Bool.false_and, Bool.false_and]

end Telling

theorem run_inactive {session : Session} (h : session.log.active = false) {steps : List Step}
    (hs : .start ∉ steps) :
    (session.run steps).log.active = false ∧
      (session.run steps).outlets = session.outlets := by
  induction steps generalizing session with
  | nil => exact ⟨h, rfl⟩
  | cons step rest ih =>
      rw [List.mem_cons, not_or] at hs
      cases step with
      | adjust settings => exact ih h hs.2
      | start => exact absurd rfl hs.1
      | disable => exact ih rfl hs.2
      | tell stamp level source message =>
          rw [run, step_tell_inactive h]
          exact ih h hs.2

theorem sameLines_step (session : Session) {step : Step}
    (h : ∀ stamp level name message, step ≠ .tell stamp level name message) :
    session.outlets.SameLines (session.step step).1.outlets := by
  cases step with
  | adjust settings => exact .refl _
  | start =>
      obtain ⟨after, hsame, -, hstep⟩ := session.step_start
      rw [hstep]
      exact hsame
  | disable => exact .refl _
  | tell stamp level name message => exact absurd rfl (h stamp level name message)

/-- The settings that govern ask for what the source of a name has to tell at a level. -/
structure Asked (session : Session) (steps : List Step) (level : Level) (name : Text)
    (governing : Settings) (source : Source) : Prop where
  governed : session.Governed steps governing
  named : name = source.name
  owed : Owed governing level source

/-- Behind a run in which no start is refused, a message is written when the settings that govern
ask for it, unless it can not be spelled: to the destination of these settings and nowhere else,
line by line if all of its lines can be written there. Otherwise it is not even spelled. Other
steps add no line, and before the first start nothing is written at all. -/
theorem step_of_granted {settings : Settings} {outlets : Outlets} {steps : List Step}
    (h : (initial settings outlets).Granted steps) :
    let session := (initial settings outlets).run steps
    (∀ stamp level name message,
      (∀ governing source,
        (initial settings outlets).Asked steps level name governing source →
        ∃ destination,
          Destination.ofText? outlets.outside.opens (governing .destination).display =
              some destination ∧
            (∀ content, message.spell = .ok content →
              ∃ after,
                session.step (.tell stamp level name message) =
                    ({ session with outlets := after }, .told .written) ∧
                  (outlets.outside.Takes destination
                      (linesFor stamp destination governing level source content) →
                    Outlets.DeliveredInTurn destination session.outlets
                      (linesFor stamp destination governing level source content) after)) ∧
            ∀ fault, message.spell = .error fault →
              session.step (.tell stamp level name message) =
                (session, .told (.failed fault))) ∧
        ((∀ governing source,
            ¬ (initial settings outlets).Asked steps level name governing source) →
          session.step (.tell stamp level name message) = (session, .told .unheard))) ∧
      (∀ step, (∀ stamp level name message, step ≠ .tell stamp level name message) →
        session.outlets.SameLines (session.step step).1.outlets) ∧
      (.start ∉ steps → session.outlets = outlets) := by
  intro session
  have hfollows := follows_of_granted h
  have houtside : session.outlets.outside = outlets.outside := outside_run _ steps
  refine ⟨?_, fun _ hstep => sameLines_step _ hstep, fun hs => (run_inactive rfl hs).2⟩
  intro stamp level name message
  constructor
  · rintro governing source ⟨hgoverned, rfl, howed⟩
    obtain ⟨destination, hstarted⟩ := hfollows.started governing hgoverned
    refine ⟨destination, hstarted.resolved, ?_, ?_⟩
    · intro content hspell
      obtain ⟨after, hemit, hdelivered⟩ := hstarted.emit_written stamp
        ⟨level, source, message⟩ howed hspell session.outlets
      exact ⟨after, by rw [step_tell, hemit], houtside ▸ hdelivered⟩
    · intro fault hspell
      rw [step_tell, hstarted.emit_failed stamp ⟨level, source, message⟩ howed hspell]
  · intro hnone
    by_cases hgoverned :
        ∃ governing, (initial settings outlets).Governed steps governing
    · obtain ⟨governing, hgoverned⟩ := hgoverned
      obtain ⟨destination, hstarted⟩ := hfollows.started governing hgoverned
      apply step_tell_unheard
      intro source hname
      rw [Bool.eq_false_iff, ne_eq, hstarted.passes_iff]
      intro howed
      exact hnone governing source ⟨hgoverned, hname, howed⟩
    · simp only [not_exists] at hgoverned
      exact step_tell_inactive (hfollows.idle hgoverned)

/-- Settings that ask for what the parser warns of, in a file of another directory. -/
def warnings : Settings :=
  ((Settings.preset.assign .parser (.switch true)).assign .level
    (.phrase (text "WARNING"))).assign .destination (.phrase (text "file:/tmp/rip.log"))

/-- Nothing can be opened but one file by its path. -/
def oneFile : Outside :=
  .utf8 fun path => if path = text "/tmp/rip.log" then some (.file path) else none

/-- A process that logs everything on standard error at first, then only warnings to a file. The
settings have changed once more since. -/
def restarted : List Step :=
  [.adjust ((Settings.preset.assign .all (.switch true)).assign .level (.phrase (text "DEBUG"))),
    .start,
    .tell ⟨text "12:34:56", text "4242"⟩ .debug (text "wire") (.plain (text "received")),
    .adjust warnings,
    .start,
    .adjust (Settings.preset.assign .enable (.switch false))]

/-- Both lines go to the file, one after the other. -/
theorem step_of_granted_restarted :
    let stamp : Stamp := ⟨text "12:34:57", text "4242"⟩
    let first := initial Settings.preset ⟨[], [], [], oneFile⟩
    let session := first.run restarted
    first.Granted restarted ∧
      ∃ after,
        session.step (.tell stamp .error (text "parser") (.plain (text "first\nsecond"))) =
            ({ session with outlets := after }, .told .written) ∧
          Outlets.DeliveredInTurn (.file (text "/tmp/rip.log")) session.outlets
            [text "parser     first\n", text "parser     second\n"] after := by
  intro stamp first session
  have hgranted : first.Granted restarted := by
    have hanswers : first.answers restarted =
        [.done, .done, .told .written, .done, .done, .done] := rfl
    intro fault hm
    rw [hanswers] at hm
    simp at hm
  have hgoverned : first.Governed restarted warnings := by
    refine ⟨restarted.take 4, restarted.drop 5, rfl, ?_, rfl, rfl⟩
    simp [restarted]
  have hasked : first.Asked restarted .error (text "parser") warnings .parser :=
    ⟨hgoverned, rfl, .parser rfl, .warning, .named .warning, by decide⟩
  obtain ⟨hwritten, -⟩ := step_of_granted hgranted
  obtain ⟨hlines, -⟩ := hwritten stamp .error (text "parser") (.plain (text "first\nsecond"))
  obtain ⟨destination, hresolved, hlines, -⟩ := hlines _ .parser hasked
  have hdestination : destination = .file (text "/tmp/rip.log") :=
    (Option.some_inj.mp hresolved).symm
  rw [hdestination] at hlines
  obtain ⟨after, hstep, hdelivered⟩ := hlines _ rfl
  refine ⟨hgranted, after, hstep, hdelivered ?_⟩
  exact List.forall_mem_cons.mpr ⟨rfl, List.forall_mem_singleton.mpr rfl⟩

end Session

end RipWire.Log
