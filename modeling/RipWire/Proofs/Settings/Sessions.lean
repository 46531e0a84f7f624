import RipWire.Proofs.Settings.Failures
import RipWire.Settings.Session

/-!
# Loading again

A configuration that goes back to the default values and is loaded again depends
on the sources alone, and of these on the variables and the file as they were left
last. What the sources have for a setting decides on it: the first source that
has a value, even an empty one, and the default value when no source has any.
Once it is loaded, a configuration stays the same until something is assigned
to it or it goes back to the default values.
-/

namespace RipWire

/-- The message of a fault starts with the section and the option of a setting. -/
def LoadFault.Names (fault : LoadFault) (s : Setting) : Prop :=
  ∀ file, (text "invalid value for " ++ s.group ++ text "." ++ s.option) <+: fault.message file

namespace Sources

section Decisions

variable (sources : Sources) (ini : Ini) (s : Setting)

/-- The value that a setting has: of the variable with points, or else of the one with
underscores, or else in the configuration file. The value can be an empty text. -/
inductive Defines (value : Text) : Prop where
  | dotted (given : sources.given? s.dottedName = some value)
  | plain (undotted : sources.given? s.dottedName = none)
      (given : sources.given? s.plainName = some value)
  | file (undotted : sources.given? s.dottedName = none)
      (unplain : sources.given? s.plainName = none)
      (found : ini.find? s.heading s.option = some value)

/-- What becomes of a setting with the default value. -/
inductive Decides : Choice → Prop where
  | value {value : Text} {choice : Choice} (defined : sources.Defines ini s value)
      (accepted : s.read value.unquoted = .ok choice) : Decides choice
  | preset (undefined : ∀ value, ¬ sources.Defines ini s value) : Decides s.preset

/-- The value that a setting has is refused. -/
inductive Refuses : LoadFault → Prop where
  | value {value : Text} {reason : ChoiceFault} (defined : sources.Defines ini s value)
      (refused : s.read value.unquoted = .error reason) : Refuses (.setting s value reason)

end Decisions

variable {sources : Sources} {ini : Ini} {s : Setting}

theorem defines_iff {value : Text} :
    sources.Defines ini s value ↔ sources.value? ini s = some value := by
  rw [value?]
  constructor
  · rintro (hd | ⟨hn, hp⟩ | ⟨hn, hu, hf⟩)
    · simp [hd]
    · simp [hn, hp]
    · simp [hn, hu, hf]
  · intro h
    cases hd : sources.given? s.dottedName with
    | some dotted =>
        rw [hd] at h
        cases h
        exact .dotted hd
    | none =>
        cases hp : sources.given? s.plainName with
        | some plain =>
            rw [hd, hp] at h
            cases h
            exact .plain hd hp
        | none =>
            rw [hd, hp] at h
            exact .file hd hp h

theorem decides_choice (h : sources.Accepts ini s) :
    sources.Decides ini s (sources.choice ini s s.preset) := by
  cases hv : sources.value? ini s with
  | none =>
      rw [choice_of_none hv]
      refine .preset fun value hd => ?_
      rw [defines_iff, hv] at hd
      cases hd
  | some value =>
      obtain ⟨choice, hc⟩ := h value hv
      rw [choice_of_ok hv hc]
      exact .value (defines_iff.mpr hv) hc

theorem accepts_of_decides {choice : Choice} (h : sources.Decides ini s choice) :
    sources.Accepts ini s := by
  intro value hv
  cases h with
  | @value other choice hd hc =>
      rw [defines_iff, hv] at hd
      cases hd
      exact ⟨choice, hc⟩
  | preset hn => exact absurd (defines_iff.mpr hv) (hn value)

theorem Refuses.not_decides {fault : LoadFault} (h : sources.Refuses ini s fault)
    (choice : Choice) : ¬ sources.Decides ini s choice := by
  cases h with
  | @value value reason hd hr =>
      intro hdecides
      obtain ⟨chosen, hc⟩ := accepts_of_decides hdecides value (defines_iff.mp hd)
      rw [hr] at hc
      cases hc

theorem Refuses.names {fault : LoadFault} (h : sources.Refuses ini s fault) : fault.Names s := by
  cases h with
  | @value value reason hd hr =>
      intro file
      refine ⟨text " : " ++ value ++ text " (" ++ reason.message ++ text ")", ?_⟩
      simp [LoadFault.message]

/-- What loading from the default values comes to. -/
structure Rules (sources : Sources) (settings : Settings) (result : Except LoadFault Unit) :
    Prop where
  succeeds_iff : result = .ok () ↔
    ∃ ini, sources.ini = .ok ini ∧ ∀ s, ∃ choice, sources.Decides ini s choice
  decided : ∀ ini, sources.ini = .ok ini → result = .ok () →
    ∀ s, sources.Decides ini s (settings s)
  unreadable : ∀ fault, sources.ini = .error fault → result = .error (.file fault)
  refused : ∀ ini fault, sources.ini = .ok ini → result = .error fault →
    ∃ s, sources.Refuses ini s fault ∧ fault.Names s ∧
      ∀ other ∈ s.ahead, ∃ choice, sources.Decides ini other choice

theorem rules_of_accepts {settings : Settings} (hi : sources.ini = .ok ini)
    (hd : ∀ s, sources.Decides ini s (settings s)) : sources.Rules settings (.ok ()) where
  succeeds_iff := ⟨fun _ => ⟨ini, hi, fun s => ⟨_, hd s⟩⟩, fun _ => rfl⟩
  decided := fun other ho _ => by
    rw [hi] at ho
    cases ho
    exact hd
  unreadable := fun fault hu => by
    rw [hi] at hu
    cases hu
  refused := nofun

theorem rules_of_unreadable {fault : Ini.Fault} (hu : sources.ini = .error fault)
    (settings : Settings) : sources.Rules settings (.error (.file fault)) where
  succeeds_iff := by
    refine ⟨nofun, ?_⟩
    rintro ⟨ini, hi, -⟩
    rw [hu] at hi
    cases hi
  decided := nofun
  unreadable := fun other ho => by
    rw [hu] at ho
    cases ho
    rfl
  refused := fun ini _ hi _ => by
    rw [hu] at hi
    cases hi

theorem rules_of_refuses {fault : LoadFault} (hi : sources.ini = .ok ini)
    (hr : sources.Refuses ini s fault) (ha : ∀ other ∈ s.ahead, sources.Accepts ini other)
    (settings : Settings) : sources.Rules settings (.error fault) where
  succeeds_iff := by
    refine ⟨nofun, ?_⟩
    rintro ⟨other, ho, hall⟩
    rw [hi] at ho
    cases ho
    obtain ⟨choice, hd⟩ := hall s
    exact absurd hd (hr.not_decides choice)
  decided := nofun
  unreadable := fun other ho => by
    rw [hi] at ho
    cases ho
  refused := fun other found ho hf => by
    rw [hi] at ho
    cases ho
    cases hf
    exact ⟨s, hr, hr.names, fun t ht => ⟨_, decides_choice (ha t ht)⟩⟩

theorem rules_of_load (sources : Sources) :
    sources.Rules (Configuration.initial.load sources).1.settings
      (Configuration.initial.load sources).2 := by
  have hc : Configuration.initial.loaded = false := rfl
  rcases Configuration.accepted_or_failure sources Settings.preset with
    ⟨ini, hi, ha⟩ | ⟨fault, after, hf⟩
  · have hdecides (s : Setting) :
        sources.Decides ini s (Settings.preset.given sources ini Setting.every s) := by
      rw [Settings.given_every]
      exact decides_choice (ha s)
    rw [Configuration.load_of_accepts hc hi ha]
    exact rules_of_accepts hi hdecides
  · rw [Configuration.load_of_failure hc hf]
    cases hf with
    | file hu => exact rules_of_unreadable hu _
    | setting hi hv hr ha => exact rules_of_refuses hi (.value (defines_iff.mpr hv) hr) ha _

/-! ### Sources that agree -/

/-- Sources with the same file and the same values of the variables of the settings. -/
structure Agrees (sources others : Sources) : Prop where
  dotted : ∀ s : Setting, sources.given? s.dottedName = others.given? s.dottedName
  plain : ∀ s : Setting, sources.given? s.plainName = others.given? s.plainName
  file : sources.file = others.file

variable {others : Sources}

theorem Agrees.value?_eq (h : sources.Agrees others) (ini : Ini) (s : Setting) :
    sources.value? ini s = others.value? ini s := by
  rw [value?, value?, h.dotted s, h.plain s]

theorem Agrees.loadAll_eq (h : sources.Agrees others) (ini : Ini) (ss : List Setting)
    (settings : Settings) :
    Configuration.loadAll sources ini ss settings =
      Configuration.loadAll others ini ss settings := by
  induction ss generalizing settings with
  | nil => rfl
  | cons s ss ih =>
      simp only [Configuration.loadAll, h.value?_eq ini s, ih]

theorem Agrees.load_eq (h : sources.Agrees others) (c : Configuration) :
    c.load sources = c.load others := by
  have hini : sources.ini = others.ini := by rw [Sources.ini, Sources.ini, h.file]
  rw [Configuration.load, Configuration.load, hini]
  cases others.ini with
  | error fault => rfl
  | ok ini => simp only [h.loadAll_eq ini]

end Sources

theorem Configuration.loaded_load (c : Configuration) (sources : Sources) :
    (c.load sources).1.loaded = true := by
  unfold load
  split
  · assumption
  · split
    · rfl
    · rfl

/-- The sources behind steps. No other steps than these three change them. -/
def Sources.after (sources : Sources) : List Session.Step → Sources
  | [] => sources
  | .setVariable name value :: rest => (sources.setVariable name value).after rest
  | .unsetVariable name :: rest => (sources.unsetVariable name).after rest
  | .writeFile content :: rest => (sources.writeFile content).after rest
  | _ :: rest => sources.after rest

namespace Session

theorem sources_run (session : Session) (steps : List Step) :
    (session.run steps).sources = session.sources.after steps := by
  induction steps generalizing session with
  | nil => rfl
  | cons step steps ih => cases step <;> exact ih _

/-- A reset with a setup behind it. -/
def reloaded (session : Session) : Session × Except LoadFault Unit :=
  (session.step .reset).1.step .setup

/-- Steps other than a reset and an unchecked assignment. -/
def Step.Keeps (step : Step) : Prop :=
  step ≠ .reset ∧ ∀ s choice, step ≠ .assign s choice

theorem step_of_loaded {session : Session} (h : session.configuration.loaded = true) {step : Step}
    (hk : step.Keeps) : (session.step step).1.configuration = session.configuration := by
  cases step with
  | assign s choice => exact absurd rfl (hk.2 s choice)
  | reset => exact absurd rfl hk.1
  | setup => exact congrArg Prod.fst (Configuration.load_of_loaded h session.sources)
  | getenv => exact congrArg Prod.fst (Configuration.load_of_loaded h session.sources)
  | _ => rfl

theorem run_of_loaded {session : Session} (h : session.configuration.loaded = true)
    {steps : List Step} (hk : ∀ step ∈ steps, step.Keeps) :
    (session.run steps).configuration = session.configuration := by
  induction steps generalizing session with
  | nil => rfl
  | cons step steps ih =>
      obtain ⟨hstep, hsteps⟩ := List.forall_mem_cons.mp hk
      have hkept := step_of_loaded h hstep
      rw [run, ih (by rw [hkept]; exact h) hsteps, hkept]

/-- A reset and a setup behind any steps follow the rules for the sources as these have left them.
They come to the same behind other steps that have left sources which agree. What a setup or
`getenv` has left, also when it failed, stays until a reset or an assignment. -/
theorem reloaded_run (start : Session) (history : List Step) :
    (start.sources.after history).Rules (start.run history).reloaded.1.configuration.settings
        (start.run history).reloaded.2 ∧
      (∀ (other : Session) (others : List Step),
        (start.sources.after history).Agrees (other.sources.after others) →
          (start.run history).reloaded.2 = (other.run others).reloaded.2 ∧
          (start.run history).reloaded.1.configuration =
            (other.run others).reloaded.1.configuration) ∧
      ∀ (loading : Step) (later : List Step), loading = .setup ∨ loading = .getenv →
        (∀ step ∈ later, step.Keeps) →
          (((start.run history).step loading).1.run later).configuration =
            ((start.run history).step loading).1.configuration := by
  have hsources := sources_run start history
  refine ⟨?_, ?_, ?_⟩
  · rw [← hsources]
    exact Sources.rules_of_load _
  · intro other others hagrees
    rw [← hsources, ← sources_run other others] at hagrees
    have hload := hagrees.load_eq .initial
    have hresult := congrArg Prod.snd hload
    have hconfiguration := congrArg Prod.fst hload
    exact ⟨hresult, hconfiguration⟩
  · intro loading later hloading hk
    refine run_of_loaded ?_ hk
    rcases hloading with rfl | rfl
    · exact Configuration.loaded_load _ _
    · exact Configuration.loaded_load _ _

/-- A file that has a level. -/
def levelFile : Step :=
  .writeFile (some (text "[ripcodec.log]\nlevel = debug\n"))

def emptyVariable : Step :=
  .setVariable Setting.level.dottedName []

/-- The variable is set behind the file, and other steps leave traces. -/
def emptyLevel : List Step :=
  [levelFile, .assign .short (.phrase (text "x")), emptyVariable, .setup, .getenv]

/-- The level in the file is not asked for when a variable is empty, whatever else has happened.
Once it is loaded from the file, the variable comes too late. -/
theorem reloaded_run_emptyLevel :
    (∃ ini s, (initial.sources.after emptyLevel).Refuses ini s
        (.setting .level [] (.notLevel []))) ∧
      (initial.run emptyLevel).reloaded.2 =
        (initial.run [emptyVariable, levelFile]).reloaded.2 ∧
      ((initial.run [levelFile]).step .setup).2 = .ok () ∧
      (((initial.run [levelFile]).step .setup).1.run [emptyVariable, .setup]).configuration =
        ((initial.run [levelFile]).step .setup).1.configuration := by
  let ini : Ini :=
    ⟨[Setting.level.heading], [⟨Setting.level.heading, Setting.level.option, [text "debug"]⟩]⟩
  have hini : (initial.sources.after emptyLevel).ini = .ok ini := rfl
  have hfails : (initial.run emptyLevel).reloaded.2 =
      .error (.setting .level [] (.notLevel [])) := rfl
  have hagrees : (initial.sources.after emptyLevel).Agrees
      (initial.sources.after [emptyVariable, levelFile]) :=
    ⟨fun _ => rfl, fun _ => rfl, rfl⟩
  have hkeeps : ∀ step ∈ [emptyVariable, .setup], step.Keeps := by
    intro step hm
    simp only [List.mem_cons, List.not_mem_nil, or_false] at hm
    rcases hm with rfl | rfl
    · exact ⟨nofun, nofun⟩
    · exact ⟨nofun, nofun⟩
  obtain ⟨hrules, hsame, -⟩ := reloaded_run initial emptyLevel
  obtain ⟨s, hrefuses, -⟩ := hrules.refused ini _ hini hfails
  exact ⟨⟨ini, s, hrefuses⟩, (hsame initial [emptyVariable, levelFile] hagrees).1, rfl,
    (reloaded_run initial [levelFile]).2.2 .setup _ (.inl rfl) hkeeps⟩

end Session

end RipWire
