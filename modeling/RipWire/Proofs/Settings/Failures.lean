import RipWire.Proofs.Settings.Loading

/-!
# Loads that fail

A load that fails would have to leave everything as it was, and to fail again.
It does so only when there is nothing to fail on: the mark that the
configuration has been loaded is set first, and no later load looks at the
sources again.
-/

namespace RipWire

/-- The settings that are read ahead of a fault. -/
def LoadFault.ahead : LoadFault → List Setting
  | .file _ => []
  | .setting s _ _ => s.ahead

namespace Configuration

/-- When a load fails, every setting has the value that it had, and loading once more reads the
sources again and fails in the same way. -/
def LeavesNoTrace (c : Configuration) (sources : Sources) : Prop :=
  ∀ fault, (c.load sources).2 = .error fault →
    (c.load sources).1.settings = c.settings ∧
      ((c.load sources).1.load sources).2 = .error fault

theorem load_of_loaded {c : Configuration} (hc : c.loaded = true) (sources : Sources) :
    c.load sources = (c, .ok ()) := by
  simp only [load, hc, if_true]

/-- The settings survive a failure exactly when those read ahead of it had their values already. -/
theorem Failure.kept_iff {sources : Sources} {settings after : Settings} {fault : LoadFault}
    (h : Failure sources settings fault after) :
    after = settings ↔ ∀ ini, sources.ini = .ok ini → ∀ s ∈ fault.ahead,
      sources.choice ini s (settings s) = settings s := by
  cases h with
  | file hi => simp [LoadFault.ahead]
  | @setting ini s value reason hi hv hr ha =>
      rw [Settings.given_eq_iff]
      constructor
      · intro h other ho
        rw [hi] at ho
        cases ho
        exact h
      · exact fun h => h ini hi

theorem failure_of_error {c : Configuration} (hc : c.loaded = false) {sources : Sources}
    {fault : LoadFault} (h : (c.load sources).2 = .error fault) :
    ∃ after, Failure sources c.settings fault after := by
  rcases accepted_or_failure sources c.settings with ⟨ini, hi, ha⟩ | ⟨other, after, hf⟩
  · rw [load_of_accepts hc hi ha] at h
    cases h
  · rw [load_of_failure hc hf] at h
    cases h
    exact ⟨after, hf⟩

/-- Only sources without a fault leave no trace of one. Any other are refused once, for the first
fault in them, with everything ahead of it assigned; then the configuration passes for loaded. -/
theorem load_leavesNoTrace_iff {c : Configuration} (hc : c.loaded = false) (sources : Sources) :
    (c.LeavesNoTrace sources ↔ sources.Accepted) ∧
      ∀ fault, (c.load sources).2 = .error fault →
        ∃ after, Failure sources c.settings fault after ∧
          c.load sources = (⟨after, true⟩, .error fault) ∧
          (after = c.settings ↔ ∀ ini, sources.ini = .ok ini → ∀ s ∈ fault.ahead,
            sources.choice ini s (c.settings s) = c.settings s) ∧
          ∀ later, load later ⟨after, true⟩ = (⟨after, true⟩, .ok ()) := by
  refine ⟨⟨?_, ?_⟩, ?_⟩
  · intro h
    rcases accepted_or_failure sources c.settings with hall | ⟨fault, after, hf⟩
    · exact hall
    · have hload := load_of_failure hc hf
      have hagain := (h fault (congrArg Prod.snd hload)).2
      rw [hload, load_of_loaded rfl] at hagain
      cases hagain
  · rintro ⟨ini, hi, ha⟩ fault h
    rw [load_of_accepts hc hi ha] at h
    cases h
  · intro fault h
    obtain ⟨after, hf⟩ := failure_of_error hc h
    exact ⟨after, hf, load_of_failure hc hf, hf.kept_iff, fun later => load_of_loaded rfl later⟩

/-- Logging is turned off, and then a level is given that there is not. -/
def unknownLevel : Sources where
  environment :=
    [(text "ripcodec.log.enable", text "no"), (text "ripcodec.log.level", text "verbose")]
  file := none

theorem load_unknownLevel_once :
    ∃ after, Failure unknownLevel initial.settings
        (.setting .level (text "verbose") (.notLevel (text "verbose"))) after ∧
      (initial.load unknownLevel).1 = ⟨after, true⟩ ∧
      ∀ later, load later ⟨after, true⟩ = (⟨after, true⟩, .ok ()) := by
  have hc : initial.loaded = false := rfl
  obtain ⟨after, hf, hload, -, hlater⟩ := (load_leavesNoTrace_iff hc unknownLevel).2
    (.setting .level (text "verbose") (.notLevel (text "verbose"))) rfl
  exact ⟨after, hf, congrArg Prod.fst hload, hlater⟩

theorem load_unknownLevel_leaves_trace :
    initial.load unknownLevel = (⟨Settings.preset.assign .enable (.switch false), true⟩,
      .error (.setting .level (text "verbose") (.notLevel (text "verbose")))) ∧
      ¬ initial.LeavesNoTrace unknownLevel := by
  refine ⟨rfl, ?_⟩
  intro h
  obtain ⟨hkept, -⟩ := h (.setting .level (text "verbose") (.notLevel (text "verbose"))) rfl
  have henable := congrFun hkept .enable
  cases henable

end Configuration

end RipWire
