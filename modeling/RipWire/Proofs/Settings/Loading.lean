import RipWire.Settings.Configuration

/-!
# Loading the configuration

Settings take their values in the order in which they are listed, up to the
first value that is refused. What was assigned before it stays, and so does the
mark that the configuration has been loaded: a load that fails is never made up
for, however often it is asked for again.
-/

namespace RipWire

namespace Sources

/-- A setting is given nothing, or a value that can be read. -/
def Accepts (sources : Sources) (ini : Ini) (s : Setting) : Prop :=
  ∀ value, sources.value? ini s = some value → ∃ choice, s.read value.unquoted = .ok choice

/-- The configuration file can be read, and so can all that is given for the settings. -/
def Accepted (sources : Sources) : Prop :=
  ∃ ini, sources.ini = .ok ini ∧ ∀ s, sources.Accepts ini s

/-- What a setting is turned into by the value given for it, if any. -/
def choice (sources : Sources) (ini : Ini) (s : Setting) (former : Choice) : Choice :=
  match sources.value? ini s with
  | none => former
  | some value =>
    match s.read value.unquoted with
    | .ok choice => choice
    | .error _ => former

theorem choice_of_none {sources : Sources} {ini : Ini} {s : Setting}
    (hv : sources.value? ini s = none) (former : Choice) :
    sources.choice ini s former = former := by
  simp only [choice, hv]

theorem choice_of_ok {sources : Sources} {ini : Ini} {s : Setting} {value : Text}
    {choice : Choice} (hv : sources.value? ini s = some value)
    (hc : s.read value.unquoted = .ok choice) (former : Choice) :
    sources.choice ini s former = choice := by
  simp only [Sources.choice, hv, hc]

theorem choice_choice (sources : Sources) (ini : Ini) (s : Setting) (former : Choice) :
    sources.choice ini s (sources.choice ini s former) = sources.choice ini s former := by
  unfold choice
  cases sources.value? ini s with
  | none => rfl
  | some value => cases h : s.read value.unquoted <;> simp only [h]

theorem accepts_or_refuses (sources : Sources) (ini : Ini) (s : Setting) :
    sources.Accepts ini s ∨ ∃ value reason, sources.value? ini s = some value ∧
      s.read value.unquoted = .error reason := by
  cases hv : sources.value? ini s with
  | none =>
      left
      intro value h
      rw [hv] at h
      cases h
  | some value =>
      cases hr : s.read value.unquoted with
      | ok choice =>
          left
          intro other h
          rw [hv] at h
          cases h
          exact ⟨choice, hr⟩
      | error reason => exact .inr ⟨value, reason, rfl, hr⟩

end Sources

/-- The settings that are read ahead of one. -/
def Setting.ahead (s : Setting) : List Setting :=
  every.takeWhile (· ≠ s)

namespace Settings

/-- The settings with some of them turned into what is given for them. -/
def given (settings : Settings) (sources : Sources) (ini : Ini) (turned : List Setting) :
    Settings :=
  fun s => if s ∈ turned then sources.choice ini s (settings s) else settings s

variable {sources : Sources} {ini : Ini}

theorem given_nil (settings : Settings) : settings.given sources ini [] = settings := by
  funext s
  simp [given]

theorem given_singleton (settings : Settings) (s : Setting) :
    settings.given sources ini [s] = settings.assign s (sources.choice ini s (settings s)) := by
  funext other
  by_cases h : other = s
  · subst h
    simp [given, assign]
  · simp [given, assign, h]

theorem given_given (settings : Settings) (s : Setting) (rest : List Setting) :
    (settings.given sources ini [s]).given sources ini rest =
      settings.given sources ini (s :: rest) := by
  funext other
  by_cases h : other = s
  · subst h
    by_cases hr : other ∈ rest
    · simp [given, hr, Sources.choice_choice]
    · simp [given, hr]
  · simp [given, h]

theorem given_every (settings : Settings) (s : Setting) :
    settings.given sources ini Setting.every s = sources.choice ini s (settings s) := by
  rw [given, if_pos s.mem_every]

theorem given_eq_iff {settings : Settings} {turned : List Setting} :
    settings.given sources ini turned = settings ↔
      ∀ s ∈ turned, sources.choice ini s (settings s) = settings s := by
  constructor
  · intro h s hm
    have hs := congrFun h s
    rwa [given, if_pos hm] at hs
  · intro h
    funext s
    unfold given
    split
    · next hm => exact h s hm
    · rfl

theorem assign_same (settings : Settings) (s : Setting) :
    settings.assign s (settings s) = settings := by
  funext other
  by_cases h : other = s
  · subst h
    exact assign_self settings other _
  · exact assign_of_ne settings _ h

end Settings

namespace Configuration

variable {sources : Sources} {ini : Ini}

theorem loadAll_cons_of_accepts {s : Setting} (ha : sources.Accepts ini s) (rest : List Setting)
    (settings : Settings) :
    loadAll sources ini (s :: rest) settings =
      loadAll sources ini rest (settings.given sources ini [s]) := by
  rw [loadAll, Settings.given_singleton]
  cases hv : sources.value? ini s with
  | none => rw [Sources.choice_of_none hv, Settings.assign_same]
  | some value =>
      obtain ⟨choice, hc⟩ := ha value hv
      rw [Sources.choice_of_ok hv hc]
      simp only [hc]

theorem loadAll_append {front : List Setting} (ha : ∀ s ∈ front, sources.Accepts ini s)
    (rest : List Setting) (settings : Settings) :
    loadAll sources ini (front ++ rest) settings =
      loadAll sources ini rest (settings.given sources ini front) := by
  -- Every step hands on other settings, so the induction is over all of them.
  induction front generalizing settings with
  | nil => rw [List.nil_append, Settings.given_nil]
  | cons s front ih =>
      obtain ⟨hs, hfront⟩ := List.forall_mem_cons.mp ha
      rw [List.cons_append, loadAll_cons_of_accepts hs, ih hfront,
        Settings.given_given]

theorem loadAll_of_accepts {ss : List Setting} (ha : ∀ s ∈ ss, sources.Accepts ini s)
    (settings : Settings) :
    loadAll sources ini ss settings = (settings.given sources ini ss, .ok ()) := by
  have h := loadAll_append ha [] settings
  rwa [List.append_nil] at h

theorem loadAll_cons_of_refused {s : Setting} {value : Text} {reason : ChoiceFault}
    (hv : sources.value? ini s = some value) (hr : s.read value.unquoted = .error reason)
    (rest : List Setting) (settings : Settings) :
    loadAll sources ini (s :: rest) settings = (settings, .error (.setting s value reason)) := by
  simp only [loadAll, hv, hr]

theorem accepts_or_first_refused (sources : Sources) (ini : Ini) (ss : List Setting) :
    (∀ s ∈ ss, sources.Accepts ini s) ∨
      ∃ front s back, ss = front ++ s :: back ∧ (∀ other ∈ front, sources.Accepts ini other) ∧
        ∃ value reason, sources.value? ini s = some value ∧
          s.read value.unquoted = .error reason := by
  induction ss with
  | nil => exact .inl (by simp)
  | cons s ss ih =>
      rcases sources.accepts_or_refuses ini s with hs | hs
      · rcases ih with hall | ⟨front, other, back, rfl, hfront, hother⟩
        · exact .inl (List.forall_mem_cons.mpr ⟨hs, hall⟩)
        · exact .inr ⟨s :: front, other, back, rfl, List.forall_mem_cons.mpr ⟨hs, hfront⟩, hother⟩
      · exact .inr ⟨[], s, ss, rfl, by simp, hs⟩

theorem every_eq_ahead (s : Setting) : ∃ back, Setting.every = s.ahead ++ s :: back := by
  cases s <;> exact ⟨_, rfl⟩

theorem ahead_of_every {front back : List Setting} {s : Setting}
    (he : Setting.every = front ++ s :: back) (hs : s ∉ front) : s.ahead = front := by
  have hfront : ∀ other ∈ front, decide (other ≠ s) = true := by
    intro other hm
    rw [decide_eq_true_eq]
    rintro rfl
    exact hs hm
  rw [Setting.ahead, he, List.takeWhile_append_of_pos hfront]
  simp

/-- What makes a load fail, and the settings that it leaves behind. -/
inductive Failure (sources : Sources) (settings : Settings) : LoadFault → Settings → Prop where
  | file {fault : Ini.Fault} (unreadable : sources.ini = .error fault) :
      Failure sources settings (.file fault) settings
  | setting {ini : Ini} {s : Setting} {value : Text} {reason : ChoiceFault}
      (readable : sources.ini = .ok ini) (given : sources.value? ini s = some value)
      (refused : s.read value.unquoted = .error reason)
      (ahead : ∀ other ∈ s.ahead, sources.Accepts ini other) :
      Failure sources settings (.setting s value reason) (settings.given sources ini s.ahead)

section Unloaded

variable {c : Configuration} (hc : c.loaded = false)

include hc

theorem load_of_accepts (hi : sources.ini = .ok ini) (ha : ∀ s, sources.Accepts ini s) :
    c.load sources = (⟨c.settings.given sources ini Setting.every, true⟩, .ok ()) := by
  have hevery : ∀ s ∈ Setting.every, sources.Accepts ini s := fun s _ => ha s
  have hall := loadAll_of_accepts hevery c.settings
  simp only [load, hc, Bool.false_eq_true, if_false, hi, hall]

theorem load_of_failure {fault : LoadFault} {after : Settings}
    (h : Failure sources c.settings fault after) :
    c.load sources = (⟨after, true⟩, .error fault) := by
  cases h with
  | file hi => simp only [load, hc, Bool.false_eq_true, if_false, hi]
  | @setting ini s value reason hi hv hr ha =>
      obtain ⟨back, he⟩ := every_eq_ahead s
      have hahead := loadAll_append ha (s :: back) c.settings
      rw [← he, loadAll_cons_of_refused hv hr] at hahead
      simp only [load, hc, Bool.false_eq_true, if_false, hi, hahead]

end Unloaded

theorem accepted_or_failure (sources : Sources) (settings : Settings) :
    sources.Accepted ∨ ∃ fault after, Failure sources settings fault after := by
  cases hi : sources.ini with
  | error fault => exact .inr ⟨_, _, .file hi⟩
  | ok ini =>
      rcases accepts_or_first_refused sources ini Setting.every with
        hall | ⟨front, s, back, he, hfront, value, reason, hv, hr⟩
      · exact .inl ⟨ini, hi, fun s => hall s s.mem_every⟩
      · have hs : s ∉ front := by
          intro hm
          obtain ⟨choice, hc⟩ := hfront s hm value hv
          rw [hr] at hc
          cases hc
        have hahead := ahead_of_every he hs
        exact .inr ⟨_, _, .setting hi hv hr (by rw [hahead]; exact hfront)⟩

theorem load_ok_iff {c after : Configuration} (hc : c.loaded = false) (sources : Sources) :
    c.load sources = (after, .ok ()) ↔
      ∃ ini, sources.ini = .ok ini ∧ (∀ s, sources.Accepts ini s) ∧
        after = ⟨c.settings.given sources ini Setting.every, true⟩ := by
  constructor
  · intro h
    rcases accepted_or_failure sources c.settings with ⟨ini, hi, ha⟩ | ⟨fault, settings, hf⟩
    · rw [load_of_accepts hc hi ha] at h
      cases h
      exact ⟨ini, hi, ha, rfl⟩
    · rw [load_of_failure hc hf] at h
      cases h
  · rintro ⟨ini, hi, ha, rfl⟩
    exact load_of_accepts hc hi ha

end Configuration

end RipWire
