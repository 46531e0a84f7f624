import RipWire.Proofs.Settings.IniBreaks
import RipWire.Proofs.Settings.Printed

/-!
# Reading printed settings back

A listing is a configuration: its lines can be set as variables, or be the lines
of a configuration file. The settings are loaded from it again unless the log
destination has white space at its end, or, in a file, a line break in it.
-/

namespace RipWire

/-- The variable that a line sets: a name in front of the first equals sign, the value behind. -/
def assigned (line : Text) : Text × Text :=
  (line.takeWhile (· ≠ 61), (line.dropWhile (· ≠ 61)).tail)

namespace Settings

variable (settings : Settings)

/-- The lines of a listing as the only variables, and no configuration file. -/
def asEnvironment (onlyChanged : Bool) : Sources :=
  ⟨(settings.asVariables onlyChanged).map assigned, none⟩

/-- The lines of a listing as the configuration file, and no variables. -/
def asFile (onlyChanged : Bool) : Sources :=
  ⟨[], some ((settings.asIni onlyChanged).flatMap (· ++ [10]))⟩

/-- The settings are loaded from sources, starting from the default values. -/
def LoadedFrom (sources : Sources) : Prop :=
  Configuration.initial.load sources = (⟨settings, true⟩, .ok ())

end Settings

theorem assigned_variable (s : Setting) (value : Text) :
    assigned (s.dottedName ++ text "=" ++ value) = (s.dottedName, value) := by
  have hname : ∀ c ∈ s.dottedName, decide (c ≠ 61) = true := by
    have hevery : ∀ s ∈ Setting.every, ∀ c ∈ s.dottedName, decide (c ≠ 61) = true := by decide
    exact hevery s s.mem_every
  rw [assigned, List.append_assoc, List.takeWhile_append_of_pos hname,
    List.dropWhile_append_of_pos hname]
  simp [text]

theorem Setting.dottedName_injective : Function.Injective dottedName := by
  have hnodup : (every.map dottedName).Nodup := by decide
  exact fun s t h => List.inj_on_of_nodup_map hnodup s.mem_every t.mem_every h

theorem Setting.dottedName_ne_plainName (s t : Setting) : s.dottedName ≠ t.plainName := by
  have hevery : ∀ s ∈ every, ∀ t ∈ every, s.dottedName ≠ t.plainName := by decide
  exact hevery s s.mem_every t t.mem_every

namespace Settings

variable (settings : Settings) (onlyChanged : Bool)

theorem environment_eq : (settings.asEnvironment onlyChanged).environment =
    (settings.listed onlyChanged).map fun s => (s.dottedName, (settings s).display) := by
  rw [asEnvironment, asVariables, List.map_map]
  exact List.map_congr_left fun s _ => assigned_variable s _

variable {settings onlyChanged}

theorem given?_listed {s : Setting} (hs : s ∈ settings.listed onlyChanged) :
    (settings.asEnvironment onlyChanged).given? s.dottedName = some (settings s).display := by
  have hfound : ((settings.listed onlyChanged).map fun s =>
      (s.dottedName, (settings s).display)).find? (fun entry => entry.1 = s.dottedName) =
        some (s.dottedName, (settings s).display) := by
    refine find?_of_unique (List.mem_map.mpr ⟨s, hs, rfl⟩) (by simp) fun entry hm hname => ?_
    obtain ⟨t, -, rfl⟩ := List.mem_map.mp hm
    rw [Setting.dottedName_injective (of_decide_eq_true hname)]
  rw [Sources.given?, environment_eq, hfound, Option.map_some]

theorem given?_of_ne {name : Text}
    (h : ∀ s ∈ settings.listed onlyChanged, s.dottedName ≠ name) :
    (settings.asEnvironment onlyChanged).given? name = none := by
  rw [Sources.given?, environment_eq, Option.map_eq_none_iff, List.find?_eq_none]
  intro entry hm hname
  obtain ⟨t, ht, rfl⟩ := List.mem_map.mp hm
  exact h t ht (of_decide_eq_true hname)

theorem shownBy_asEnvironment :
    settings.ShownBy onlyChanged (settings.asEnvironment onlyChanged) Ini.empty where
  readable := rfl
  listed := fun s hs => by
    simp [Sources.value?, given?_listed hs]
  others := fun s hs => by
    have hdotted : (settings.asEnvironment onlyChanged).given? s.dottedName = none := by
      refine given?_of_ne fun t ht h => hs ?_
      rwa [← Setting.dottedName_injective h]
    have hplain : (settings.asEnvironment onlyChanged).given? s.plainName = none :=
      given?_of_ne fun t _ => t.dottedName_ne_plainName s
    simp [Sources.value?, hdotted, hplain, Ini.find?, Ini.empty]

theorem value?_asFile (ini : Ini) (s : Setting) :
    (settings.asFile onlyChanged).value? ini s = ini.find? s.heading s.option := by
  simp [Sources.value?, Sources.given?, asFile]

theorem shownBy_asFile (hheld : settings.Held)
    (hsolid : (settings .destination).display.EndsSolid)
    (hline : (settings .destination).display.OneLine) :
    ∃ ini, settings.ShownBy onlyChanged (settings.asFile onlyChanged) ini := by
  have hlines : ∀ line ∈ settings.asIni onlyChanged, line.OneLine := by
    refine settings.oneLine_asIni fun s => ?_
    by_cases hs : s = .destination
    · rw [hs]
      exact hline
    · exact hheld.oneLine hs
  have hvalues : ∀ s ∈ settings.listed onlyChanged, (settings s).display.StartsSolid :=
    fun s _ => hheld.startsSolid s
  obtain ⟨after, hsteps, hentries, hstray, hheadings⟩ := Ini.steps_asIni hvalues
  let ini : Ini := ⟨after.headings, after.entries⟩
  have hread : Ini.read ((settings.asIni onlyChanged).flatMap (· ++ [10])) = .ok ini := by
    refine Ini.read_ok_iff.mpr ⟨after, ?_, hstray, rfl⟩
    rw [Text.fileLines_of_oneLine hlines, hsteps]
  have hvalue (s : Setting) :
      (settings s).display.trimRight.trimRight = (settings s).display := by
    have hlast := hheld.endsSolid hsolid s
    rw [Text.trimRight_eq_self hlast, Text.trimRight_eq_self hlast]
  refine ⟨ini, hread, ?_, ?_⟩
  · intro s hs
    have hfound : ini.find? s.heading s.option = _ := Ini.find?_entry hentries hheadings hs
    rw [value?_asFile, hfound, hvalue]
  · intro s hs
    have hnone : ini.find? s.heading s.option = none := Ini.find?_of_unlisted hentries hs
    rw [value?_asFile, hnone]

theorem loadedFrom_asEnvironment_iff (hheld : settings.Held) :
    settings.LoadedFrom (settings.asEnvironment onlyChanged) ↔
      (settings .destination).display.EndsSolid :=
  hheld.load_iff shownBy_asEnvironment

theorem destination_of_loadedFrom (hheld : settings.Held)
    (hm : Setting.destination ∈ settings.listed onlyChanged)
    (h : settings.LoadedFrom (settings.asFile onlyChanged)) :
    (settings .destination).display.EndsSolid ∧ (settings .destination).display.OneLine := by
  obtain ⟨ini, hread, haccepts, hloaded⟩ := (Configuration.load_ok_iff rfl _).mp h
  have hsettings : settings = Settings.preset.given _ ini Setting.every :=
    congrArg Configuration.settings hloaded
  have hchosen : settings .destination =
      (settings.asFile onlyChanged).choice ini .destination Setting.destination.preset := by
    have happlied := congrFun hsettings .destination
    rwa [given_every] at happlied
  cases hfound : ini.find? Setting.destination.heading Setting.destination.option with
  | none =>
      rw [hchosen, Sources.choice_of_none ((value?_asFile ini _).trans hfound)]
      decide
  | some value =>
      have hvalue : (settings.asFile onlyChanged).value? ini .destination = some value :=
        (value?_asFile ini _).trans hfound
      obtain ⟨choice, hchoice⟩ := haccepts _ _ hvalue
      obtain ⟨v, hv, rfl⟩ := Checks.map_ok_iff.mp hchoice
      have hdisplay : (settings .destination).display = value.unquoted := by
        rw [hchosen, Sources.choice_of_ok hvalue hchoice]
        exact Choice.readDestination_eq hv
      have hfits := Ini.found_of_read hheld hm hread hfound
      rw [hdisplay] at hfits ⊢
      have hsub := Text.unquoted_sublist value
      rcases hfits with ⟨hle, hone⟩ | hlt
      · have hsame : value.unquoted = value := hsub.eq_of_length_le hle
        rw [hsame]
        exact ⟨(Text.unquoted_eq_self_iff.mp hsame).1.last, hone⟩
      · exact absurd hsub.length_le (Nat.not_le_of_lt hlt)

theorem loadedFrom_asFile_iff (hheld : settings.Held) :
    settings.LoadedFrom (settings.asFile onlyChanged) ↔
      (settings .destination).display.EndsSolid ∧ (settings .destination).display.OneLine := by
  constructor
  · intro h
    by_cases hm : Setting.destination ∈ settings.listed onlyChanged
    · exact destination_of_loadedFrom hheld hm h
    · rw [preset_of_unlisted hm]
      decide
  · rintro ⟨hsolid, hone⟩
    obtain ⟨ini, hshown⟩ := shownBy_asFile hheld hsolid hone
    exact (hheld.load_iff hshown).mpr hsolid

end Settings

namespace Configuration

/-- Settings that were loaded are loaded again from a listing of them, whether it leaves out what
has its default value or not, unless the log destination ends with white space or, for a file,
has a line break in it. -/
theorem loadedFrom_listing_iff {sources : Sources} {c : Configuration}
    (h : initial.load sources = (c, .ok ())) (onlyChanged : Bool) :
    (c.settings.LoadedFrom (c.settings.asEnvironment onlyChanged) ↔
      (c.settings .destination).display.EndsSolid) ∧
    (c.settings.LoadedFrom (c.settings.asFile onlyChanged) ↔
      (c.settings .destination).display.EndsSolid ∧
        (c.settings .destination).display.OneLine) :=
  ⟨Settings.loadedFrom_asEnvironment_iff (Settings.held_of_load h),
    Settings.loadedFrom_asFile_iff (Settings.held_of_load h)⟩

/-- One variable, the log destination. -/
def destinationGiven (value : Text) : Sources :=
  ⟨[(Setting.destination.dottedName, value)], none⟩

/-- A destination with a line break in it is loaded again from variables, and not from a file. -/
theorem loadedFrom_listing_of_lineBreak :
    ∃ c, initial.load (destinationGiven (text "file:a\nb")) = (c, .ok ()) ∧
      c.settings.LoadedFrom (c.settings.asEnvironment true) ∧
      ¬ c.settings.LoadedFrom (c.settings.asFile true) := by
  have hload : initial.load (destinationGiven (text "file:a\nb")) =
      ((initial.load (destinationGiven (text "file:a\nb"))).1, .ok ()) := rfl
  have hiff := loadedFrom_listing_iff hload true
  exact ⟨_, hload, hiff.1.mpr (by decide), fun h => absurd (hiff.2.mp h).2 (by decide)⟩

/-- White space at the end of a destination, given between quote marks, is not loaded again. -/
theorem not_loadedFrom_listing_of_blank_end :
    ∃ c, initial.load (destinationGiven (text "\"file:x \"")) = (c, .ok ()) ∧
      ∀ onlyChanged, ¬ c.settings.LoadedFrom (c.settings.asEnvironment onlyChanged) ∧
        ¬ c.settings.LoadedFrom (c.settings.asFile onlyChanged) := by
  have hload : initial.load (destinationGiven (text "\"file:x \"")) =
      ((initial.load (destinationGiven (text "\"file:x \""))).1, .ok ()) := rfl
  have hheld := Settings.held_of_load hload
  refine ⟨_, hload, fun onlyChanged => ⟨?_, ?_⟩⟩
  · exact mt (Settings.loadedFrom_asEnvironment_iff hheld).mp (by decide)
  · exact fun h => absurd ((Settings.loadedFrom_asFile_iff hheld).mp h).1 (by decide)

end Configuration

end RipWire
