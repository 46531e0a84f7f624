import RipWire.Proofs.Fault.Checks
import RipWire.Proofs.Settings.Loading
import RipWire.Proofs.Text.Lines
import RipWire.Settings.Basic

/-!
# Printed values

The value of a setting that was loaded is printed as a text that is read as the
same value, with one exception. White space between quote marks belongs to a log
destination; printed without the marks, it is lost when it stands at the end.
-/

namespace RipWire

open Text (Bare isBlank isQuoteMark)

namespace Text

/-- White space is not the last that a text has. -/
def EndsSolid (t : Text) : Prop :=
  ∀ c ∈ t.getLast?, isBlank c = false

instance (t : Text) : Decidable t.EndsSolid :=
  inferInstanceAs (Decidable (∀ c ∈ t.getLast?, _))

theorem bare_of_trimBy_eq {dropped : CodePoint → Bool} {t : Text} (h : t.trimBy dropped = t) :
    Bare dropped t := by
  rw [← h]
  exact bare_trimBy t

theorem unquoted_sublist (t : Text) : t.unquoted.Sublist t :=
  (trimBy_sublist isQuoteMark t.trim).trans (trimBy_sublist isBlank t)

theorem unquoted_eq_self_iff {t : Text} :
    t.unquoted = t ↔ Bare isBlank t ∧ Bare isQuoteMark t := by
  constructor
  · intro h
    have hlength : t.length ≤ t.trim.length := by
      have hle := (trimBy_sublist isQuoteMark t.trim).length_le
      rw [unquoted] at h
      rwa [h] at hle
    have htrim : t.trim = t := (trimBy_sublist isBlank t).eq_of_length_le hlength
    rw [unquoted, htrim] at h
    exact ⟨bare_of_trimBy_eq htrim, bare_of_trimBy_eq h⟩
  · rintro ⟨hb, hq⟩
    rw [unquoted, trim, trimBy_eq_self hb, trimBy_eq_self hq]

end Text

namespace Choice

theorem readDestination_eq {value v : Text} (h : readDestination value = .ok v) : v = value := by
  unfold readDestination at h
  split at h
  · cases h
    rfl
  · split at h
    · cases h
      rfl
    · cases h

theorem startsSolid_of_readDestination {v : Text} (h : readDestination v = .ok v) :
    v.StartsSolid := by
  unfold readDestination at h
  split at h
  · next hstream => rcases hstream with rfl | rfl <;> exact ⟨_, _, rfl, by decide⟩
  · split at h
    · next hfile =>
        obtain ⟨path, rfl⟩ := List.isPrefixOf_iff_prefix.mp hfile.1
        exact ⟨_, _, rfl, by decide⟩
    · cases h

theorem readLevel_mem {value level : Text} (h : readLevel value = .ok level) : level ∈ levels := by
  unfold readLevel at h
  split at h
  · next hlevel =>
      cases h
      exact hlevel
  · cases h

end Choice

namespace Setting

/-- The values that a setting can be given: of a destination, the texts without quote marks at
their ends. -/
inductive Holds : Setting → Choice → Prop where
  | switch {s : Setting} (on : Bool) (notLevel : s ≠ .level) (notDestination : s ≠ .destination) :
      Holds s (.switch on)
  | level {name : Text} (known : name ∈ Choice.levels) : Holds .level (.phrase name)
  | destination {v : Text} (accepted : Choice.readDestination v = .ok v)
      (bare : Bare isQuoteMark v) : Holds .destination (.phrase v)

/-- The texts that switches and levels are printed as. -/
def words : List Text :=
  text "true" :: text "false" :: Choice.levels

theorem Holds.mem_words {s : Setting} {choice : Choice} (h : s.Holds choice)
    (hs : s ≠ .destination) : choice.display ∈ words := by
  cases h with
  | switch on => cases on <;> decide
  | level known => exact List.mem_cons_of_mem _ (List.mem_cons_of_mem _ known)
  | destination => exact absurd rfl hs

theorem holds_preset (s : Setting) : s.Holds s.preset := by
  cases s with
  | level => exact .level (by decide)
  | destination => exact .destination rfl ⟨by decide, by decide⟩
  | _ => exact .switch _ (by decide) (by decide)

theorem holds_of_read {s : Setting} {value : Text} {choice : Choice}
    (h : s.read value.unquoted = .ok choice) : s.Holds choice := by
  have hswitch (hl : s ≠ .level) (hd : s ≠ .destination)
      (hr : (Choice.readBoolean value.unquoted).map Choice.switch = .ok choice) :
      s.Holds choice := by
    obtain ⟨on, -, rfl⟩ := Checks.map_ok_iff.mp hr
    exact .switch on hl hd
  cases s with
  | level =>
      obtain ⟨name, hname, rfl⟩ := Checks.map_ok_iff.mp h
      exact .level (Choice.readLevel_mem hname)
  | destination =>
      obtain ⟨v, hv, rfl⟩ := Checks.map_ok_iff.mp h
      cases Choice.readDestination_eq hv
      exact .destination hv (Text.bare_trimBy _)
  | _ => exact hswitch (by decide) (by decide) h

/-- A value is read from what it is printed as, unless that ends with white space. -/
theorem Holds.read_display_iff {s : Setting} {choice : Choice} (h : s.Holds choice) :
    s.read choice.display.unquoted = .ok choice ↔ choice.display.EndsSolid := by
  cases h with
  | switch on hl hd =>
      have hsolid : (Choice.switch on).display.EndsSolid := by cases on <;> decide
      refine ⟨fun _ => hsolid, fun _ => ?_⟩
      cases s with
      | level => exact absurd rfl hl
      | destination => exact absurd rfl hd
      | _ => cases on <;> rfl
  | level known =>
      simp only [Choice.levels, List.mem_cons, List.not_mem_nil, or_false] at known
      rcases known with rfl | rfl | rfl | rfl | rfl <;>
        exact ⟨fun _ => (by decide), fun _ => rfl⟩
  | @destination v accepted bare =>
      rw [Choice.display]
      constructor
      · intro hread
        obtain ⟨w, hw, hphrase⟩ := Checks.map_ok_iff.mp hread
        cases hphrase
        have hsame := Choice.readDestination_eq hw
        exact (Text.unquoted_eq_self_iff.mp hsame.symm).1.last
      · intro hlast
        have hsame : v.unquoted = v := Text.unquoted_eq_self_iff.mpr
          ⟨⟨(Choice.startsSolid_of_readDestination accepted).first, hlast⟩, bare⟩
        rw [hsame, Setting.read, accepted]
        rfl

end Setting

namespace Settings

/-- Every setting has a value that it can be given. -/
def Held (settings : Settings) : Prop :=
  ∀ s : Setting, s.Holds (settings s)

theorem held_of_load {sources : Sources} {c : Configuration}
    (h : Configuration.initial.load sources = (c, .ok ())) : c.settings.Held := by
  obtain ⟨ini, -, -, rfl⟩ := (Configuration.load_ok_iff rfl sources).mp h
  intro s
  have hs : (Settings.preset.given sources ini Setting.every) s =
      sources.choice ini s s.preset := given_every _ s
  simp only [Configuration.initial, hs, Sources.choice]
  split
  · exact s.holds_preset
  · split
    · next hread => exact Setting.holds_of_read hread
    · exact s.holds_preset

theorem preset_of_unlisted {settings : Settings} {onlyChanged : Bool} {s : Setting}
    (h : s ∉ settings.listed onlyChanged) : settings s = s.preset := by
  by_contra hchanged
  exact h (List.mem_filter.mpr ⟨s.mem_every, by simp [hchanged]⟩)

theorem Held.endsSolid {settings : Settings} (h : settings.Held)
    (hd : (settings .destination).display.EndsSolid) (s : Setting) :
    (settings s).display.EndsSolid := by
  have hwords : ∀ word ∈ Setting.words, word.EndsSolid := by decide
  by_cases hs : s = .destination
  · rw [hs]
    exact hd
  · exact hwords _ ((h s).mem_words hs)

theorem Held.startsSolid {settings : Settings} (h : settings.Held) (s : Setting) :
    (settings s).display.StartsSolid := by
  have hwords : ∀ word ∈ Setting.words, word.StartsSolid := by decide
  by_cases hs : s = .destination
  · rw [hs]
    have hd := h .destination
    generalize settings .destination = choice at hd
    cases hd with
    | switch on hl hd => exact absurd rfl hd
    | destination accepted => exact Choice.startsSolid_of_readDestination accepted
  · exact hwords _ ((h s).mem_words hs)

theorem Held.oneLine {settings : Settings} (h : settings.Held) {s : Setting}
    (hs : s ≠ .destination) : (settings s).display.OneLine := by
  have hwords : ∀ word ∈ Setting.words, word.OneLine := by decide
  exact hwords _ ((h s).mem_words hs)

/-- Sources that hold what a listing shows, and nothing else. -/
structure ShownBy (settings : Settings) (onlyChanged : Bool) (sources : Sources) (ini : Ini) :
    Prop where
  readable : sources.ini = .ok ini
  listed : ∀ s ∈ settings.listed onlyChanged, sources.value? ini s = some (settings s).display
  others : ∀ s ∉ settings.listed onlyChanged, sources.value? ini s = none

section ShownBy

variable {settings : Settings} {onlyChanged : Bool} {sources : Sources} {ini : Ini}

theorem Held.load_of_endsSolid (h : settings.Held) (hs : settings.ShownBy onlyChanged sources ini)
    (hd : (settings .destination).display.EndsSolid) :
    Configuration.initial.load sources = (⟨settings, true⟩, .ok ()) := by
  have hread (s : Setting) : s.read (settings s).display.unquoted = .ok (settings s) :=
    (h s).read_display_iff.mpr (h.endsSolid hd s)
  rw [Configuration.load_ok_iff rfl]
  refine ⟨ini, hs.readable, ?_, ?_⟩
  · intro s value hv
    by_cases hm : s ∈ settings.listed onlyChanged
    · rw [hs.listed s hm] at hv
      cases hv
      exact ⟨_, hread s⟩
    · rw [hs.others s hm] at hv
      cases hv
  · congr 1
    funext s
    rw [given_every]
    by_cases hm : s ∈ settings.listed onlyChanged
    · rw [Sources.choice_of_ok (hs.listed s hm) (hread s)]
    · rw [Sources.choice_of_none (hs.others s hm), preset_of_unlisted hm]
      rfl

theorem Held.endsSolid_of_load (h : settings.Held) (hs : settings.ShownBy onlyChanged sources ini)
    (hload : Configuration.initial.load sources = (⟨settings, true⟩, .ok ())) :
    (settings .destination).display.EndsSolid := by
  obtain ⟨other, hi, ha, heq⟩ := (Configuration.load_ok_iff rfl sources).mp hload
  cases hs.readable.symm.trans hi
  by_cases hm : Setting.destination ∈ settings.listed onlyChanged
  · have hv := hs.listed _ hm
    obtain ⟨choice, hread⟩ := ha _ _ hv
    have hgiven : settings .destination = choice := by
      have hcongr := congrArg (fun c : Configuration => c.settings .destination) heq
      simp only [given_every, Sources.choice_of_ok hv hread] at hcongr
      exact hcongr
    rw [← hgiven] at hread
    exact (h .destination).read_display_iff.mp hread
  · rw [preset_of_unlisted hm]
    decide

/-- Settings are loaded from what a listing shows of them, unless it shows a destination that ends
with white space. -/
theorem Held.load_iff (h : settings.Held) (hs : settings.ShownBy onlyChanged sources ini) :
    Configuration.initial.load sources = (⟨settings, true⟩, .ok ()) ↔
      (settings .destination).display.EndsSolid :=
  ⟨h.endsSolid_of_load hs, h.load_of_endsSolid hs⟩

end ShownBy

end Settings

end RipWire
