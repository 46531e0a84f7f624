import RipWire.Proofs.Settings.IniFile
import RipWire.Proofs.Settings.IniGrowth
import RipWire.Proofs.Settings.Printed

/-!
# Destinations with line breaks

A destination with a line break in it takes up several lines of a listing. What
is found for it in the file that the listing makes has no line break, or is
shorter than the destination: the lines behind the first count as part of the
value only if they are indented, and are found without that.
-/

namespace RipWire

open Ini (Continuing Progress steps)

namespace Settings

variable (settings : Settings)

theorem sectionLines_around {front : List Setting} {s : Setting}
    (hs : ∀ t ∈ front, t.heading = s.heading) (more : List Setting) :
    settings.sectionLines (front ++ s :: more) =
      s.headingLine :: front.map settings.shownLine ++
        settings.shownLine s :: more.map settings.shownLine := by
  have hlines : (front ++ s :: more).map settings.shownLine =
      front.map settings.shownLine ++ settings.shownLine s :: more.map settings.shownLine := by simp
  rw [List.cons_append, ← hlines]
  cases front with
  | nil => rfl
  | cons t front =>
      rw [List.cons_append, sectionLines, Setting.headingLine, hs t List.mem_cons_self,
        Setting.headingLine]

theorem mem_sectionLines {line : Text} {ss : List Setting}
    (h : line ∈ settings.sectionLines ss) :
    ∃ s ∈ ss, line = s.headingLine ∨ line = settings.shownLine s := by
  cases ss with
  | nil => exact absurd h List.not_mem_nil
  | cons s ss =>
      rcases List.mem_cons.mp h with h | h
      · exact ⟨s, List.mem_cons_self, .inl h⟩
      · obtain ⟨t, ht, rfl⟩ := List.mem_map.mp h
        exact ⟨t, ht, .inr rfl⟩

theorem asIni_around {onlyChanged : Bool}
    (hm : Setting.destination ∈ settings.listed onlyChanged) :
    ∃ (front : List Setting) (behind : List Text),
      settings.asIni onlyChanged =
        Setting.destination.headingLine :: front.map settings.shownLine ++
          settings.shownLine .destination :: behind ∧
      (∀ s ∈ front, s.heading = Setting.destination.heading) ∧ front.Nodup ∧
      Setting.destination ∉ front ∧
      ∀ line ∈ behind, ∃ s : Setting, line = s.headingLine ∨
        s ≠ .destination ∧ line = settings.shownLine s := by
  obtain ⟨opened, back, hl, hopened, hback⟩ := settings.listed_sections onlyChanged
  have hnodup := settings.nodup_listed onlyChanged
  have hlines := settings.asIni_sections hl hopened hback
  rw [hl] at hm hnodup
  have hnotBack : Setting.destination ∉ back := by
    intro h
    exact absurd (hback _ h) (by decide)
  obtain ⟨front, more, rfl⟩ :=
    List.append_of_mem ((List.mem_append.mp hm).resolve_right hnotBack)
  obtain ⟨hnodupOpened, -, -⟩ := List.nodup_append.mp hnodup
  obtain ⟨hnodupFront, hnodupMore, hdisjoint⟩ := List.nodup_append.mp hnodupOpened
  have hfront : ∀ s ∈ front, s.heading = Setting.destination.heading :=
    fun s hs => hopened s (List.mem_append_left _ hs)
  refine ⟨front, more.map settings.shownLine ++ settings.sectionLines back, ?_, hfront,
    hnodupFront, ?_, ?_⟩
  · rw [hlines, settings.sectionLines_around hfront]
    simp
  · intro h
    exact hdisjoint _ h _ List.mem_cons_self rfl
  · intro line h
    rcases List.mem_append.mp h with h | h
    · obtain ⟨s, hs, rfl⟩ := List.mem_map.mp h
      refine ⟨s, .inr ⟨?_, rfl⟩⟩
      rintro rfl
      exact (List.nodup_cons.mp hnodupMore).1 hs
    · obtain ⟨s, hs, rfl | rfl⟩ := settings.mem_sectionLines h
      · exact ⟨s, .inl rfl⟩
      · refine ⟨s, .inr ⟨?_, rfl⟩⟩
        rintro rfl
        exact hnotBack hs

end Settings

namespace Ini

theorem not_continuing_headingLine (s : Setting) : ¬ Continuing (s.headingLine ++ [10]) := by
  rintro (h | h)
  · cases s <;> exact absurd h (by decide)
  · cases s <;> exact absurd h (by decide)

theorem not_continuing_optionLine (s : Setting) {value : Text} (hv : value.StartsSolid) :
    ¬ Continuing (s.optionLine value ++ [10]) := by
  rintro (h | h)
  · rw [trim_optionLine s hv] at h
    simp [Setting.optionLine, text] at h
  · rw [not_indented s value] at h
    exact absurd h (by decide)

variable {settings : Settings}

theorem steps_front {front : List Setting} (hv : ∀ s ∈ front, (settings s).display.StartsSolid)
    (hs : ∀ s ∈ front, s.heading = Setting.destination.heading) (hnodup : front.Nodup)
    (hother : Setting.destination ∉ front) (rest : List Text) :
    ∃ after number, after.heading = some Setting.destination.heading ∧
      Fresh after [.destination] ∧
      steps 1 start
          ((Setting.destination.headingLine :: front.map settings.shownLine).map (· ++ [10]) ++
            rest) = steps number after rest := by
  have hnew : Fresh start front := fun s _ entry hm => absurd hm List.not_mem_nil
  obtain ⟨after, hgained, hsteps⟩ :=
    steps_section hv hnodup hs (p := start) List.not_mem_nil hnew 1 rest
  have hentries : after.entries = (front.map settings.entry).reverse ++ [] := hgained.entries
  refine ⟨after, 1 + 1 + front.length, hgained.heading, ?_, ?_⟩
  · refine fresh_of_entries hentries ?_ fun s _ entry hm => absurd hm List.not_mem_nil
    intro s hs
    rw [List.mem_singleton.mp hs]
    exact hother
  · rw [List.map_cons, List.map_map]
    exact hsteps

/-- The lines of the file that a listing makes. The destination has one in the listing, and has
made others out of the breaks in it. -/
theorem exists_lines {onlyChanged : Bool} (hheld : settings.Held)
    (hm : Setting.destination ∈ settings.listed onlyChanged) :
    ∃ (front : List Setting) (first : Text) (more behind : List Text),
      Text.fileLines (Text.unixNewlines ((settings.asIni onlyChanged).flatMap (· ++ [10]))) =
        (Setting.destination.headingLine :: front.map settings.shownLine).map (· ++ [10]) ++
          (Setting.destination.optionLine first :: (more ++ behind)).map (· ++ [10]) ∧
      (∀ s ∈ front, s.heading = Setting.destination.heading) ∧ front.Nodup ∧
      Setting.destination ∉ front ∧ first.StartsSolid ∧ first.OneLine ∧
      (Text.join [10] (first :: more)).length ≤ (settings .destination).display.length ∧
      ∀ line ∈ behind.map (· ++ [10]), ¬ Continuing line := by
  obtain ⟨front, behind, hlines, hheading, hnodup, hother, hbehind⟩ := settings.asIni_around hm
  have hopened : ∀ line ∈ Setting.destination.headingLine :: front.map settings.shownLine,
      line.OneLine := by
    refine List.forall_mem_cons.mpr ⟨Setting.oneLine_headingLine _, fun line hl => ?_⟩
    obtain ⟨s, hs, rfl⟩ := List.mem_map.mp hl
    have hne : s ≠ .destination := by
      rintro rfl
      exact hother hs
    exact settings.oneLine_shownLine (hheld.oneLine hne)
  have hname : Text.OneLine (Setting.destination.option ++ text " = ") := by decide
  have hclosed : ∀ line ∈ behind, line.OneLine := by
    intro line hl
    obtain ⟨s, rfl | ⟨hne, rfl⟩⟩ := hbehind line hl
    · exact s.oneLine_headingLine
    · exact settings.oneLine_shownLine (hheld.oneLine hne)
  obtain ⟨first, more, hfile, hlength, hone, hstart⟩ :=
    Text.exists_fileLines hopened hname hclosed (settings .destination).display
  refine ⟨front, first, more, behind, ?_, hheading, hnodup, hother,
    hstart (hheld.startsSolid .destination), hone, hlength, ?_⟩
  · rw [← List.map_append, hlines]
    exact hfile
  · intro line hl
    obtain ⟨content, hc, rfl⟩ := List.mem_map.mp hl
    obtain ⟨s, rfl | ⟨-, rfl⟩⟩ := hbehind content hc
    · exact not_continuing_headingLine s
    · exact not_continuing_optionLine s (hheld.startsSolid s)

theorem found_of_read {ini : Ini} {onlyChanged : Bool} (hheld : settings.Held)
    (hm : Setting.destination ∈ settings.listed onlyChanged)
    (hread : Ini.read ((settings.asIni onlyChanged).flatMap (· ++ [10])) = .ok ini)
    {value : Text}
    (hfound : ini.find? Setting.destination.heading Setting.destination.option = some value) :
    value.length ≤ (settings .destination).display.length ∧ value.OneLine ∨
      value.length < (settings .destination).display.length := by
  obtain ⟨front, first, more, behind, hlines, hheading, hnodup, hother, hsolid, hone, hlength,
    hbehind⟩ := exists_lines hheld hm
  obtain ⟨opened, number, hopen, hfresh, hsteps⟩ :=
    steps_front (fun s _ => hheld.startsSolid s) hheading hnodup hother
      ((Setting.destination.optionLine first :: (more ++ behind)).map (· ++ [10]))
  have hadded := step_optionLine .destination hsolid hopen
    (hfresh _ (List.mem_singleton_self _)) number
  obtain ⟨after, hafter, -, rfl⟩ := read_ok_iff.mp hread
  rw [hlines, hsteps, List.map_cons, steps, hadded, List.map_append] at hafter
  obtain ⟨later, hlater, hgains⟩ := found?_steps (found?_cons rfl) hafter
  -- Only lines that the destination has made can go on with its value.
  have hgained : Gains (more.map (· ++ [10])) _ later := hgains.of_append hbehind
  rw [value_of_found hlater hfound]
  have hshorter : first.trimRight.length ≤ first.length := Text.length_trimRight_le first
  rw [Text.join_cons, List.length_append] at hlength
  rcases value_of_gains (Text.last_trimRight first) hgained with hvalue | hless
  · left
    rw [hvalue]
    exact ⟨by omega, hone.trimRight⟩
  · right
    rw [Text.join_cons, List.length_append] at hless
    omega

end Ini

end RipWire
