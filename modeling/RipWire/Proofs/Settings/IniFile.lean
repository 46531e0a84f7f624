import Mathlib.Data.List.Nodup
import RipWire.Proofs.Settings.IniLines
import RipWire.Settings.Basic

/-!
# The file that a listing makes

A listing has its settings in at most two sections. Reading it as a
configuration file leaves one entry for each setting listed, and the value found
for the setting is what was printed, without white space at its end.
-/

namespace RipWire

open Ini (Progress steps)

theorem find?_of_unique {α : Type} {found : α → Bool} {items : List α} {item : α}
    (hm : item ∈ items) (hf : found item = true)
    (hu : ∀ other ∈ items, found other = true → other = item) :
    items.find? found = some item := by
  cases h : items.find? found with
  | none => exact absurd hf (List.find?_eq_none.mp h item hm)
  | some other => rw [hu other (List.mem_of_find?_eq_some h) (List.find?_some h)]

theorem Setting.eq_of_key {s t : Setting} (hh : s.heading = t.heading)
    (ho : s.option = t.option) : s = t := by
  have hkeys : (every.map fun s => (s.heading, s.option)).Nodup := by decide
  exact List.inj_on_of_nodup_map hkeys s.mem_every t.mem_every (Prod.ext hh ho)

namespace Settings

variable (settings : Settings)

/-- The line of a listing that shows a setting. -/
def shownLine (s : Setting) : Text :=
  s.optionLine (settings s).display

/-- What reading that line leaves. -/
def entry (s : Setting) : Ini.Entry :=
  ⟨s.heading, s.option, [(settings s).display.trimRight]⟩

theorem iniLines_of_heading {heading : Text} {ss : List Setting}
    (hs : ∀ s ∈ ss, s.heading = heading) (more : List Setting) :
    settings.iniLines heading (ss ++ more) =
      ss.map settings.shownLine ++ settings.iniLines heading more := by
  induction ss with
  | nil => rfl
  | cons s ss ih =>
      obtain ⟨hfirst, hrest⟩ := List.forall_mem_cons.mp hs
      rw [List.cons_append, iniLines, if_pos hfirst, ih hrest]
      rfl

/-- A section: the heading, and a line for each setting in it. -/
def sectionLines : List Setting → List Text
  | [] => []
  | s :: ss => s.headingLine :: (s :: ss).map settings.shownLine

theorem iniLines_section {former : Text} {s : Setting} {ss : List Setting}
    (hformer : s.heading ≠ former) (hs : ∀ t ∈ ss, t.heading = s.heading) (more : List Setting) :
    settings.iniLines former (s :: ss ++ more) =
      settings.sectionLines (s :: ss) ++ settings.iniLines s.heading more := by
  rw [List.cons_append, iniLines, if_neg hformer, iniLines_of_heading settings hs more]
  rfl

end Settings

namespace Ini

variable {settings : Settings}

/-- The settings of a section have been read, one entry for each, and nothing else has changed. -/
structure Gained (settings : Settings) (ss : List Setting) (p after : Progress) : Prop where
  entries : after.entries = (ss.map settings.entry).reverse ++ p.entries
  headings : after.headings = p.headings
  heading : after.heading = p.heading
  stray : after.stray = p.stray

/-- Nothing has been read yet of some settings. -/
def Fresh (p : Progress) (ss : List Setting) : Prop :=
  ∀ s ∈ ss, ∀ entry ∈ p.entries, ¬ (entry.heading = s.heading ∧ entry.name = s.option)

theorem fresh_of_entries {p : Progress} {others ss : List Setting} {entries : List Entry}
    (he : p.entries = (others.map settings.entry).reverse ++ entries)
    (hdisjoint : ∀ s ∈ ss, s ∉ others)
    (hrest : ∀ s ∈ ss, ∀ entry ∈ entries,
      ¬ (entry.heading = s.heading ∧ entry.name = s.option)) : Fresh p ss := by
  intro s hs entry hm
  rw [he, List.mem_append, List.mem_reverse, List.mem_map] at hm
  rcases hm with ⟨other, hother, rfl⟩ | hm
  · rintro ⟨hh, ho⟩
    cases Setting.eq_of_key hh ho
    exact hdisjoint _ hs hother
  · exact hrest s hs entry hm

/-- Option lines of the section that is open add an entry each. -/
theorem steps_shownLines {ss : List Setting} (hv : ∀ s ∈ ss, (settings s).display.StartsSolid)
    (hnodup : ss.Nodup) {p : Progress} (hp : ∀ s ∈ ss, p.heading = some s.heading)
    (hnew : Fresh p ss) (number : Nat) (rest : List Text) :
    ∃ after, Gained settings ss p after ∧
      steps number p (ss.map (fun s => settings.shownLine s ++ [10]) ++ rest) =
        steps (number + ss.length) after rest := by
  induction ss generalizing p number with
  | nil => exact ⟨p, ⟨rfl, rfl, rfl, rfl⟩, rfl⟩
  | cons s ss ih =>
      obtain ⟨hvalue, hvalues⟩ := List.forall_mem_cons.mp hv
      obtain ⟨hopen, hopens⟩ := List.forall_mem_cons.mp hp
      obtain ⟨hfresh, hfreshes⟩ := List.forall_mem_cons.mp hnew
      obtain ⟨hother, hnodup⟩ := List.nodup_cons.mp hnodup
      let next : Progress :=
        { p with indent := 0, continues := true, entries := settings.entry s :: p.entries }
      have hstep : p.step number (settings.shownLine s ++ [10]) = .ok next :=
        step_optionLine s hvalue hopen hfresh number
      have hdisjoint : ∀ t ∈ ss, t ∉ [s] := by
        intro t ht hm
        rw [List.mem_singleton.mp hm] at ht
        exact hother ht
      have hnext : Fresh next ss := fresh_of_entries rfl hdisjoint hfreshes
      obtain ⟨after, hgained, hsteps⟩ := ih hvalues hnodup (p := next) hopens hnext (number + 1)
      refine ⟨after, ⟨?_, hgained.headings, hgained.heading, hgained.stray⟩, ?_⟩
      · rw [hgained.entries]
        simp [next]
      · have hnumber : number + 1 + ss.length = number + (s :: ss).length := by
          rw [List.length_cons]
          omega
        rw [List.map_cons, List.cons_append, steps, hstep, ← hnumber]
        exact hsteps

/-- The section of a setting has just been opened. -/
def Progress.inSection (p : Progress) (s : Setting) : Progress :=
  { p with
    indent := 0, headings := s.heading :: p.headings, heading := some s.heading,
    continues := false }

/-- A section that is new gains an entry for each of its settings. -/
theorem steps_section {s : Setting} {ss : List Setting}
    (hv : ∀ t ∈ ss, (settings t).display.StartsSolid) (hnodup : ss.Nodup)
    (hs : ∀ t ∈ ss, t.heading = s.heading) {p : Progress} (hclosed : s.heading ∉ p.headings)
    (hnew : Fresh p ss) (number : Nat) (rest : List Text) :
    ∃ after, Gained settings ss (p.inSection s) after ∧
      steps number p
          ((s.headingLine ++ [10]) :: ss.map (fun t => settings.shownLine t ++ [10]) ++ rest) =
        steps (number + 1 + ss.length) after rest := by
  have hopen : ∀ t ∈ ss, (p.inSection s).heading = some t.heading := by
    intro t ht
    rw [hs t ht]
    rfl
  obtain ⟨after, hgained, hsteps⟩ :=
    steps_shownLines hv hnodup (p := p.inSection s) hopen hnew (number + 1) rest
  refine ⟨after, hgained, ?_⟩
  rw [List.cons_append, steps, step_headingLine hclosed]
  exact hsteps

end Ini

namespace Settings

variable (settings : Settings)

theorem mem_iniLines {heading line : Text} {ss : List Setting}
    (h : line ∈ settings.iniLines heading ss) :
    ∃ s ∈ ss, line = s.headingLine ∨ line = settings.shownLine s := by
  induction ss generalizing heading with
  | nil => exact absurd h List.not_mem_nil
  | cons s ss ih =>
      rw [iniLines] at h
      have hrest : ∀ heading, line ∈ settings.iniLines heading ss →
          ∃ t ∈ s :: ss, line = t.headingLine ∨ line = settings.shownLine t := by
        intro heading hm
        obtain ⟨t, ht, hline⟩ := ih hm
        exact ⟨t, List.mem_cons_of_mem _ ht, hline⟩
      split at h
      · rcases List.mem_cons.mp h with h | h
        · exact ⟨s, List.mem_cons_self, .inr h⟩
        · exact hrest _ h
      · rcases List.mem_cons.mp h with h | h
        · exact ⟨s, List.mem_cons_self, .inl h⟩
        · rcases List.mem_cons.mp h with h | h
          · exact ⟨s, List.mem_cons_self, .inr h⟩
          · exact hrest _ h

theorem oneLine_shownLine {s : Setting} (hv : (settings s).display.OneLine) :
    (settings.shownLine s).OneLine := by
  have hname : Text.OneLine (s.option ++ text " = ") := by cases s <;> decide
  exact hname.append hv

theorem oneLine_asIni {onlyChanged : Bool} (hv : ∀ s, (settings s).display.OneLine) :
    ∀ line ∈ settings.asIni onlyChanged, line.OneLine := by
  intro line hm
  obtain ⟨s, -, rfl | rfl⟩ := settings.mem_iniLines hm
  · exact s.oneLine_headingLine
  · exact settings.oneLine_shownLine (hv s)

theorem listed_sections (onlyChanged : Bool) :
    ∃ front back, settings.listed onlyChanged = front ++ back ∧
      (∀ s ∈ front, s.heading = Setting.enable.heading) ∧
      ∀ s ∈ back, s.heading = Setting.traceback.heading := by
  have hfront : ∀ s ∈ Setting.every.take 8, s.heading = Setting.enable.heading := by decide
  have hback : ∀ s ∈ Setting.every.drop 8, s.heading = Setting.traceback.heading := by decide
  refine ⟨(Setting.every.take 8).filter fun s => !(onlyChanged && settings s = s.preset),
    (Setting.every.drop 8).filter fun s => !(onlyChanged && settings s = s.preset), ?_, ?_, ?_⟩
  · rw [← List.filter_append, List.take_append_drop]
    rfl
  · exact fun s hm => hfront s (List.mem_of_mem_filter hm)
  · exact fun s hm => hback s (List.mem_of_mem_filter hm)

theorem nodup_listed (onlyChanged : Bool) : (settings.listed onlyChanged).Nodup :=
  List.Nodup.filter _ (by decide)

theorem asIni_sections {onlyChanged : Bool} {front back : List Setting}
    (hl : settings.listed onlyChanged = front ++ back)
    (hfront : ∀ s ∈ front, s.heading = Setting.enable.heading)
    (hback : ∀ s ∈ back, s.heading = Setting.traceback.heading) :
    settings.asIni onlyChanged = settings.sectionLines front ++ settings.sectionLines back := by
  have hlast (former : Text) (h : former ≠ Setting.traceback.heading) :
      settings.iniLines former back = settings.sectionLines back := by
    cases back with
    | nil => rfl
    | cons s back =>
        obtain ⟨hs, hrest⟩ := List.forall_mem_cons.mp hback
        have hformer : s.heading ≠ former := by
          rw [hs]
          exact h.symm
        have hrest : ∀ t ∈ back, t.heading = s.heading := by
          rw [hs]
          exact hrest
        have hsection := iniLines_section settings hformer hrest []
        simpa [iniLines] using hsection
  rw [asIni, hl]
  cases front with
  | nil => exact hlast [] (by decide)
  | cons s front =>
      obtain ⟨hs, hrest⟩ := List.forall_mem_cons.mp hfront
      have hformer : s.heading ≠ [] := by
        rw [hs]
        decide
      rw [iniLines_section settings hformer (by simpa [hs] using hrest) back, hlast _ (by
        rw [hs]
        decide)]

end Settings

namespace Ini

variable {settings : Settings}

/-- The lines of a section leave an entry for each of its settings, and open the section if it
has any. -/
theorem steps_sectionLines {ss : List Setting} (hv : ∀ s ∈ ss, (settings s).display.StartsSolid)
    (hnodup : ss.Nodup) {heading : Text} (hs : ∀ s ∈ ss, s.heading = heading) {p : Progress}
    (hclosed : heading ∉ p.headings) (hnew : Fresh p ss) (number : Nat) (rest : List Text) :
    ∃ after next, steps number p ((settings.sectionLines ss).map (· ++ [10]) ++ rest) =
        steps next after rest ∧
      after.entries = (ss.map settings.entry).reverse ++ p.entries ∧ after.stray = p.stray ∧
      (∀ name, name ∈ after.headings ↔ name ∈ p.headings ∨ ss ≠ [] ∧ name = heading) := by
  cases ss with
  | nil => exact ⟨p, number, rfl, rfl, rfl, by simp⟩
  | cons s ss =>
      have hheading : s.heading = heading := hs s List.mem_cons_self
      rw [← hheading] at hs hclosed ⊢
      obtain ⟨after, hgained, hsteps⟩ := steps_section hv hnodup hs hclosed hnew number rest
      refine ⟨after, number + 1 + (s :: ss).length, ?_, hgained.entries, hgained.stray, ?_⟩
      · rw [Settings.sectionLines, List.map_cons, List.map_map]
        exact hsteps
      · intro name
        rw [hgained.headings, Progress.inSection]
        simp [or_comm]

theorem steps_asIni {onlyChanged : Bool}
    (hv : ∀ s ∈ settings.listed onlyChanged, (settings s).display.StartsSolid) :
    ∃ after, steps 1 start ((settings.asIni onlyChanged).map (· ++ [10])) = .ok after ∧
      after.entries = ((settings.listed onlyChanged).map settings.entry).reverse ∧
      after.stray = [] ∧ ∀ s ∈ settings.listed onlyChanged, s.heading ∈ after.headings := by
  obtain ⟨front, back, hl, hfront, hback⟩ := settings.listed_sections onlyChanged
  have hnodup := settings.nodup_listed onlyChanged
  rw [settings.asIni_sections hl hfront hback]
  rw [hl] at hv hnodup ⊢
  rw [List.forall_mem_append] at hv
  obtain ⟨hnodupFront, hnodupBack, hdisjoint⟩ := List.nodup_append.mp hnodup
  obtain ⟨middle, next, hsteps, hentries, hstray, hheadings⟩ :=
    steps_sectionLines hv.1 hnodupFront hfront (p := start) List.not_mem_nil
      (fun s _ entry hm => absurd hm List.not_mem_nil) 1
      ((settings.sectionLines back).map (· ++ [10]))
  have hclosed : Setting.traceback.heading ∉ middle.headings := by
    rw [hheadings]
    rintro (h | ⟨-, h⟩)
    · exact List.not_mem_nil h
    · exact absurd h (by decide)
  have hfresh : Fresh middle back :=
    fresh_of_entries hentries (fun s hs hm => hdisjoint s hm s hs rfl)
      (fun s _ entry hm => absurd hm List.not_mem_nil)
  obtain ⟨after, last, hmore, hentries', hstray', hheadings'⟩ :=
    steps_sectionLines hv.2 hnodupBack hback hclosed hfresh next []
  refine ⟨after, ?_, ?_, ?_, ?_⟩
  · rw [List.append_nil] at hmore
    rw [List.map_append, hsteps, hmore]
    rfl
  · rw [hentries', hentries]
    simp [start]
  · rw [hstray', hstray]
    rfl
  · intro s hm
    rw [hheadings', hheadings]
    rcases List.mem_append.mp hm with hm | hm
    · exact .inl (.inr ⟨List.ne_nil_of_mem hm, hfront s hm⟩)
    · exact .inr ⟨List.ne_nil_of_mem hm, hback s hm⟩

theorem find?_entry {ini : Ini} {ss : List Setting}
    (he : ini.entries = (ss.map settings.entry).reverse)
    (hh : ∀ s ∈ ss, s.heading ∈ ini.headings) {s : Setting} (hs : s ∈ ss) :
    ini.find? s.heading s.option = some (settings s).display.trimRight.trimRight := by
  have hmem : settings.entry s ∈ ini.entries := by
    rw [he]
    exact List.mem_reverse.mpr (List.mem_map_of_mem hs)
  have hfound : ini.entries.find?
      (fun entry => entry.heading = s.heading && entry.name = s.option) =
        some (settings.entry s) := by
    refine find?_of_unique hmem (by simp [Settings.entry]) fun entry hm hkey => ?_
    rw [he, List.mem_reverse] at hm
    obtain ⟨other, -, rfl⟩ := List.mem_map.mp hm
    obtain ⟨hheading, hoption⟩ := keyed_iff.mp hkey
    rw [Setting.eq_of_key hheading hoption]
  rw [find?, if_pos (hh s hs), own?, hfound]
  simp [Settings.entry, Entry.value, Text.join]

theorem find?_of_unlisted {ini : Ini} {ss : List Setting}
    (he : ini.entries = (ss.map settings.entry).reverse) {s : Setting} (hs : s ∉ ss) :
    ini.find? s.heading s.option = none := by
  have hnone (heading : Text) (h : ∀ t ∈ ss, ¬ (t.heading = heading ∧ t.option = s.option)) :
      ini.own? heading s.option = none := by
    have hfind : ini.entries.find?
        (fun entry => entry.heading = heading && entry.name = s.option) = none := by
      rw [List.find?_eq_none, he]
      intro entry hm
      obtain ⟨t, ht, rfl⟩ := List.mem_map.mp (List.mem_reverse.mp hm)
      exact fun hkey => h t ht (keyed_iff.mp hkey)
    rw [own?, hfind, Option.map_none]
  have hown : ini.own? s.heading s.option = none :=
    hnone _ fun t ht h => hs (Setting.eq_of_key h.1 h.2 ▸ ht)
  have hshared : ini.own? shared s.option = none :=
    hnone _ fun t _ h => absurd h.1 (by cases t <;> decide)
  rw [find?, hown, hshared]
  simp

end Ini

end RipWire
