import RipWire.Proofs.Text.Lines
import RipWire.Settings.Basic
import RipWire.Settings.Ini

/-!
# Lines of a configuration file

What the reader makes of the lines that a listing has: a heading opens its
section, and an option is added to the section that is open, with its value as
far as that stands on one line.
-/

namespace RipWire

open Text (Bare isBlank)

namespace Setting

/-- The line that opens the section of a setting. -/
def headingLine (s : Setting) : Text :=
  text "[" ++ s.heading ++ text "]"

/-- The line that gives a setting a value. -/
def optionLine (s : Setting) (value : Text) : Text :=
  s.option ++ text " = " ++ value

theorem oneLine_headingLine (s : Setting) : s.headingLine.OneLine := by
  cases s <;> decide

/-- What the reader has to know about the name of an option. -/
structure OptionName (name : Text) : Prop where
  bare : Bare isBlank name
  first : ∃ c rest, name = c :: rest ∧ c ≠ 35 ∧ c ≠ 59 ∧ c ≠ 91
  delimiters : ∀ c ∈ name, Ini.isDelimiter c = false
  lower : name.lower = name

theorem optionName_option (s : Setting) : OptionName s.option := by
  cases s <;> exact ⟨⟨by decide, by decide⟩, ⟨_, _, rfl, by decide⟩, by decide, rfl⟩

end Setting

namespace Ini

open Setting (OptionName optionName_option)

theorem keyed_iff {entry : Entry} {heading name : Text} :
    (decide (entry.heading = heading) && decide (entry.name = name)) = true ↔
      entry.heading = heading ∧ entry.name = name := by
  rw [Bool.and_eq_true_iff, decide_eq_true_iff, decide_eq_true_iff]

theorem read_ok_iff {content : Text} {ini : Ini} :
    Ini.read content = .ok ini ↔
      ∃ p, steps 1 start (Text.fileLines content.unixNewlines) = .ok p ∧ p.stray = [] ∧
        ini = ⟨p.headings, p.entries⟩ := by
  unfold Ini.read
  constructor
  · intro h
    split at h
    · cases h
    · next p hp =>
        split at h
        · next hstray =>
            cases h
            exact ⟨p, hp, List.isEmpty_iff.mp hstray, rfl⟩
        · cases h
  · rintro ⟨p, hp, hstray, rfl⟩
    simp [hp, hstray]

/-- What the reader makes of a line that is neither empty, indented nor a comment. -/
theorem step_of_content {p : Progress} {number : Nat} {line content : Text}
    (hc : line.trim = content) (hcomment : isComment content = false) (hne : content ≠ [])
    (hindent : line.takeWhile isBlank = []) :
    p.step number line =
      match heading? content with
      | some name => Progress.opened { p with indent := 0 } number name
      | none =>
        match p.heading with
        | none => .error (.missingHeader number line)
        | some heading =>
          match option? content with
          | none => .ok { p with indent := 0, stray := (number, line) :: p.stray }
          | some (name, value) =>
            Progress.added { p with indent := 0 } number line heading name value := by
  have hempty : content.isEmpty = false := List.isEmpty_eq_false_iff.mpr hne
  have hstep := Progress.step.eq_def p number line
  simp only [hc, hcomment, hempty, hindent, List.length_nil, Nat.not_lt_zero, decide_false,
    Bool.and_false, Bool.false_eq_true, if_false] at hstep
  exact hstep

theorem step_headingLine {p : Progress} {s : Setting} (hnew : s.heading ∉ p.headings)
    (number : Nat) :
    p.step number (s.headingLine ++ [10]) =
      .ok { p with
        indent := 0, headings := s.heading :: p.headings, heading := some s.heading,
        continues := false } := by
  have hheading : heading? s.headingLine = some s.heading := by cases s <;> rfl
  have hshared : s.heading ≠ shared := by cases s <;> decide
  have htrim : Text.trim (s.headingLine ++ [10]) = s.headingLine := by cases s <;> rfl
  rw [step_of_content htrim rfl (by simp [Setting.headingLine, text]) rfl, hheading]
  simp only [Progress.opened, if_neg hshared, if_neg hnew]

theorem not_indented (s : Setting) (value : Text) :
    (s.optionLine value ++ [10]).takeWhile isBlank = [] := by
  obtain ⟨c, rest, hc, -⟩ := (optionName_option s).first
  have hblank : isBlank c = false := (optionName_option s).bare.first c (by rw [hc]; rfl)
  simp [Setting.optionLine, hc, hblank]

section OptionLine

variable (s : Setting) {value : Text} (hv : value.StartsSolid)

include hv

theorem trim_optionLine :
    Text.trim (s.optionLine value ++ [10]) = s.optionLine value.trimRight := by
  obtain ⟨gap, hgap, hblank⟩ := Text.exists_trimRight_append value
  have hline : s.optionLine value ++ [10] = s.optionLine value.trimRight ++ (gap ++ [10]) :=
    calc
      _ = s.optionLine (value.trimRight ++ gap) ++ [10] :=
        congrArg (fun v => s.optionLine v ++ [10]) hgap
      _ = _ := by simp [Setting.optionLine]
  rw [hline]
  refine Text.trimBy_append ⟨?_, ?_⟩ ?_
  · obtain ⟨c, rest, hc, -⟩ := (optionName_option s).first
    have hfirst := (optionName_option s).bare.first
    rw [hc] at hfirst
    rw [Setting.optionLine, hc]
    exact hfirst
  · obtain ⟨c, rest, ht, -⟩ := hv.trimRight
    have hlast := Text.last_trimRight value
    rw [Setting.optionLine, List.getLast?_append]
    rw [ht] at hlast ⊢
    simpa using hlast
  · intro c hm
    rcases List.mem_append.mp hm with hm | hm
    · exact hblank c hm
    · rw [List.mem_singleton.mp hm]
      rfl

theorem option?_optionLine :
    option? (s.optionLine value.trimRight) = some (s.option, value.trimRight) := by
  have hname := optionName_option s
  have hsplit : s.optionLine value.trimRight =
      (s.option ++ [32]) ++ 61 :: 32 :: value.trimRight := by
    simp [Setting.optionLine, text]
  have hinside : ∀ c ∈ s.option ++ [32], (!isDelimiter c) = true := by
    intro c hm
    rcases List.mem_append.mp hm with hm | hm
    · rw [hname.delimiters c hm]
      rfl
    · rw [List.mem_singleton.mp hm]
      rfl
  have hdrop : (s.optionLine value.trimRight).dropWhile (fun c => !isDelimiter c) =
      61 :: 32 :: value.trimRight := by
    rw [hsplit, List.dropWhile_append_of_pos hinside]
    rfl
  have htake : (s.optionLine value.trimRight).takeWhile (fun c => !isDelimiter c) =
      s.option ++ [32] := by
    rw [hsplit, List.takeWhile_append_of_pos hinside]
    simp [isDelimiter]
  have hright : Text.trimRight (s.option ++ [32]) = s.option :=
    Text.trimRight_append hname.bare.last (by decide)
  have hvalue : Text.trim (32 :: value.trimRight) = value.trimRight := by
    rw [Text.trim, Text.trimBy_cons rfl, Text.trimBy_eq_self hv.bare_trimRight]
  simp only [option?, hdrop, htake, hright, hvalue]

theorem step_optionLine {p : Progress} {heading : Text} (hh : p.heading = some heading)
    (hnew : ∀ entry ∈ p.entries, ¬ (entry.heading = heading ∧ entry.name = s.option))
    (number : Nat) :
    p.step number (s.optionLine value ++ [10]) =
      .ok { p with
        indent := 0, continues := true,
        entries := ⟨heading, s.option, [value.trimRight]⟩ :: p.entries } := by
  have hname := optionName_option s
  obtain ⟨c, rest, hc, hhash, hsemicolon, hbracket⟩ := hname.first
  have hstart (v : Text) : s.optionLine v = c :: (rest ++ text " = " ++ v) := by
    simp [Setting.optionLine, hc]
  have hcomment : isComment (s.optionLine value.trimRight) = false := by
    simp [hstart, isComment, hhash, hsemicolon]
  have hheading : heading? (s.optionLine value.trimRight) = none := by
    rw [hstart, heading?]
    rintro more ⟨⟩
    exact hbracket rfl
  have hfresh : (p.entries.any fun entry => entry.heading = heading && entry.name = s.option) =
      false := by
    simpa using hnew
  have hempty : s.option.isEmpty = false := by rw [hc]; rfl
  rw [step_of_content (trim_optionLine s hv) hcomment (by simp [hstart]) (not_indented s value),
    hheading, hh, option?_optionLine s hv]
  simp only [Progress.added, hname.lower, hfresh, Bool.false_eq_true, if_false, hempty,
    Bool.not_false]

end OptionLine

end Ini

end RipWire
