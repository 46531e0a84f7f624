import Mathlib.Algebra.Order.BigOperators.Group.List
import Mathlib.Algebra.Order.Group.Nat
import Mathlib.Data.List.Flatten
import RipWire.Proofs.Settings.IniLines

/-!
# How entries grow

A line of a configuration file can leave the entries alone, go to the latest of
them, or open another one under a key that is new. An entry is therefore found
again after any number of lines, with some of them at the end of its value. All
of these were indented and have lost that, so that a value never grows as much as
the lines that it has taken.
-/

namespace RipWire.Ini

open Text (isBlank)

/-- A line that may go on with a value: with nothing on it, or indented. -/
def Continuing (line : Text) : Prop :=
  line.trim = [] ∨ 0 < (line.takeWhile isBlank).length

/-- What one line does to the entries. -/
inductive Grown (line : Text) (entries : List Entry) : List Entry → Prop where
  | same : Grown line entries entries
  | extended {entry : Entry} {rest : List Entry} (latest : entries = entry :: rest)
      (continuing : Continuing line) :
      Grown line entries ({ entry with lines := line.trim :: entry.lines } :: rest)
  | added {entry : Entry} (new : ∀ other ∈ entries,
      ¬ (other.heading = entry.heading ∧ other.name = entry.name)) :
      Grown line entries (entry :: entries)

theorem grown_of_extend {p : Progress} {line : Text} (h : Continuing line) :
    Grown line p.entries (p.extend line.trim).entries := by
  unfold Progress.extend
  split
  · next entry rest hcontinues hentries => exact .extended hentries h
  · exact .same

theorem grown_of_opened {p after : Progress} {number : Nat} {line name : Text}
    (h : p.opened number name = .ok after) : Grown line p.entries after.entries := by
  unfold Progress.opened at h
  split at h
  · cases h
    exact .same
  · split at h
    · cases h
    · cases h
      exact .same

theorem grown_of_added {p after : Progress} {number : Nat} {line heading name value : Text}
    (h : p.added number line heading name value = .ok after) :
    Grown line p.entries after.entries := by
  unfold Progress.added at h
  split at h
  · cases h
  · next hnew =>
      cases h
      exact .added (by simpa using hnew)

theorem grown_of_step {p after : Progress} {number : Nat} {line : Text}
    (h : p.step number line = .ok after) : Grown line p.entries after.entries := by
  unfold Progress.step at h
  by_cases hcomment : isComment line.trim = true
  · rw [if_pos hcomment] at h
    cases h
    exact .same
  by_cases hempty : line.trim.isEmpty = true
  · have hnil : line.trim = [] := List.isEmpty_iff.mp hempty
    rw [if_neg hcomment, if_pos hempty, ← hnil] at h
    cases h
    exact grown_of_extend (.inl hnil)
  rw [if_neg hcomment, if_neg hempty] at h
  by_cases hindent : (p.continues && decide (p.indent < (line.takeWhile isBlank).length)) = true
  · rw [if_pos hindent] at h
    cases h
    have hless := of_decide_eq_true (Bool.and_eq_true_iff.mp hindent).2
    exact grown_of_extend (.inr (Nat.zero_lt_of_lt hless))
  rw [if_neg hindent] at h
  dsimp only at h
  split at h
  · have hopened : Grown line _ after.entries := grown_of_opened h
    exact hopened
  · split at h
    · cases h
    · split at h
      · cases h
        exact .same
      · have hadded : Grown line _ after.entries := grown_of_added h
        exact hadded

/-- The entry of a section with a name. -/
def Progress.found? (p : Progress) (heading name : Text) : Option Entry :=
  p.entries.find? fun entry => entry.heading = heading && entry.name = name

theorem found?_cons {p : Progress} {entry : Entry} {entries : List Entry}
    (hp : p.entries = entry :: entries) : p.found? entry.heading entry.name = some entry := by
  simp [Progress.found?, hp]

theorem value_of_found {p : Progress} {heading name value : Text} {entry : Entry}
    (hp : p.found? heading name = some entry)
    (h : Ini.find? ⟨p.headings, p.entries⟩ heading name = some value) : value = entry.value := by
  have hown : Ini.own? ⟨p.headings, p.entries⟩ heading name = some entry.value :=
    congrArg (Option.map Entry.value) hp
  rw [find?, hown] at h
  split at h
  · cases h
    rfl
  · cases h

/-- The lines that an entry has gained, trimmed and the last first, were among some lines and
could go on with a value. -/
def Gains (lines : List Text) (entry after : Entry) : Prop :=
  ∃ taken : List Text, taken.Sublist lines ∧
    after.lines = (taken.map Text.trim).reverse ++ entry.lines ∧
    ∀ line ∈ taken, Continuing line

theorem Gains.refl (entry : Entry) : Gains [] entry entry :=
  ⟨[], .slnil, rfl, by simp⟩

theorem Gains.trans {lines more : List Text} {entry middle after : Entry}
    (h : Gains lines entry middle) (hm : Gains more middle after) :
    Gains (lines ++ more) entry after := by
  obtain ⟨taken, hsub, hlines, hall⟩ := h
  obtain ⟨others, hsub', hlines', hall'⟩ := hm
  refine ⟨taken ++ others, hsub.append hsub', ?_, ?_⟩
  · rw [hlines', hlines]
    simp
  · exact List.forall_mem_append.mpr ⟨hall, hall'⟩

/-- Lines that can not go on with a value have not been gained. -/
theorem Gains.of_append {lines more : List Text} {entry after : Entry}
    (h : Gains (lines ++ more) entry after) (hm : ∀ line ∈ more, ¬ Continuing line) :
    Gains lines entry after := by
  obtain ⟨taken, hsub, hlines, hall⟩ := h
  obtain ⟨front, back, rfl, hfront, hback⟩ := List.sublist_append_iff.mp hsub
  cases back with
  | nil =>
      rw [List.append_nil] at hlines hall
      exact ⟨front, hfront, hlines, hall⟩
  | cons line back =>
      have hline : line ∈ front ++ line :: back := by simp
      exact absurd (hall line hline) (hm line (hback.subset List.mem_cons_self))

theorem found?_step {p after : Progress} {number : Nat} {line heading name : Text} {entry : Entry}
    (hp : p.found? heading name = some entry) (h : p.step number line = .ok after) :
    ∃ later, after.found? heading name = some later ∧ Gains [line] entry later := by
  have hgrown := grown_of_step h
  have hkept : Gains [line] entry entry := ⟨[], List.nil_sublist _, rfl, by simp⟩
  unfold Progress.found? at hp ⊢
  generalize p.entries = entries at hp hgrown
  generalize after.entries = grown at hgrown
  cases hgrown with
  | same => exact ⟨entry, hp, hkept⟩
  | @extended latest rest hlatest hcontinuing =>
      subst hlatest
      rw [List.find?_cons] at hp ⊢
      by_cases hkey : (decide (latest.heading = heading) && decide (latest.name = name)) = true
      · simp only [hkey] at hp ⊢
        cases hp
        exact ⟨_, rfl, [line], .refl _, rfl, by simpa using hcontinuing⟩
      · simp only [Bool.not_eq_true] at hkey
        simp only [hkey] at hp ⊢
        exact ⟨entry, hp, hkept⟩
  | @added other hnew =>
      have hkey := List.find?_some hp
      obtain ⟨hheading, hname⟩ := keyed_iff.mp hkey
      have hother : (decide (other.heading = heading) && decide (other.name = name)) = false := by
        rw [Bool.eq_false_iff]
        intro hsame
        obtain ⟨hheading', hname'⟩ := keyed_iff.mp hsame
        exact hnew entry (List.mem_of_find?_eq_some hp)
          ⟨hheading.trans hheading'.symm, hname.trans hname'.symm⟩
      refine ⟨entry, ?_, hkept⟩
      rw [List.find?_cons]
      simp only [hother]
      exact hp

theorem found?_steps {lines : List Text} {p after : Progress} {number : Nat}
    {heading name : Text} {entry : Entry} (hp : p.found? heading name = some entry)
    (h : steps number p lines = .ok after) :
    ∃ later, after.found? heading name = some later ∧ Gains lines entry later := by
  induction lines generalizing p number entry with
  | nil =>
      cases h
      exact ⟨entry, hp, .refl entry⟩
  | cons line lines ih =>
      rw [steps] at h
      cases hstep : p.step number line with
      | error fault =>
          rw [hstep] at h
          cases h
      | ok next =>
          rw [hstep] at h
          obtain ⟨middle, hm, hgains⟩ := found?_step hp hstep
          obtain ⟨later, hl, hmore⟩ := ih hm h
          exact ⟨later, hl, hgains.trans hmore⟩

/-! ### The value of an entry that has grown -/

theorem length_trim_le (t : Text) : t.trim.length ≤ t.length :=
  (Text.trimBy_sublist isBlank t).length_le

theorem length_trim_lt {content : Text} (h : Continuing (content ++ [10]))
    (hne : content.trim ≠ []) : content.trim.length < content.length := by
  have htrim : Text.trim (content ++ [10]) = content.trim := Text.trimBy_concat rfl content
  rcases h with h | h
  · exact absurd (htrim.symm.trans h) hne
  · cases content with
    | nil => exact absurd rfl hne
    | cons c content =>
        have hc : isBlank c = true := by
          by_contra hsolid
          simp [hsolid] at h
        rw [Text.trim, Text.trimBy_cons hc]
        exact Nat.lt_succ_of_le (length_trim_le content)

/-- Lines that go on with a value give it less than they had, unless they give it nothing. -/
theorem length_gained_lt {gained : List Text}
    (hall : ∀ content ∈ gained, Continuing (content ++ [10]))
    (hsome : ∃ content ∈ gained, content.trim ≠ []) :
    (gained.flatMap fun content => 10 :: content.trim).length <
      (gained.flatMap fun content => 10 :: content).length := by
  obtain ⟨content, hm, hne⟩ := hsome
  have hle : ∀ content ∈ gained, (10 :: content.trim).length ≤ (10 :: content).length :=
    fun content _ => Nat.succ_le_succ (length_trim_le content)
  have hlt : (10 :: content.trim).length < (10 :: content).length :=
    Nat.succ_lt_succ (length_trim_lt (hall content hm) hne)
  rw [List.length_flatMap, List.length_flatMap]
  exact List.sum_lt_sum _ _ hle ⟨content, hm, hlt⟩

/-- Lines only add to a value what ends it again, or the value is shorter than all of it was. -/
theorem value_of_gains {heading name first : Text} {contents : List Text} {later : Entry}
    (hfirst : ∀ c ∈ first.getLast?, isBlank c = false)
    (h : Gains (contents.map (· ++ [10])) ⟨heading, name, [first]⟩ later) :
    later.value = first ∨
      later.value.length < (Text.join [10] (first :: contents)).length := by
  obtain ⟨taken, hsub, hlines, hall⟩ := h
  obtain ⟨gained, hgained, rfl⟩ := List.sublist_map_iff.mp hsub
  have hcontents : (gained.map (· ++ [10])).map Text.trim = gained.map Text.trim := by
    rw [List.map_map]
    exact List.map_congr_left fun content _ => Text.trimBy_concat rfl content
  have hvalue : later.value =
      (first ++ gained.flatMap fun content => 10 :: content.trim).trimRight := by
    rw [Entry.value, hlines, hcontents, List.reverse_append, List.reverse_reverse,
      List.reverse_singleton, List.singleton_append, Text.join_cons, List.flatMap_map]
    rfl
  rw [hvalue]
  by_cases hempty : ∀ content ∈ gained, content.trim = []
  · left
    refine Text.trimRight_append hfirst fun c hc => ?_
    obtain ⟨content, hm, hc⟩ := List.mem_flatMap.mp hc
    rw [hempty content hm, List.mem_singleton] at hc
    rw [hc]
    rfl
  · right
    push Not at hempty
    have hless := length_gained_lt (fun content hm => hall _ (List.mem_map_of_mem hm)) hempty
    calc
      _ ≤ (first ++ gained.flatMap fun content => 10 :: content.trim).length :=
        Text.length_trimRight_le _
      _ < (first ++ gained.flatMap fun content => 10 :: content).length := by
        rw [List.length_append, List.length_append]
        exact Nat.add_lt_add_left hless _
      _ ≤ (first ++ contents.flatMap fun content => 10 :: content).length :=
        ((List.Sublist.refl first).append (hgained.flatMap _)).length_le
      _ = _ := by
        rw [Text.join_cons]
        rfl

end RipWire.Ini
