import Mathlib.Data.List.TakeWhile
import RipWire.Text.Basic

/-!
# Trimmed texts

Trimming leaves a text alone that has nothing to lose at its ends.
-/

namespace RipWire.Text

/-- Neither the first nor the last code point of a text is of a class. -/
structure Bare (dropped : CodePoint → Bool) (t : Text) : Prop where
  first : ∀ c ∈ t.head?, dropped c = false
  last : ∀ c ∈ t.getLast?, dropped c = false

section Bare

variable {dropped : CodePoint → Bool}

theorem dropWhile_eq_self {t : Text} (h : ∀ c ∈ t.head?, dropped c = false) :
    t.dropWhile dropped = t := by
  cases t with
  | nil => rfl
  | cons c t => simp [h c rfl]

theorem head?_dropWhile (t : Text) : ∀ c ∈ (t.dropWhile dropped).head?, dropped c = false := by
  intro c hc
  have hnot := List.head?_dropWhile_not dropped t
  rw [Option.mem_def.mp hc] at hnot
  simpa using hnot

theorem bare_trimBy (t : Text) : Bare dropped (t.trimBy dropped) := by
  refine ⟨?_, ?_⟩
  · intro c hc
    refine head?_dropWhile t c ?_
    -- What is left of a text behind its end is a prefix of it.
    have hprefix : t.trimBy dropped <+: t.dropWhile dropped := by
      rw [trimBy, ← List.reverse_suffix, List.reverse_reverse]
      exact List.dropWhile_suffix _
    obtain ⟨rest, hr⟩ := hprefix
    rw [← hr, List.head?_append, Option.mem_def.mp hc]
    rfl
  · intro c hc
    rw [trimBy, List.getLast?_reverse] at hc
    exact head?_dropWhile _ c hc

theorem reverse_dropWhile_append {t gap : Text} (ht : ∀ c ∈ t.getLast?, dropped c = false)
    (hg : ∀ c ∈ gap, dropped c = true) : ((t ++ gap).reverse.dropWhile dropped).reverse = t := by
  have hback : t.reverse.dropWhile dropped = t.reverse := dropWhile_eq_self (by simpa using ht)
  rw [List.reverse_append, List.dropWhile_append_of_pos (by simpa using hg), hback,
    List.reverse_reverse]

theorem trimBy_append {t gap : Text} (ht : Bare dropped t) (hg : ∀ c ∈ gap, dropped c = true) :
    (t ++ gap).trimBy dropped = t := by
  cases t with
  | nil => simp [trimBy, List.dropWhile_eq_nil_iff.mpr hg]
  | cons c t =>
      have hwhole : ((c :: t) ++ gap).dropWhile dropped = (c :: t) ++ gap :=
        dropWhile_eq_self ht.first
      rw [trimBy, hwhole]
      exact reverse_dropWhile_append ht.last hg

theorem trimBy_append_left {gap : Text} (hg : ∀ c ∈ gap, dropped c = true) (t : Text) :
    (gap ++ t).trimBy dropped = t.trimBy dropped := by
  rw [trimBy, trimBy, List.dropWhile_append_of_pos hg]

theorem trimBy_cons {c : CodePoint} (hc : dropped c = true) (t : Text) :
    trimBy dropped (c :: t) = trimBy dropped t := by
  simp [trimBy, hc]

theorem trimBy_concat {c : CodePoint} (hc : dropped c = true) (t : Text) :
    (t ++ [c]).trimBy dropped = t.trimBy dropped := by
  rw [trimBy, trimBy, List.dropWhile_append]
  split
  · next hempty => simp [List.isEmpty_iff.mp hempty, hc]
  · simp [hc]

theorem trimBy_eq_self {t : Text} (ht : Bare dropped t) : t.trimBy dropped = t := by
  have h : (t ++ []).trimBy dropped = t := trimBy_append ht (by simp)
  rwa [List.append_nil] at h

end Bare

theorem trimBy_sublist (dropped : CodePoint → Bool) (t : Text) :
    (t.trimBy dropped).Sublist t := by
  have hback : ((t.dropWhile dropped).reverse.dropWhile dropped).Sublist
      (t.dropWhile dropped).reverse := List.dropWhile_sublist dropped
  have hfront : (t.trimBy dropped).Sublist (t.dropWhile dropped) := by
    have h := hback.reverse
    rwa [List.reverse_reverse] at h
  exact hfront.trans (List.dropWhile_sublist dropped)

/-! ### The end of a text -/

theorem trimRight_append {t gap : Text} (ht : ∀ c ∈ t.getLast?, isBlank c = false)
    (hg : ∀ c ∈ gap, isBlank c = true) : trimRight (t ++ gap) = t :=
  reverse_dropWhile_append ht hg

theorem trimRight_eq_self {t : Text} (ht : ∀ c ∈ t.getLast?, isBlank c = false) :
    trimRight t = t := by
  have h : trimRight (t ++ []) = t := trimRight_append ht (by simp)
  rwa [List.append_nil] at h

theorem exists_trimRight_append (t : Text) :
    ∃ gap, t = t.trimRight ++ gap ∧ ∀ c ∈ gap, isBlank c = true := by
  refine ⟨(t.reverse.takeWhile isBlank).reverse, ?_, ?_⟩
  · rw [trimRight, ← List.reverse_append, List.takeWhile_append_dropWhile, List.reverse_reverse]
  · intro c hc
    exact List.mem_takeWhile_imp (List.mem_reverse.mp hc)

theorem length_trimRight_le (t : Text) : t.trimRight.length ≤ t.length := by
  obtain ⟨gap, hgap, -⟩ := exists_trimRight_append t
  have hlength := congrArg List.length hgap
  rw [List.length_append] at hlength
  omega

theorem last_trimRight (t : Text) : ∀ c ∈ t.trimRight.getLast?, isBlank c = false := by
  intro c hc
  rw [trimRight, List.getLast?_reverse] at hc
  exact head?_dropWhile _ c hc

/-- A text starts with something other than white space. -/
def StartsSolid (t : Text) : Prop :=
  ∃ c rest, t = c :: rest ∧ isBlank c = false

instance : (t : Text) → Decidable t.StartsSolid
  | [] => .isFalse (by rintro ⟨c, rest, h, -⟩; cases h)
  | c :: rest =>
    decidable_of_iff (isBlank c = false)
      ⟨fun hc => ⟨c, rest, rfl, hc⟩, by rintro ⟨d, more, h, hd⟩; cases h; exact hd⟩

theorem StartsSolid.first {t : Text} (h : t.StartsSolid) : ∀ c ∈ t.head?, isBlank c = false := by
  obtain ⟨c, rest, rfl, hc⟩ := h
  rintro d ⟨⟩
  exact hc

theorem StartsSolid.trimRight {t : Text} (h : t.StartsSolid) : t.trimRight.StartsSolid := by
  obtain ⟨c, rest, rfl, hc⟩ := h
  obtain ⟨gap, hgap, hblank⟩ := exists_trimRight_append (c :: rest)
  cases ht : Text.trimRight (c :: rest) with
  | nil =>
      rw [ht, List.nil_append] at hgap
      rw [hblank c (by rw [← hgap]; exact List.mem_cons_self)] at hc
      cases hc
  | cons d more =>
      rw [ht, List.cons_append, List.cons.injEq] at hgap
      exact ⟨d, more, rfl, hgap.1 ▸ hc⟩

theorem StartsSolid.bare_trimRight {t : Text} (h : t.StartsSolid) :
    Bare isBlank t.trimRight :=
  ⟨h.trimRight.first, last_trimRight t⟩

end RipWire.Text
