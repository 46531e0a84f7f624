import RipWire.Proofs.Json.Pieces
import RipWire.Proofs.Text.Trimmed

/-!
# Whole texts

A text is read as a value exactly when it is a piece that spells the value, with
space around it. White space of any kind can be taken from its ends, and what
stands behind it makes it malformed.
-/

namespace RipWire.Json

/-- A piece that spells a value, with space around it. -/
def Holds (t : Text) (v : Json) : Prop :=
  ∃ gap piece gap', t = gap ++ (piece ++ gap') ∧ Gap gap ∧ Gap gap' ∧ Spelling value piece v

theorem skipSpace_gap {gap : Text} (hg : Gap gap) : skipSpace gap = [] :=
  List.dropWhile_eq_nil_iff.mpr hg

theorem gap_of_skipSpace {t : Text} (h : skipSpace t = []) : Gap t :=
  List.dropWhile_eq_nil_iff.mp h

theorem ne_byteOrderMark {gap piece rest : Text} {v : Json} (hg : Gap gap)
    (h : Spelling value piece v) (left : Text) : gap ++ (piece ++ rest) ≠ 0xfeff :: left := by
  obtain ⟨c, more, rfl, hc, -⟩ := h.starts
  intro heq
  cases gap with
  | nil =>
      cases heq
      exact absurd hc (by decide)
  | cons d gap =>
      cases heq
      exact absurd (hg 0xfeff List.mem_cons_self) (by decide)

theorem document_append {gap piece rest : Text} {v : Json} (hg : Gap gap)
    (h : Spelling value piece v) (hr : Ends rest) :
    document (gap ++ (piece ++ rest)) =
      if skipSpace rest = [] then .ok v else .error (.stuck .extraData (skipSpace rest)) := by
  have hskip : skipSpace (gap ++ (piece ++ rest)) = piece ++ rest := by
    rw [skipSpace_append hg, h.skipSpace]
  have hfuel : piece.length ≤ 2 * (gap ++ (piece ++ rest)).length + 2 := by
    simp only [List.length_append]
    omega
  unfold document
  split
  · next left heq => exact (ne_byteOrderMark hg h left heq).elim
  · rw [hskip]
    simp only [h.reads _ rest hfuel hr]
    cases skipSpace rest with
    | nil => rfl
    | cons c left => rfl

theorem document_ok {t : Text} {v : Json} (h : document t = .ok v) : Holds t v := by
  unfold document at h
  split at h
  · cases h
  · split at h
    · cases h
    · next found rest hfound =>
        split at h
        · next hrest =>
            cases h
            obtain ⟨gap, ht, hg⟩ := exists_gap t
            obtain ⟨piece, hpiece, hspelling⟩ := exists_spelling _ hfound
            rw [hpiece] at ht
            exact ⟨gap, piece, rest, ht, hg, gap_of_skipSpace hrest, hspelling⟩
        · cases h

theorem read_ok_iff {t : Text} {v : Json} : read t = .ok v ↔ Holds t v := by
  refine ⟨fun h => ?_, ?_⟩
  · cases hdocument : document t with
    | error halt =>
        rw [read, hdocument] at h
        cases h
    | ok found =>
        rw [read, hdocument] at h
        cases h
        exact document_ok hdocument
  · rintro ⟨gap, piece, gap', rfl, hg, hg', h⟩
    have hends := ends_of_space hg' ends_nil
    rw [List.append_nil] at hends
    rw [read, document_append hg h hends, skipSpace_gap hg']
    rfl

/-- A text that goes on behind a value is malformed. -/
theorem Holds.read_append {t : Text} {v : Json} (h : Holds t v) {rest : Text} (hr : Ends rest)
    (hmore : ¬ Gap rest) :
    ∃ complaint line column position,
      read (t ++ rest) = .error (.malformed complaint line column position) := by
  obtain ⟨gap, piece, gap', rfl, hg, hg', hspelling⟩ := h
  simp only [List.append_assoc]
  rw [read, document_append hg hspelling (ends_of_space hg' hr), skipSpace_append hg']
  split
  · next hnil => exact (hmore (gap_of_skipSpace hnil)).elim
  · exact ⟨_, _, _, _, rfl⟩

theorem Spelling.holds {piece : Text} {v : Json} (h : Spelling value piece v) : Holds piece v :=
  ⟨[], piece, [], by simp, gap_nil, gap_nil, h⟩

theorem Spelling.bare {reader : Nat → Text → Step Json} {piece : Text} {v : Json}
    (h : Spelling reader piece v) : Text.Bare Text.isBlank piece where
  first := by
    obtain ⟨c, rest, rfl, hc, -⟩ := h.starts
    rintro d ⟨⟩
    exact hc.isBlank
  last := fun c hc => (h.last c hc).isBlank

theorem Gap.isBlank {gap : Text} (hg : Gap gap) : ∀ c ∈ gap, Text.isBlank c = true :=
  fun c hm => isBlank_of_isSpace (hg c hm)

theorem Holds.trim {t : Text} {v : Json} (h : Holds t v) : Holds t.trim v := by
  obtain ⟨gap, piece, gap', rfl, hg, hg', hspelling⟩ := h
  rw [Text.trim, Text.trimBy_append_left hg.isBlank, Text.trimBy_append hspelling.bare hg'.isBlank]
  exact hspelling.holds

end RipWire.Json
