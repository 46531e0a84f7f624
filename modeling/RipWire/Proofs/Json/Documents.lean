import RipWire.Proofs.Json.DocumentLines
import RipWire.Proofs.Json.RoundTrip

/-!
# Reading several documents that were written

Objects that were written on a line each are all read. One of them is read as a
whole text, and may be spread over several lines; two or more are not a document
as a whole, and none at all is no document either, so that the lines are read.
-/

namespace RipWire.Json

/-- A plain object, which is what a document has to be to stand for itself. -/
def PlainObject (v : Json) : Prop :=
  Plain v ∧ ∃ members, v = .object members

theorem PlainObject.ne_array {v : Json} (h : PlainObject v) : ∀ items, v ≠ .array items := by
  obtain ⟨-, members, rfl⟩ := h
  simp

theorem documents_write {layout : Layout} (hlayout : layout.Spacious) {v : Json}
    (hv : PlainObject v) : documents (write layout v ++ [10]) = .ok [v] := by
  have hholds : Holds (write layout v ++ [10]) v :=
    ⟨[], write layout v, [10], rfl, gap_nil, gap_feed,
      spelling_written hlayout v 0 hv.1⟩
  exact documents_of_read hv.ne_array (read_ok_iff.mpr hholds)

section Lines

variable {values : List Json} (h : ∀ v ∈ values, PlainObject v)

include h

theorem isAscii_lines : ∀ line ∈ values.map (write oneLine), line.IsAscii := by
  intro line hm
  obtain ⟨v, hv, rfl⟩ := List.mem_map.mp hm
  exact isAscii_write (h v hv).1

theorem read_lines :
    List.Forall₂ (fun t v => read t = .ok v) (values.map (write oneLine)) values := by
  rw [List.forall₂_map_left_iff, List.forall₂_same]
  exact fun v hv => read_write spacious_oneLine (h v hv).1

theorem documents_lines :
    documents (values.flatMap fun v => write oneLine v ++ [10]) = .ok values := by
  by_cases hnil : values = []
  · rw [hnil]
    rfl
  · have hne : values.map (write oneLine) ≠ [] := mt List.map_eq_nil_iff.mp hnil
    have hfeed : (values.flatMap fun v => write oneLine v ++ [10]) =
        Text.join [10] (values.map (write oneLine)) ++ [10] := by
      rw [← Text.flatMap_lineFeed hne, List.flatMap_map]
    have htrim : Text.trim (values.flatMap fun v => write oneLine v ++ [10]) =
        Text.trim (Text.join [10] (values.map (write oneLine))) := by
      rw [hfeed]
      exact Text.trimBy_concat rfl _
    have hascii := isAscii_lines h
    have hone : ∀ line ∈ values.map (write oneLine), line.OneLine := fun line hm =>
      ⟨fun hc => absurd (hascii line hm 10 hc).1 (by decide),
        fun hc => absurd (hascii line hm 13 hc).1 (by decide)⟩
    have hwide : ∀ line ∈ values.map (write oneLine), ¬ HasWideBreak line := by
      rintro line hm (hc | hc | hc) <;> exact absurd (hascii line hm _ hc).2 (by decide)
    rw [documents_congr htrim]
    by_cases hcount : (values.map (write oneLine)).length = 1
    · exact documents_single (read_lines h) (fun v hv => (h v hv).ne_array) hcount
    · have hseveral := documents_several (read_lines h) hone hcount
      rwa [if_pos hwide] at hseveral

end Lines

end RipWire.Json
