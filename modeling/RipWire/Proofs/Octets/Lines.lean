import RipWire.CommandLine.Decode
import RipWire.CommandLine.Encode
import RipWire.Proofs.Octets.Layouts
import RipWire.Proofs.Text.Lines

/-!
# Octets on a line

Octets are shown as pairs of upper case digits, with a space between the pairs or
without. Such a line is a payload that denotes them, and as one of several lines it
is found again.
-/

namespace RipWire

namespace Text

theorem upper_join (separator : Text) (pieces : List Text) :
    upper (join separator pieces) = join (upper separator) (pieces.map upper) := by
  induction pieces with
  | nil => rfl
  | cons first rest ih =>
      cases rest with
      | nil => simp [join]
      | cons next rest =>
          rw [List.map_cons, List.map_cons, join_cons_cons, join_cons_cons, ← List.map_cons, ← ih]
          simp [upper]

end Text

theorem chunks_one {α : Type} (xs : List α) : chunks 1 xs = xs.map ([·]) := by
  induction xs with
  | nil => rfl
  | cons x xs ih =>
      rw [chunks] at ih
      simp [chunks, chunksWithin, ih]

namespace Hex

/-- The two upper case digits of every octet. -/
def pairs (octets : Bytes) : List Text :=
  octets.map fun b => Text.upper (octet b)

/-- Octets as a line shows them. -/
def line (spaced : Bool) (octets : Bytes) : Text :=
  Text.join (if spaced then [32] else []) (pairs octets)

theorem flatten_pairs (octets : Bytes) : (pairs octets).flatten = Text.upper (encode octets) := by
  rw [encode, Text.upper, List.map_flatMap, pairs, List.flatMap_def]
  rfl

theorem line_close (octets : Bytes) : line false octets = Text.upper (encode octets) := by
  rw [line, if_neg (by decide), Text.join_empty, flatten_pairs]

theorem line_spaced (octets : Bytes) : line true octets = Text.upper (groups 1 octets) := by
  rw [line, if_pos rfl, pairs, groups, chunks_one, Text.upper_join, List.map_map, List.map_map]
  simp only [encode, List.flatMap_singleton, Function.comp_def]
  rfl

theorem spells_pairs (octets : Bytes) : Spells (pairs octets).flatten octets := by
  rw [flatten_pairs]
  exact spells_upper_encode octets

theorem isDigit_of_mem_pairs {octets : Bytes} {pair : Text} (hm : pair ∈ pairs octets) :
    pair ≠ [] ∧ ∀ c ∈ pair, isDigit c := by
  have hdigits := (exists_spells_iff.mp ⟨octets, spells_pairs octets⟩).2
  refine ⟨?_, fun c hc => hdigits c (List.mem_flatten_of_mem hm hc)⟩
  obtain ⟨b, -, rfl⟩ := List.mem_map.mp hm
  exact List.cons_ne_nil _ _

theorem oneLine_line (spaced : Bool) (octets : Bytes) : (line spaced octets).OneLine := by
  refine Text.oneLine_join (by cases spaced <;> decide) ?_
  intro pair hm
  obtain ⟨b, -, hb⟩ := List.mem_map.mp hm
  rw [← hb]
  exact oneLine_of_spells (spells_upper_encode [b])

theorem bare_line (spaced : Bool) (octets : Bytes) :
    Text.Bare Text.isBlank (line spaced octets) := by
  refine Text.bare_join _ fun pair hpair => ?_
  obtain ⟨hne, hdigits⟩ := isDigit_of_mem_pairs hpair
  exact ⟨hne, fun c hc => (not_special_of_isDigit (hdigits c (List.mem_of_mem_head? hc))).1,
    fun c hc => (not_special_of_isDigit (hdigits c (List.mem_of_mem_getLast? hc))).1⟩

theorem line_ne_nil (spaced : Bool) {octets : Bytes} (hne : octets ≠ []) :
    line spaced octets ≠ [] := by
  obtain ⟨b, octets, rfl⟩ := List.exists_cons_of_ne_nil hne
  rw [line, pairs, List.map_cons, Text.join_cons]
  exact List.cons_ne_nil _ _

theorem denotes_line (spaced : Bool) {octets : Bytes} (hne : octets ≠ []) :
    Payload.Denotes (line spaced octets) octets := by
  have hseparator : ∀ c ∈ (if spaced then [32] else [] : Text), Payload.isSeparator c = true := by
    cases spaced <;> decide
  have hspelled := spells_iff_forall₂.mp (spells_pairs octets)
  exact Payload.denotes_iff_layout.mpr
    ⟨hne, .intro [] List.mem_cons_self hspelled (Payload.spread_join hseparator (pairs octets))⟩

end Hex

namespace CommandLine

theorem Encode.shown_eq (spaced : Bool) (octets : Bytes) :
    shown spaced octets = Hex.line spaced octets ++ [10] := by
  cases spaced with
  | false => rw [Hex.line_close]; rfl
  | true => rw [Hex.line_spaced]; rfl

theorem Encode.visible_shown (spaced : Bool) (octets : Bytes) :
    ∀ c ∈ shown spaced octets, c = 10 ∨ 32 ≤ c ∧ c ≤ 126 := by
  intro c hm
  rw [shown_eq, List.mem_append, List.mem_singleton] at hm
  cases hm with
  | inl hline =>
      right
      cases Text.mem_join hline with
      | inl hseparator =>
          have hall : ∀ d ∈ (if spaced then [32] else [] : Text), 32 ≤ d ∧ d ≤ 126 := by
            cases spaced <;> decide
          exact hall c hseparator
      | inr hpair =>
          obtain ⟨pair, hpair, hm⟩ := hpair
          exact Hex.visible_of_isDigit ((Hex.isDigit_of_mem_pairs hpair).2 c hm)
  | inr hfeed => exact .inl hfeed

theorem Decode.payloads_of_lines {lines : List Text} (hone : ∀ line ∈ lines, 10 ∉ line)
    (hbare : ∀ line ∈ lines, Text.Bare Text.isBlank line) (hne : ∀ line ∈ lines, line ≠ []) :
    payloads (lines.flatMap (· ++ [10])) = lines := by
  have htrim : (lines.map (· ++ [10])).map Text.trim = lines := by
    rw [List.map_map]
    refine (List.map_congr_left fun line hm => ?_).trans (List.map_id lines)
    exact Text.trimBy_append (hbare line hm) (by simp [Text.isBlank])
  rw [payloads, Text.fileLines_of_lines hone, htrim, List.filter_eq_self]
  intro line hm
  simpa using hne line hm

end CommandLine

end RipWire
