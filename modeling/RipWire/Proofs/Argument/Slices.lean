import Mathlib.Algebra.Order.Floor.Div
import RipWire.Argument.Items
import RipWire.Proofs.Octets.Pieces

/-!
# Slices of a sequence

What can be cut is a run of items in one of a few forms. Its slices are of the
same form, as many as the length asks for and each at its place, and put
together they are the sequence again.
-/

namespace RipWire

variable {α : Type}

/-- Consecutive pieces of one size, told by their number, their lengths and their places. -/
structure Cut (size : Nat) (xs : List α) (pieces : List (List α)) : Prop where
  count : pieces.length = xs.length ⌈/⌉ size
  full : ∀ piece ∈ pieces.dropLast, piece.length = size
  last : ∀ piece ∈ pieces.getLast?, 1 ≤ piece.length ∧ piece.length ≤ size
  whole : pieces.flatten = xs
  place : ∀ i, pieces[i]? =
    if i * size < xs.length then some ((xs.drop (i * size)).take size) else none
  nothing : pieces = [] ↔ xs = []

theorem cut_chunks {size : Nat} (hs : 0 < size) (xs : List α) : Cut size xs (chunks size xs) := by
  constructor
  case count => rw [length_chunks_eq hs, Nat.ceilDiv_eq_add_pred_div]
  case full => exact length_dropLast_piece hs xs
  case last =>
    intro piece hm
    exact length_piece hs xs piece (List.mem_of_getLast? hm)
  case whole => exact flatten_chunks hs xs
  case place => exact getElem?_chunks hs xs
  case nothing =>
    constructor
    · intro h
      rw [← flatten_chunks hs xs, h, List.flatten_nil]
    · intro h
      rw [h, chunks_nil]

namespace Argument

/-- The forms of what can be cut: a text, octets, and an array, a tuple or a list of anything. -/
inductive SequenceForm : {α : Type} → (List α → Argument) → Prop where
  | text : SequenceForm string
  | octets : SequenceForm octets
  | array : SequenceForm fun items => json (.array items)
  | listed (fixed : Bool) : SequenceForm (sequence fixed)

theorem SequenceForm.slices_eq {form : List α → Argument} (hf : SequenceForm form) (xs : List α)
    {step : Int} (hs : 1 ≤ step) :
    slices step (form xs) = .ok ((chunks step.toNat xs).map form) := by
  have hpieces : pieces step.toNat (form xs) = .ok ((chunks step.toNat xs).map form) := by
    cases hf with
    | text => rfl
    | octets => rfl
    | array => rfl
    | listed fixed => rfl
  rw [slices, if_neg (by omega), if_neg (by omega), hpieces]

/-- A positive step cuts a sequence of any form and length into slices of that form, and nothing of
it is lost, repeated or moved. -/
theorem slices_lossless {form : List α → Argument} (hf : SequenceForm form) (xs : List α)
    (step : Int) (hs : 1 ≤ step) :
    ∃ pieces, slices step (form xs) = .ok (pieces.map form) ∧ Cut step.toNat xs pieces := by
  have hsize : 0 < step.toNat := by omega
  exact ⟨chunks step.toNat xs, hf.slices_eq xs hs, cut_chunks hsize xs⟩

/-- Seven octets and a step of three: the third slice starts at the last octet and would run past
the end. -/
theorem slices_lossless_of_seven_octets :
    SequenceForm octets ∧ (1 : Int) ≤ 3 ∧
      ∃ pieces : List Bytes, slices 3 (.octets [2, 1, 0, 0, 255, 16, 9]) =
          .ok (pieces.map octets) ∧
        pieces.length = 3 ∧ pieces.flatten = [2, 1, 0, 0, 255, 16, 9] ∧ pieces[2]? = some [9] := by
  obtain ⟨pieces, hslices, hcut⟩ :=
    slices_lossless .octets [2, 1, 0, 0, 255, 16, 9] 3 (by decide)
  have hcount : pieces.length = 3 := by
    rw [hcut.count, Nat.ceilDiv_eq_add_pred_div]
    decide
  have hlast : pieces[2]? = some [9] := hcut.place 2
  exact ⟨.octets, by decide, pieces, hslices, hcount, hcut.whole, hlast⟩

end Argument

end RipWire
