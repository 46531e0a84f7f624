import RipWire.Proofs.Octets.Records

/-!
# Pieces of a list

A list of any length is cut into as few pieces as its length asks for. All of
them are full but the last, which has at least one item.
-/

namespace RipWire

variable {α : Type}

/-- What holds of the empty cut, and of a cut whenever it holds of the one behind the first piece,
holds of every cut. -/
theorem chunks_induction {size : Nat} (hs : 0 < size) {motive : List α → List (List α) → Prop}
    (nil : motive [] [])
    (piece : ∀ xs, xs ≠ [] → motive (xs.drop size) (chunks size (xs.drop size)) →
      motive xs (xs.take size :: chunks size (xs.drop size)))
    (xs : List α) : motive xs (chunks size xs) := by
  induction hn : xs.length using Nat.strongRecOn generalizing xs with
  | ind n ih =>
      by_cases hx : xs = []
      · rw [hx, chunks_nil]
        exact nil
      · have hpos : 0 < xs.length := List.length_pos_iff.mpr hx
        have hshorter : (xs.drop size).length < n := by
          rw [List.length_drop]
          omega
        rw [chunks_of_ne_nil hs hx]
        exact piece xs hx (ih _ hshorter _ rfl)

theorem length_chunks_eq {size : Nat} (hs : 0 < size) (xs : List α) :
    (chunks size xs).length = (xs.length + size - 1) / size := by
  refine chunks_induction hs
    (motive := fun xs pieces => pieces.length = (xs.length + size - 1) / size) ?_ ?_ xs
  · simp only [List.length_nil, Nat.zero_add]
    rw [Nat.div_eq_of_lt (by omega)]
  · intro xs hx ih
    have hpos : 0 < xs.length := List.length_pos_iff.mpr hx
    rw [List.length_cons, ih, List.length_drop, ← Nat.add_div_right _ hs]
    by_cases hl : xs.length ≤ size
    · have hrest : xs.length - size + size - 1 + size = size - 1 + size := by omega
      have hall : xs.length + size - 1 = (xs.length - 1) + size := by omega
      rw [hrest, hall, Nat.add_div_right _ hs, Nat.add_div_right _ hs,
        Nat.div_eq_of_lt (by omega), Nat.div_eq_of_lt (by omega)]
    · have hall : xs.length - size + size - 1 + size = xs.length + size - 1 := by omega
      rw [hall]

theorem length_piece {size : Nat} (hs : 0 < size) (xs : List α) :
    ∀ piece ∈ chunks size xs, 0 < piece.length ∧ piece.length ≤ size := by
  refine chunks_induction hs
    (motive := fun _ pieces => ∀ piece ∈ pieces, 0 < piece.length ∧ piece.length ≤ size) ?_ ?_ xs
  · simp
  · intro xs hx ih
    have hpos : 0 < xs.length := List.length_pos_iff.mpr hx
    refine List.forall_mem_cons.mpr ⟨?_, ih⟩
    rw [List.length_take]
    omega

theorem length_dropLast_piece {size : Nat} (hs : 0 < size) (xs : List α) :
    ∀ piece ∈ (chunks size xs).dropLast, piece.length = size := by
  refine chunks_induction hs
    (motive := fun _ pieces => ∀ piece ∈ pieces.dropLast, piece.length = size) ?_ ?_ xs
  · simp
  · intro xs hx ih
    by_cases hrest : xs.drop size = []
    · simp [hrest, chunks_nil]
    · have hmore : chunks size (xs.drop size) ≠ [] := by
        rw [chunks_of_ne_nil hs hrest]
        simp
      have hl : size < xs.length := by simpa using hrest
      rw [List.dropLast_cons_of_ne_nil hmore]
      refine List.forall_mem_cons.mpr ⟨?_, ih⟩
      rw [List.length_take]
      omega

theorem length_last_piece {size : Nat} (hs : 0 < size) (xs : List α) :
    ∀ piece ∈ (chunks size xs).getLast?, piece.length = (xs.length - 1) % size + 1 := by
  refine chunks_induction hs
    (motive := fun xs pieces => ∀ piece ∈ pieces.getLast?,
      piece.length = (xs.length - 1) % size + 1) ?_ ?_ xs
  · simp
  · intro xs hx ih
    have hpos : 0 < xs.length := List.length_pos_iff.mpr hx
    by_cases hrest : xs.drop size = []
    · have hl : xs.length ≤ size := List.drop_eq_nil_iff.mp hrest
      rw [hrest, chunks_nil, List.take_of_length_le hl, List.getLast?_singleton]
      intro piece hm
      cases Option.some_inj.mp hm
      rw [Nat.mod_eq_of_lt (by omega)]
      omega
    · have hl : size < xs.length := by simpa using hrest
      have hmod : (xs.length - size - 1) % size = (xs.length - 1) % size := by
        rw [Nat.mod_eq_sub_mod (a := xs.length - 1) (by omega), Nat.sub_right_comm]
      rw [chunks_of_ne_nil hs hrest, List.getLast?_cons_cons, ← chunks_of_ne_nil hs hrest]
      rw [List.length_drop, hmod] at ih
      exact ih

theorem getElem?_chunks {size : Nat} (hs : 0 < size) (xs : List α) (i : Nat) :
    (chunks size xs)[i]? =
      if i * size < xs.length then some ((xs.drop (i * size)).take size) else none := by
  refine chunks_induction hs
    (motive := fun xs pieces => ∀ i, pieces[i]? =
      if i * size < xs.length then some ((xs.drop (i * size)).take size) else none) ?_ ?_ xs i
  · simp
  · intro xs hx ih i
    have hpos : 0 < xs.length := List.length_pos_iff.mpr hx
    cases i with
    | zero => simp [hpos]
    | succ i =>
        have hstart : (i + 1) * size = size + i * size := by rw [Nat.succ_mul, Nat.add_comm]
        rw [List.getElem?_cons_succ, ih, List.length_drop, List.drop_drop, hstart]
        by_cases hin : size + i * size < xs.length
        · rw [if_pos (by omega), if_pos hin]
        · rw [if_neg (by omega), if_neg hin]

theorem chunks_of_le {size : Nat} {xs : List α} (hx : xs ≠ [])
    (hl : xs.length ≤ size) : chunks size xs = [xs] := by
  have hpos : 0 < xs.length := List.length_pos_iff.mpr hx
  rw [chunks_of_ne_nil (by omega) hx, List.take_of_length_le hl, List.drop_of_length_le hl,
    chunks_nil]

/-- There is no other cut into pieces that are full but the last, with something in that. -/
theorem eq_chunks_iff {size : Nat} (hs : 0 < size) {xs : List α} {pieces : List (List α)} :
    pieces = chunks size xs ↔
      pieces.flatten = xs ∧ (∀ piece ∈ pieces.dropLast, piece.length = size) ∧
        ∀ piece ∈ pieces.getLast?, 0 < piece.length ∧ piece.length ≤ size := by
  constructor
  · intro h
    rw [h]
    refine ⟨flatten_chunks hs xs, length_dropLast_piece hs xs, ?_⟩
    intro piece hm
    exact length_piece hs xs piece (List.mem_of_getLast? hm)
  · intro h
    obtain ⟨hwhole, hfull, hlast⟩ := h
    rw [← hwhole]
    clear hwhole
    induction pieces with
    | nil => rfl
    | cons piece rest ih =>
        cases rest with
        | nil =>
            have hone := hlast piece (by simp)
            rw [List.flatten_singleton, chunks_of_le (List.length_pos_iff.mp hone.1) hone.2]
        | cons next rest =>
            rw [List.dropLast_cons_of_ne_nil (List.cons_ne_nil _ _)] at hfull
            rw [List.getLast?_cons_cons] at hlast
            rw [List.flatten_cons, chunks_append hs (hfull piece List.mem_cons_self), ← ih ?_ hlast]
            intro other hm
            exact hfull other (List.mem_cons_of_mem _ hm)

/-- The cut around an item: full pieces in front of the one that the item lies in, and in that piece
as many items before it as the full pieces leave. -/
theorem exists_chunks_around {size : Nat} (hs : 0 < size) (before : List α) (item : α)
    (behind : List α) :
    ∃ full part rest others, before = full.flatten ++ part ∧
      (∀ piece ∈ full, piece.length = size) ∧ part.length = before.length % size ∧
      chunks size (before ++ item :: behind) = full ++ (part ++ item :: rest) :: others := by
  induction hn : before.length using Nat.strongRecOn generalizing before with
  | ind n ih =>
      by_cases hl : before.length < size
      · have hne : before ++ item :: behind ≠ [] := by simp
        have htake : (before ++ item :: behind).take size =
            before ++ item :: behind.take (size - before.length - 1) := by
          have hrest : size - before.length = size - before.length - 1 + 1 := by omega
          rw [List.take_append, List.take_of_length_le (by omega), hrest, List.take_succ_cons,
            Nat.add_sub_cancel]
        refine ⟨[], before, behind.take (size - before.length - 1),
          chunks size ((before ++ item :: behind).drop size), rfl, by simp, ?_, ?_⟩
        · rw [← hn, Nat.mod_eq_of_lt hl]
        · rw [chunks_of_ne_nil hs hne, htake]
          rfl
      · have hfirst : (before.take size).length = size := List.length_take_of_le (by omega)
        have hshorter : (before.drop size).length < n := by
          rw [List.length_drop]
          omega
        obtain ⟨full, part, rest, others, hbefore, hfull, hpart, hcut⟩ :=
          ih _ hshorter (before.drop size) rfl
        refine ⟨before.take size :: full, part, rest, others, ?_, ?_, ?_, ?_⟩
        · rw [List.flatten_cons, List.append_assoc, ← hbefore, List.take_append_drop]
        · exact List.forall_mem_cons.mpr ⟨hfirst, hfull⟩
        · rw [hpart, List.length_drop, ← hn, ← Nat.mod_eq_sub_mod (by omega)]
        · rw [← List.take_append_drop size before, List.append_assoc, chunks_append hs hfirst,
            List.take_append_drop, hcut]
          rfl

theorem chunks_map {β : Type} {size : Nat} (hs : 0 < size) (f : α → β) (xs : List α) :
    chunks size (xs.map f) = (chunks size xs).map (List.map f) := by
  refine chunks_induction hs
    (motive := fun xs pieces => chunks size (xs.map f) = pieces.map (List.map f)) ?_ ?_ xs
  · rfl
  · intro xs hx ih
    rw [chunks_of_ne_nil hs (by simpa using hx), List.map_cons, List.map_take, ← List.map_drop, ih]

end RipWire
