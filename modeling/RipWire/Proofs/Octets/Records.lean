import RipWire.Octets.Basic

/-!
# Records in a run of octets

Cutting a run of whole records gives the records back, and the record with an
index is the field at the index times the size. Fields are looked up by their
offset in the whole run as well as by their offset in a record.
-/

namespace RipWire

variable {α : Type}

/-- The fuel of a cut does not matter once it covers the list. -/
theorem chunksWithin_eq {size : Nat} (hs : 0 < size) (fuel : Nat) (xs : List α)
    (hf : xs.length ≤ fuel) : chunksWithin size fuel xs = chunksWithin size xs.length xs := by
  induction fuel using Nat.strongRecOn generalizing xs with
  | ind fuel ih =>
      cases xs with
      | nil => cases fuel <;> rfl
      | cons x xs =>
          cases fuel with
          | zero => simp at hf
          | succ fuel =>
              have hd : ((x :: xs).drop size).length ≤ xs.length := by
                simp only [List.length_drop, List.length_cons]
                omega
              have hl : xs.length ≤ fuel := by simpa using hf
              simp only [chunksWithin, List.length_cons]
              rw [ih fuel (by omega) _ (Nat.le_trans hd hl)]
              rcases Nat.lt_or_ge xs.length (fuel + 1) with h | h
              · rw [ih xs.length h _ hd]
              · omega

theorem chunks_of_ne_nil {size : Nat} (hs : 0 < size) {xs : List α} (hx : xs ≠ []) :
    chunks size xs = xs.take size :: chunks size (xs.drop size) := by
  cases xs with
  | nil => exact (hx rfl).elim
  | cons x xs =>
      have hd : ((x :: xs).drop size).length ≤ xs.length := by
        simp only [List.length_drop, List.length_cons]
        omega
      simp only [chunks, List.length_cons, chunksWithin]
      rw [chunksWithin_eq hs xs.length _ hd]

theorem chunks_append {size : Nat} (hs : 0 < size) {piece : List α} (hp : piece.length = size)
    (rest : List α) : chunks size (piece ++ rest) = piece :: chunks size rest := by
  have hne : piece ++ rest ≠ [] := by
    intro h
    have hl := congrArg List.length h
    simp only [List.length_append, List.length_nil] at hl
    omega
  rw [chunks_of_ne_nil hs hne, List.take_left' hp, List.drop_left' hp]

theorem chunks_flatten {size : Nat} (hs : 0 < size) (records : List (List α))
    (hw : ∀ record ∈ records, record.length = size) : chunks size records.flatten = records := by
  induction records with
  | nil => rfl
  | cons record records ih =>
      rw [List.flatten_cons, chunks_append hs (hw record (by simp)),
        ih fun other hm => hw other (by simp [hm])]

theorem length_flatten_records {size : Nat} (records : List (List α))
    (hw : ∀ record ∈ records, record.length = size) :
    records.flatten.length = records.length * size := by
  induction records with
  | nil => simp
  | cons record records ih =>
      have hr := hw record (by simp)
      have ht := ih fun other hm => hw other (by simp [hm])
      simp only [List.flatten_cons, List.length_append, List.length_cons, Nat.succ_mul]
      omega

theorem take_flatten_records {size : Nat} (records : List (List α))
    (hw : ∀ record ∈ records, record.length = size) (j : Nat) :
    records.flatten.take (size * j) = (records.take j).flatten := by
  induction records generalizing j with
  | nil => simp
  | cons record records ih =>
      have hr : record.length = size := hw record (by simp)
      cases j with
      | zero => simp
      | succ j =>
          have hj : size * (j + 1) = record.length + size * j := by
            rw [hr, Nat.mul_succ]
            omega
          rw [List.flatten_cons, hj, List.take_length_add_append, List.take_succ_cons,
            List.flatten_cons, ih fun other hm => hw other (by simp [hm])]

theorem length_of_mem_chunks {size : Nat} (hs : 0 < size) (count : Nat) (xs : List α)
    (hl : xs.length = count * size) : ∀ piece ∈ chunks size xs, piece.length = size := by
  induction count generalizing xs with
  | zero =>
      have hx : xs = [] := List.eq_nil_of_length_eq_zero (by omega)
      simp [hx, chunks_nil]
  | succ count ih =>
      have hge : size ≤ xs.length := by
        rw [hl, Nat.succ_mul]
        omega
      have hx : xs ≠ [] := by
        rintro rfl
        simp at hge
        omega
      have hrest : (xs.drop size).length = count * size := by
        rw [List.length_drop, hl, Nat.succ_mul]
        omega
      intro piece hm
      rw [chunks_of_ne_nil hs hx] at hm
      rcases List.mem_cons.mp hm with rfl | hm
      · rw [List.length_take]
        omega
      · exact ih _ hrest piece hm

theorem length_chunks {size : Nat} (hs : 0 < size) (count : Nat) (xs : List α)
    (hl : xs.length = count * size) : (chunks size xs).length = count := by
  have hf := length_flatten_records (chunks size xs) (length_of_mem_chunks hs count xs hl)
  rw [flatten_chunks hs, hl] at hf
  exact (Nat.eq_of_mul_eq_mul_right hs hf).symm

/-- The position in a run of whole records is one in the record that it falls into. -/
theorem getElem?_flatten_records {size : Nat} (hs : 0 < size) (records : List (List α))
    (hw : ∀ record ∈ records, record.length = size) (i : Nat) :
    records.flatten[i]? = records[i / size]?.bind fun record => record[i % size]? := by
  induction records generalizing i with
  | nil => simp
  | cons record records ih =>
      have hr : record.length = size := hw record (by simp)
      rw [List.flatten_cons]
      by_cases hi : i < size
      · rw [List.getElem?_append_left (by omega), Nat.div_eq_of_lt hi, Nat.mod_eq_of_lt hi]
        rfl
      · have hdiv : i / size = (i - size) / size + 1 := by
          rw [Nat.div_eq_sub_div hs (by omega)]
        have hmod : i % size = (i - size) % size := Nat.mod_eq_sub_mod (by omega)
        rw [List.getElem?_append_right (by omega), hr, hdiv, hmod, List.getElem?_cons_succ]
        exact ih (fun other hm => hw other (by simp [hm])) (i - size)

namespace Bytes

theorem toNat_lt_of_length_two {bytes : Bytes} (h : bytes.length = 2) : bytes.toNat < 65536 := by
  match bytes, h with
  | [a, b], _ =>
      have ha := a.toNat_lt
      have hb := b.toNat_lt
      simp only [toNat, List.foldl_cons, List.foldl_nil]
      omega

theorem toNat_lt_of_length_four {bytes : Bytes} (h : bytes.length = 4) :
    bytes.toNat < 4294967296 := by
  match bytes, h with
  | [a, b, c, d], _ =>
      have ha := a.toNat_lt
      have hb := b.toNat_lt
      have hc := c.toNat_lt
      have hd := d.toNat_lt
      simp only [toNat, List.foldl_cons, List.foldl_nil]
      omega

theorem ofNat_eq_of_mod {n : Nat} (octet : UInt8) (h : n % 256 = octet.toNat) :
    UInt8.ofNat n = octet := by
  rw [← UInt8.toNat_inj, UInt8.toNat_ofNat', h]

theorem ofNat16_toNat {bytes : Bytes} (h : bytes.length = 2) : ofNat16 bytes.toNat = bytes := by
  match bytes, h with
  | [a, b], _ =>
      have ha := a.toNat_lt
      have hb := b.toNat_lt
      simp only [ofNat16, toNat, List.foldl_cons, List.foldl_nil]
      rw [ofNat_eq_of_mod a (by omega), ofNat_eq_of_mod b (by omega)]

theorem ofNat32_toNat {bytes : Bytes} (h : bytes.length = 4) : ofNat32 bytes.toNat = bytes := by
  match bytes, h with
  | [a, b, c, d], _ =>
      have ha := a.toNat_lt
      have hb := b.toNat_lt
      have hc := c.toNat_lt
      have hd := d.toNat_lt
      simp only [ofNat32, toNat, List.foldl_cons, List.foldl_nil]
      rw [ofNat_eq_of_mod a (by omega), ofNat_eq_of_mod b (by omega),
        ofNat_eq_of_mod c (by omega), ofNat_eq_of_mod d (by omega)]

theorem field_append_field (bytes : Bytes) (offset size more : Nat) :
    bytes.field offset size ++ bytes.field (offset + size) more =
      bytes.field offset (size + more) := by
  rw [field, field, field, ← List.drop_drop, List.take_add]

theorem getElem?_field (offset size : Nat) (bytes : Bytes) (i : Nat) :
    (bytes.field offset size)[i]? = if i < size then bytes[offset + i]? else none := by
  rw [field, List.getElem?_take, List.getElem?_drop]

theorem length_field {bytes : Bytes} {offset size : Nat} (h : offset + size ≤ bytes.length) :
    (bytes.field offset size).length = size := by
  simp only [field, List.length_take, List.length_drop]
  omega

theorem field_append_right (front bytes : Bytes) (offset size : Nat) :
    field (front.length + offset) size (front ++ bytes) = bytes.field offset size := by
  rw [field, ← List.drop_drop, List.drop_left, field]

theorem field_field {bytes : Bytes} {offset size start width : Nat} (h : start + width ≤ size) :
    (bytes.field offset size).field start width = bytes.field (offset + start) width := by
  unfold field
  rw [List.drop_take, List.take_take, List.drop_drop, Nat.min_eq_left (by omega)]

theorem field_flatten {size : Nat} (records : List Bytes)
    (hw : ∀ record ∈ records, record.length = size) (k : Nat) (hk : k < records.length) :
    field (size * k) size records.flatten = records[k] := by
  induction records generalizing k with
  | nil => simp at hk
  | cons record records ih =>
      have hr : record.length = size := hw record (by simp)
      cases k with
      | zero => simp [field, List.take_left' hr]
      | succ k =>
          have hl : k < records.length := by simpa using hk
          have ho : size * (k + 1) = record.length + size * k := by
            rw [hr, Nat.mul_succ]
            omega
          rw [List.flatten_cons, ho, field_append_right, List.getElem_cons_succ]
          exact ih (fun other hm => hw other (by simp [hm])) k hl

end Bytes

end RipWire
