/-!
# Octets

Octets on the wire, and the sixteen and thirty-two bit fields among them, big
endian. A list is cut into consecutive pieces of one size; the last may be
shorter.
-/

namespace RipWire

abbrev Bytes := List UInt8

namespace Bytes

def ofNat16 (n : Nat) : Bytes :=
  [UInt8.ofNat (n / 256), UInt8.ofNat n]

def ofNat32 (n : Nat) : Bytes :=
  [UInt8.ofNat (n / 16777216), UInt8.ofNat (n / 65536), UInt8.ofNat (n / 256), UInt8.ofNat n]

def toNat (bytes : Bytes) : Nat :=
  bytes.foldl (fun value octet => 256 * value + octet.toNat) 0

/-- The octets of a record from an offset on, as many as asked for or as there are. -/
def field (offset size : Nat) (bytes : Bytes) : Bytes :=
  (bytes.drop offset).take size

theorem toNat_ofNat16 {n : Nat} (h : n < 65536) : (ofNat16 n).toNat = n := by
  simp [ofNat16, toNat]
  omega

theorem toNat_ofNat32 {n : Nat} (h : n < 4294967296) : (ofNat32 n).toNat = n := by
  simp [ofNat32, toNat]
  omega

end Bytes

/-! ### Chunks -/

/-- The fuel is the number of pieces that may still follow. -/
def chunksWithin {α : Type} (size : Nat) : Nat → List α → List (List α)
  | 0, _ => []
  | _ + 1, [] => []
  | fuel + 1, x :: xs => (x :: xs).take size :: chunksWithin size fuel ((x :: xs).drop size)

def chunks {α : Type} (size : Nat) (xs : List α) : List (List α) :=
  chunksWithin size xs.length xs

theorem chunks_nil {α : Type} (size : Nat) : chunks size ([] : List α) = [] := rfl

theorem flatten_chunksWithin {α : Type} {size : Nat} (positive : 0 < size) (fuel : Nat)
    (xs : List α) (enough : xs.length ≤ fuel) :
    (chunksWithin size fuel xs).flatten = xs := by
  induction fuel generalizing xs with
  | zero => simp_all [chunksWithin]
  | succ fuel ih =>
    cases xs with
    | nil => rfl
    | cons x xs =>
      have shorter : ((x :: xs).drop size).length ≤ fuel := by
        simp only [List.length_drop, List.length_cons] at enough ⊢
        omega
      simp only [chunksWithin, List.flatten_cons, ih _ shorter, List.take_append_drop]

theorem flatten_chunks {α : Type} {size : Nat} (positive : 0 < size) (xs : List α) :
    (chunks size xs).flatten = xs :=
  flatten_chunksWithin positive _ xs (Nat.le_refl _)

end RipWire
