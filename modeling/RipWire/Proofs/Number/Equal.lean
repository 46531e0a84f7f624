import Mathlib.Algebra.Field.Rat
import Mathlib.Algebra.GroupWithZero.Basic
import Mathlib.Algebra.Order.Field.Rat
import Mathlib.Tactic.FieldSimp
import RipWire.Json.Basic

/-!
# Values that equal an integer

A value equals an integer when the rational number that it is equals the integer,
whether it is written as an integer, as a floating point number or as a truth
value.
-/

namespace RipWire

namespace Binary64

/-- The number that a finite one is: its mantissa times a power of two, with its sign. -/
def value? : Binary64 → Option ℚ
  | .finite negative mantissa exponent =>
    some ((if negative then -1 else 1) * mantissa * 2 ^ exponent)
  | _ => none

theorem scaled_pos (mantissa : Nat) (exponent : Int) : 0 < (scaled mantissa 1 exponent).2 := by
  unfold scaled
  split
  · simp
  · exact Nat.one_pos

theorem scaled_quotient (mantissa : Nat) (exponent : Int) :
    ((scaled mantissa 1 (-exponent)).1 : ℚ) / (scaled mantissa 1 (-exponent)).2 =
      mantissa * 2 ^ exponent := by
  unfold scaled
  by_cases hsmall : 0 ≤ -exponent
  · obtain ⟨k, hk⟩ := Int.eq_ofNat_of_zero_le hsmall
    have he : exponent = -(k : Int) := by omega
    rw [if_pos hsmall, he, zpow_neg, zpow_natCast]
    simp [div_eq_mul_inv]
  · obtain ⟨k, hk⟩ := Int.eq_ofNat_of_zero_le (show 0 ≤ exponent by omega)
    rw [if_neg hsmall, hk, zpow_natCast]
    simp

theorem quotient_eq_iff {n d : Nat} (hd : 0 < d) {z : Int} :
    (n : ℚ) / d = z ↔ n % d = 0 ∧ ((n / d : Nat) : Int) = z := by
  have hne : (d : ℚ) ≠ 0 := Nat.cast_ne_zero.mpr (by omega)
  rw [div_eq_iff hne]
  constructor
  · intro h
    have hn : (n : Int) = z * d := by exact_mod_cast h
    have hrest : ((n % d : Nat) : Int) = 0 := by
      rw [Int.natCast_mod, hn, Int.mul_emod_left]
    have hquotient : ((n / d : Nat) : Int) = z := by
      rw [Int.natCast_div, hn, Int.mul_ediv_cancel z (by omega)]
    exact ⟨by exact_mod_cast hrest, hquotient⟩
  · rintro ⟨hrest, rfl⟩
    have hn := Nat.div_add_mod n d
    rw [hrest, Nat.add_zero, Nat.mul_comm] at hn
    exact_mod_cast hn.symm

theorem toInt?_eq_some_iff {f : Binary64} {n : Int} :
    f.toInt? = some n ↔ f.value? = some (n : ℚ) := by
  cases f with
  | nan => simp [toInt?, value?]
  | infinity negative => simp [toInt?, value?]
  | finite negative mantissa exponent =>
      have hpos := scaled_pos mantissa (-exponent)
      have hquotient := scaled_quotient mantissa exponent
      simp only [toInt?, value?, mul_assoc, ← hquotient, Option.some.injEq]
      cases negative with
      | false =>
          simp only [Bool.false_eq_true, if_false, one_mul]
          rw [quotient_eq_iff hpos]
          split <;> simp_all
      | true =>
          have hopposite : -1 * (((scaled mantissa 1 (-exponent)).1 : ℚ) /
              (scaled mantissa 1 (-exponent)).2) = n ↔
              ((scaled mantissa 1 (-exponent)).1 : ℚ) / (scaled mantissa 1 (-exponent)).2 =
                ((-n : Int) : ℚ) := by
            rw [neg_one_mul, neg_eq_iff_eq_neg, Int.cast_neg]
          simp only [if_true]
          rw [hopposite, quotient_eq_iff hpos]
          split <;> simp_all [neg_eq_iff_eq_neg]

end Binary64

namespace Json

/-- The number that a value is; a truth value is one or zero. -/
def number? : Json → Option ℚ
  | .int n => some n
  | .bool b => some (if b then 1 else 0)
  | .float f => f.value?
  | _ => none

theorem toInt?_eq_some_iff {value : Json} {n : Int} :
    value.toInt? = some n ↔ value.number? = some (n : ℚ) := by
  cases value with
  | int m => simp [toInt?, number?]
  | bool b =>
      simp only [toInt?, number?, Option.some.injEq]
      cases b <;> exact_mod_cast Iff.rfl
  | float f => exact Binary64.toInt?_eq_some_iff
  | _ => simp [toInt?, number?]

end Json

end RipWire
