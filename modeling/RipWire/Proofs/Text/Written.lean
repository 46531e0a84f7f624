import Mathlib.Algebra.Group.Nat.Defs
import Mathlib.Data.List.Induction
import RipWire.Text.Decimal

/-!
# What is written in texts

The decimal digits of a number have the number as their value, and only the
number zero has a zero in front. Cutting a text at a code point undoes putting
pieces together.
-/

namespace RipWire.Text

theorem ofNat_ne_nil (n : Nat) : ofNat n ≠ [] := by
  simp [ofNat, Nat.toDigits_ne_nil]

theorem isAsciiDigit_of_mem_ofNat {n : Nat} {c : CodePoint} (h : c ∈ ofNat n) :
    isAsciiDigit c = true := by
  obtain ⟨digit, hd, rfl⟩ := List.mem_map.mp h
  have hdigit := Nat.isDigit_of_mem_toDigits (by decide) (by decide) hd
  simpa [isAsciiDigit, Char.isDigit, UInt32.le_iff_toNat_le] using hdigit

theorem ofInt_append_ne {n : Int} {c : CodePoint} (hsign : c ≠ 45) (hdigit : isAsciiDigit c = false)
    (rest other : Text) : ofInt n ++ rest ≠ c :: other := by
  have hnot (m : Nat) : c ∉ ofNat m := by
    intro hm
    rw [isAsciiDigit_of_mem_ofNat hm] at hdigit
    cases hdigit
  intro h
  cases n with
  | ofNat m =>
      cases hm : ofNat m with
      | nil => exact ofNat_ne_nil m hm
      | cons d digits =>
          rw [ofInt, hm, List.cons_append, List.cons.injEq] at h
          exact hnot m (by rw [hm, h.1]; exact List.mem_cons_self)
  | negSucc m =>
      rw [ofInt, List.cons_append, List.cons.injEq] at h
      exact hsign h.1.symm

theorem digitsValue_ofNat (n : Nat) : digitsValue (ofNat n) = n := by
  have hfold : digitsValue (ofNat n) = Nat.ofDigitChars 10 (Nat.toDigits 10 n) 0 := by
    rw [digitsValue, ofNat, List.foldl_map, Nat.ofDigitChars_eq_foldl]
    rfl
  rw [hfold, Nat.ofDigitChars_ten_toDigits]

theorem ofNat_inj {m n : Nat} : ofNat m = ofNat n ↔ m = n := by
  constructor
  · intro h
    rw [← digitsValue_ofNat m, h, digitsValue_ofNat]
  · intro h
    rw [h]

theorem length_ofNat_le {n digits : Nat} (h : n < 10 ^ digits) (hd : 0 < digits) :
    (ofNat n).length ≤ digits := by
  rw [ofNat, List.length_map]
  exact (Nat.length_toDigits_le_iff (by decide) hd).mpr h

theorem ofNat_of_lt_ten {n : Nat} (h : n < 10) : ofNat n = [48 + n] := by
  rw [ofNat, Nat.toDigits_of_lt_base h, List.map_singleton, Nat.toNat_digitChar_of_lt_ten h]

/-- The last digit stands behind the digits of the tens. -/
theorem ofNat_of_ten_le {n : Nat} (h : 10 ≤ n) : ofNat n = ofNat (n / 10) ++ [48 + n % 10] := by
  rw [ofNat, Nat.toDigits_of_base_le (by decide) h, List.map_append, List.map_singleton,
    Nat.toNat_digitChar_of_lt_ten (Nat.mod_lt n (by decide))]
  rfl

theorem head?_ofNat_ne {n : Nat} (hn : 0 < n) : (ofNat n).head? ≠ some 48 := by
  induction n using Nat.strongRecOn with
  | ind n ih =>
      by_cases hten : n < 10
      · simpa [ofNat_of_lt_ten hten] using Nat.ne_of_gt hn
      · have hhead := ih (n / 10) (by omega) (by omega)
        cases hd : ofNat (n / 10) with
        | nil => exact (ofNat_ne_nil _ hd).elim
        | cons c rest => simpa [ofNat_of_ten_le (Nat.le_of_not_lt hten), hd] using hhead

theorem digitsValue_concat (digits : Text) (c : Nat) :
    digitsValue (digits ++ [c]) = 10 * digitsValue digits + (c - 48) := by
  simp [digitsValue]

theorem isAsciiDigit_iff {c : Nat} : isAsciiDigit c = true ↔ 48 ≤ c ∧ c ≤ 57 := by
  simp [isAsciiDigit]

theorem ofNat_digitsValue {digits : Text} (hne : digits ≠ [])
    (hdigits : ∀ c ∈ digits, isAsciiDigit c = true)
    (hzero : digits ≠ [48] → digits.head? ≠ some 48) : ofNat (digitsValue digits) = digits := by
  induction digits using List.reverseRecOn with
  | nil => exact (hne rfl).elim
  | append_singleton front c ih =>
      have hc := isAsciiDigit_iff.mp (hdigits c (by simp))
      rw [digitsValue_concat]
      by_cases hfront : front = []
      · subst hfront
        have hvalue : digitsValue [] = 0 := rfl
        rw [hvalue, ofNat_of_lt_ten (by omega), Nat.mul_zero, Nat.zero_add,
          Nat.add_sub_cancel' hc.1]
        rfl
      · have hlong : front ++ [c] ≠ [48] := by
          intro h
          have hl := congrArg List.length h
          simp [hfront] at hl
        have hhead : front.head? ≠ some 48 := by
          obtain ⟨first, rest, rfl⟩ := List.exists_cons_of_ne_nil hfront
          exact hzero hlong
        have hwritten := ih hfront (fun d hd => hdigits d (by simp [hd])) (fun _ => hhead)
        have hpos : 0 < digitsValue front := by
          rcases Nat.eq_zero_or_pos (digitsValue front) with hz | hpos
          · rw [hz] at hwritten
            rw [← hwritten] at hhead
            exact (hhead rfl).elim
          · exact hpos
        have htens : (10 * digitsValue front + (c - 48)) / 10 = digitsValue front := by omega
        have hones : (10 * digitsValue front + (c - 48)) % 10 = c - 48 := by omega
        rw [ofNat_of_ten_le (by omega), htens, hones, hwritten]
        rw [Nat.add_sub_cancel' hc.1]

theorem cutAt_eq_splitOn (separator : CodePoint) (t : Text) :
    cutAt separator t = t.splitOn separator := by
  induction t with
  | nil => rfl
  | cons c t ih =>
      rw [List.splitOn_cons_eq_if_modifyHead, ← ih]
      simp only [cutAt, List.foldr_cons]
      by_cases hc : c = separator
      · simp [hc]
      · have hne := cutAt_cons_ne_nil separator t
        rw [if_neg hc, if_neg (by simpa using hc)]
        cases hcut : cutAt separator t with
        | nil => exact (hne hcut).elim
        | cons piece rest =>
            rw [cutAt] at hcut
            rw [hcut]
            rfl

end RipWire.Text
