import RipWire.Json.Writer
import RipWire.Proofs.Json.Steps
import RipWire.Proofs.Text.Written

/-!
# Plain values

A plain value has integers that are not too long, texts of printable ASCII and
objects whose names differ; it has no floating point numbers. Texts and numbers
are read from what they are written as, up to the end of it.
-/

namespace RipWire

/-- The printable code points of ASCII. -/
def Text.IsAscii (t : Text) : Prop :=
  ∀ c ∈ t, 32 ≤ c ∧ c ≤ 126

instance (t : Text) : Decidable t.IsAscii :=
  inferInstanceAs (Decidable (∀ c ∈ t, _))

theorem Text.isAscii_ofNat (n : Nat) : (ofNat n).IsAscii := by
  intro c hm
  have hc : 48 ≤ c ∧ c ≤ 57 := by simpa [isAsciiDigit] using isAsciiDigit_of_mem_ofNat hm
  exact ⟨Nat.le_trans (by decide) hc.1, Nat.le_trans hc.2 (by decide)⟩

namespace Json

mutual

def Plain : Json → Prop
  | .null => True
  | .bool _ => True
  | .int n => (Text.ofNat n.natAbs).length ≤ integerDigitsLimit
  | .float _ => False
  | .string t => t.IsAscii
  | .array items => PlainItems items
  | .object members => (members.map Prod.fst).Nodup ∧ PlainMembers members

def PlainItems : List Json → Prop
  | [] => True
  | item :: items => Plain item ∧ PlainItems items

def PlainMembers : List (Text × Json) → Prop
  | [] => True
  | (name, value) :: members => name.IsAscii ∧ Plain value ∧ PlainMembers members

end

/-! ### Texts -/

theorem escapedPoint_of_ascii {c : Nat} (hl : 32 ≤ c) (hr : c ≤ 126) :
    escapedPoint c = if c = 34 ∨ c = 92 then [92, c] else [c] := by
  have hrange : (decide (32 ≤ c) && decide (c ≤ 126)) = true := by simp [hl, hr]
  obtain ⟨hfeed, hreturn, htab, hform, hback⟩ :
      c ≠ 10 ∧ c ≠ 13 ∧ c ≠ 9 ∧ c ≠ 12 ∧ c ≠ 8 := by omega
  unfold escapedPoint
  by_cases hquote : c = 34
  · simp [hquote, text]
  · by_cases hslash : c = 92
    · simp [hslash, text]
    · rw [if_neg hquote, if_neg hslash, if_neg hfeed, if_neg hreturn, if_neg htab, if_neg hform,
        if_neg hback, if_pos hrange, if_neg (by simp [hquote, hslash])]

theorem stringBody_escaped (opening : Text) (joins : Bool) (body : Text) {c : Nat}
    (hl : 32 ≤ c) (hr : c ≤ 126) (rest : Text) :
    stringBody opening joins body (escapedPoint c ++ rest) =
      stringBody opening false (c :: body) rest := by
  rw [escapedPoint_of_ascii hl hr]
  by_cases hc : c = 34 ∨ c = 92
  · have hescape : simpleEscape? c = some c := by
      rcases hc with rfl | rfl <;> rfl
    rw [if_pos hc]
    exact stringBody_escape opening joins body hescape rest
  · rw [if_neg hc]
    exact stringBody_plain opening joins body (fun h => hc (.inl h)) (fun h => hc (.inr h)) hl rest

theorem stringBody_written {t : Text} (ht : t.IsAscii) (opening : Text) (joins : Bool)
    (body rest : Text) :
    stringBody opening joins body (t.flatMap escapedPoint ++ 34 :: rest) =
      .ok (body.reverse ++ t, rest) := by
  induction t generalizing joins body with
  | nil =>
      rw [List.flatMap_nil, List.nil_append, stringBody_quote, List.append_nil]
  | cons c t ih =>
      obtain ⟨hc, hrest⟩ := List.forall_mem_cons.mp ht
      rw [List.flatMap_cons, List.append_assoc, stringBody_escaped _ _ _ hc.1 hc.2, ih hrest]
      simp

/-! ### Numbers -/

theorem wholePart_ofNat (n : Nat) {rest : Text} (hr : Ends rest) :
    wholePart (Text.ofNat n ++ rest) = some (Text.ofNat n, rest) := by
  have hdigits : ∀ c ∈ Text.ofNat n, Text.isAsciiDigit c = true :=
    fun c hc => Text.isAsciiDigit_of_mem_ofNat hc
  cases hn : Text.ofNat n with
  | nil => exact (Text.ofNat_ne_nil n hn).elim
  | cons c digits =>
      rw [hn] at hdigits
      obtain ⟨hc, hmore⟩ := List.forall_mem_cons.mp hdigits
      obtain ⟨htake, hdrop⟩ := takeWhile_digits hmore hr.stops
      by_cases hzero : c = 48
      · rcases Nat.eq_zero_or_pos n with rfl | hpos
        · cases hn
          rfl
        · have hhead := Text.head?_ofNat_ne hpos
          rw [hn, hzero] at hhead
          exact (hhead rfl).elim
      · rw [List.cons_append, wholePart, if_neg hzero, if_pos hc, htake, hdrop]

theorem value_numeral {n : Nat} (hn : (Text.ofNat n).length ≤ integerDigitsLimit)
    (negative : Bool) :
    (Numeral.mk negative (Text.ofNat n) [] none).value =
      .ok (.int (if negative then -(n : Int) else n)) := by
  have hlong : ¬ integerDigitsLimit < (Text.ofNat n).length := Nat.not_lt.mpr hn
  simp [Numeral.value, hlong, Text.digitsValue_ofNat]

theorem unsignedNumber_ofNat (t : Text) {n : Nat}
    (hn : (Text.ofNat n).length ≤ integerDigitsLimit) (negative : Bool) {rest : Text}
    (hr : Ends rest) : unsignedNumber t negative (Text.ofNat n ++ rest) =
      .ok (.int (if negative then -(n : Int) else n), rest) := by
  unfold unsignedNumber
  simp only [wholePart_ofNat n hr, fractionPart_of_ends hr, exponentPart_of_ends hr,
    value_numeral hn]
  rfl

theorem number_written {n : Int} (hn : Plain (.int n)) {rest : Text} (hr : Ends rest) :
    number (Text.ofInt n ++ rest) = .ok (.int n, rest) := by
  rw [Plain] at hn
  cases n with
  | ofNat n =>
      have hsign : ∀ c ∈ (Text.ofNat n ++ rest).head?, c ≠ 45 := by
        obtain ⟨d, digits, hd⟩ := List.exists_cons_of_ne_nil (Text.ofNat_ne_nil n)
        have hdigit : Text.isAsciiDigit d = true :=
          Text.isAsciiDigit_of_mem_ofNat (n := n) (by simp [hd])
        rw [hd]
        rintro c ⟨⟩ rfl
        cases hdigit
      rw [Text.ofInt, number_no_sign hsign]
      exact unsignedNumber_ofNat _ hn false hr
  | negSucc n =>
      rw [Text.ofInt, List.cons_append, number_negative_sign]
      exact unsignedNumber_ofNat _ hn true hr

end Json

end RipWire
