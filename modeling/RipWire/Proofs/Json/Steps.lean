import RipWire.Json.Reader

/-!
# Steps of the reader

What the reader does next, with one equation for each form of the text in front of
it. What it has read so far and what it has yet to read are all that a step depends
on.
-/

namespace RipWire.Json

/-! ### Space -/

theorem skipSpace_append {gap : Text} (hg : ∀ c ∈ gap, isSpace c = true) (rest : Text) :
    skipSpace (gap ++ rest) = skipSpace rest :=
  List.dropWhile_append_of_pos hg

theorem skipSpace_cons {c : CodePoint} (hc : isSpace c = false) (rest : Text) :
    skipSpace (c :: rest) = c :: rest := by
  simp [skipSpace, hc]

/-! ### Texts -/

section Texts

variable (opening : Text) (joins : Bool) (body : Text)

theorem stringBody_quote (rest : Text) :
    stringBody opening joins body (34 :: rest) = .ok (body.reverse, rest) := by
  rw [stringBody.eq_def]
  rfl

theorem stringBody_plain {c : CodePoint} (hquote : c ≠ 34) (hslash : c ≠ 92) (hc : 32 ≤ c)
    (rest : Text) :
    stringBody opening joins body (c :: rest) = stringBody opening false (c :: body) rest := by
  have hcontrol : ¬ c < 32 := Nat.not_lt.mpr hc
  rw [stringBody.eq_def]
  simp [hquote, hslash, hcontrol]

theorem stringBody_escape {e plain : CodePoint} (he : simpleEscape? e = some plain) (rest : Text) :
    stringBody opening joins body (92 :: e :: rest) =
      stringBody opening false (plain :: body) rest := by
  have hunit : e ≠ 117 := by
    rintro rfl
    cases he
  rw [stringBody.eq_def]
  simp [hunit, he]

theorem stringBody_unit {p q r s : CodePoint} {unit : Nat} (hu : unit? p q r s = some unit)
    (next : CodePoint) (rest : Text) :
    stringBody opening joins body (92 :: 117 :: p :: q :: r :: s :: next :: rest) =
      stringBody opening (isHighSurrogate unit) (withUnit joins unit body) (next :: rest) := by
  rw [stringBody.eq_def]
  simp [hu]

end Texts

/-! ### Numbers -/

/-- No run of digits goes on here. -/
def Stops (rest : Text) : Prop :=
  ∀ c ∈ rest.head?, Text.isAsciiDigit c = false

/-- What can stand behind a number without becoming part of it. -/
def Ends (rest : Text) : Prop :=
  ∀ c ∈ rest.head?, Text.isAsciiDigit c = false ∧ c ≠ 46 ∧ c ≠ 101 ∧ c ≠ 69

theorem ends_nil : Ends [] := by
  intro c hc
  cases hc

theorem ends_cons {c : CodePoint} (hc : Text.isAsciiDigit c = false ∧ c ≠ 46 ∧ c ≠ 101 ∧ c ≠ 69)
    (rest : Text) : Ends (c :: rest) := by
  intro d hd
  cases hd
  exact hc

theorem ends_of_space {gap : Text} (hg : ∀ c ∈ gap, isSpace c = true) {rest : Text}
    (hr : Ends rest) : Ends (gap ++ rest) := by
  cases gap with
  | nil => exact hr
  | cons c gap =>
      have hc : isSpace c = true := hg c (by simp)
      refine ends_cons ?_ _
      simp only [isSpace, Bool.or_eq_true, decide_eq_true_eq] at hc
      rcases hc with ((rfl | rfl) | rfl) | rfl <;> decide

theorem Ends.stops {rest : Text} (h : Ends rest) : Stops rest :=
  fun c hc => (h c hc).1

theorem takeWhile_digits {digits rest : Text} (hd : ∀ c ∈ digits, Text.isAsciiDigit c = true)
    (hr : Stops rest) :
    (digits ++ rest).takeWhile Text.isAsciiDigit = digits ∧
      (digits ++ rest).dropWhile Text.isAsciiDigit = rest := by
  rw [List.takeWhile_append_of_pos hd, List.dropWhile_append_of_pos hd]
  cases rest with
  | nil => simp
  | cons c rest =>
      have hc := hr c rfl
      simp [hc]

theorem fractionPart_of_ne {rest : Text} (hr : ∀ c ∈ rest.head?, c ≠ 46) :
    fractionPart rest = ([], rest) := by
  cases rest with
  | nil => rfl
  | cons c rest =>
      have hpoint : c ≠ 46 := hr c rfl
      unfold fractionPart
      split
      · next h =>
          cases h
          exact (hpoint rfl).elim
      · rfl

theorem fractionPart_of_ends {rest : Text} (hr : Ends rest) : fractionPart rest = ([], rest) :=
  fractionPart_of_ne fun c hc => (hr c hc).2.1

theorem exponentPart_of_ends {rest : Text} (hr : Ends rest) : exponentPart rest = (none, rest) := by
  cases rest with
  | nil => rfl
  | cons c rest =>
      obtain ⟨-, -, hlower, hupper⟩ := hr c rfl
      rw [exponentPart.eq_def]
      simp [hlower, hupper]

/-- Reads a number behind its sign. `t` is the text with the sign. -/
def unsignedNumber (t : Text) (negative : Bool) (unsigned : Text) : Step Json :=
  match wholePart unsigned with
  | none => stuck .expectingValue t
  | some (whole, rest) =>
    let (fraction, rest) := fractionPart rest
    let (exponent, rest) := exponentPart rest
    (Numeral.mk negative whole fraction exponent).value.map fun value => (value, rest)

theorem number_negative_sign (t : Text) : number (45 :: t) = unsignedNumber (45 :: t) true t :=
  rfl

theorem number_no_sign {t : Text} (ht : ∀ c ∈ t.head?, c ≠ 45) :
    number t = unsignedNumber t false t := by
  unfold number unsignedNumber
  split
  next negative unsigned h =>
    split at h
    · next rest =>
        exact (ht 45 rfl rfl).elim
    · cases h
      rfl

/-! ### Values without parts -/

theorem word?_digit {c : CodePoint} (hc : Text.isAsciiDigit c = true) (rest : Text) :
    word? (c :: rest) = none := by
  have hrange : 48 ≤ c ∧ c ≤ 57 := by simpa [Text.isAsciiDigit] using hc
  have hne : ∀ d : CodePoint, d < 48 ∨ 57 < d → ¬ d = c := by
    rintro d (hd | hd) rfl
    · exact Nat.not_lt.mpr hrange.1 hd
    · exact Nat.not_lt.mpr hrange.2 hd
  simp [word?, words, text, hne]

theorem word?_sign {c : CodePoint} (hc : Text.isAsciiDigit c = true) (rest : Text) :
    word? (45 :: c :: rest) = none := by
  have hne : ¬ 73 = c := by
    rintro rfl
    cases hc
  simp [word?, words, text, hne]

/-- A number is left to the reader of numbers, since it starts like no other value. -/
theorem value_number (fuel : Nat) {c : CodePoint} {rest : Text}
    (hc : Text.isAsciiDigit c = true ∨ c = 45) (hword : word? (c :: rest) = none) :
    value (fuel + 1) (c :: rest) = number (c :: rest) := by
  have hne : c ≠ 34 ∧ c ≠ 123 ∧ c ≠ 91 := by
    refine ⟨?_, ?_, ?_⟩ <;>
      · rintro rfl
        rcases hc with h | h <;> cases h
  rw [value.eq_def]
  simp only [if_neg hne.1, if_neg hne.2.1, if_neg hne.2.2, hword]

theorem value_quote (fuel : Nat) {body name rest : Text}
    (h : stringBody (34 :: body) false [] body = .ok (name, rest)) :
    value (fuel + 1) (34 :: body) = .ok (.string name, rest) := by
  rw [value, if_pos rfl, h]
  rfl

/-- How a value starts. -/
def Starts (c : CodePoint) : Prop :=
  isSpace c = false ∧ c ≠ 93 ∧ c ≠ 0xfeff

instance (c : CodePoint) : Decidable (Starts c) :=
  inferInstanceAs (Decidable (_ ∧ _))

/-! ### Arrays and objects -/

/-- Reads on behind an item: the closing bracket, or a comma and the items that are left. -/
def afterItem (fuel : Nat) (read : List Json) (t : Text) : Step Json :=
  match skipSpace t with
  | 93 :: rest => .ok (.array read.reverse, rest)
  | 44 :: rest => items fuel read (skipSpace rest)
  | rest => stuck .expectingComma rest

/-- Reads on behind a member: the closing brace, or a comma and the members that are left. -/
def afterMember (fuel : Nat) (read : List (Text × Json)) (t : Text) : Step Json :=
  match skipSpace t with
  | 125 :: rest => .ok (.object read, rest)
  | 44 :: rest => members fuel read (skipSpace rest)
  | rest => stuck .expectingComma rest

theorem items_of_value {fuel : Nat} {read : List Json} {t rest : Text} {item : Json}
    (h : value fuel t = .ok (item, rest)) :
    items (fuel + 1) read t = afterItem fuel (item :: read) rest := by
  rw [items, h]
  rfl

theorem members_of_value {fuel : Nat} {read : List (Text × Json)} {body name behind t rest : Text}
    {member : Json} (hname : stringBody (34 :: body) false [] body = .ok (name, behind))
    (hcolon : skipSpace behind = 58 :: t) (h : value fuel (skipSpace t) = .ok (member, rest)) :
    members (fuel + 1) read (34 :: body) = afterMember fuel (insert name member read) rest := by
  rw [members]
  simp only [hname, hcolon, h]
  rfl

section Gap

variable {gap : Text} (hg : ∀ c ∈ gap, isSpace c = true)

include hg

theorem afterItem_bracket (fuel : Nat) (read : List Json) (rest : Text) :
    afterItem fuel read (gap ++ 93 :: rest) = .ok (.array read.reverse, rest) := by
  rw [afterItem, skipSpace_append hg, skipSpace_cons rfl]
  rfl

theorem afterItem_comma (fuel : Nat) (read : List Json) (t : Text) :
    afterItem fuel read (gap ++ 44 :: t) = items fuel read (skipSpace t) := by
  rw [afterItem, skipSpace_append hg, skipSpace_cons rfl]
  rfl

theorem afterMember_brace (fuel : Nat) (read : List (Text × Json)) (rest : Text) :
    afterMember fuel read (gap ++ 125 :: rest) = .ok (.object read, rest) := by
  rw [afterMember, skipSpace_append hg, skipSpace_cons rfl]
  rfl

theorem afterMember_comma (fuel : Nat) (read : List (Text × Json)) (t : Text) :
    afterMember fuel read (gap ++ 44 :: t) = members fuel read (skipSpace t) := by
  rw [afterMember, skipSpace_append hg, skipSpace_cons rfl]
  rfl

/-- What starts an array and is not its closing bracket is its first item. -/
theorem value_bracket (fuel : Nat) {c : CodePoint} (hc : Starts c) (rest : Text) :
    value (fuel + 1) (91 :: (gap ++ c :: rest)) = items fuel [] (c :: rest) := by
  rw [value.eq_def]
  simp only [skipSpace_append hg, skipSpace_cons hc.1]
  rw [if_neg (by decide), if_neg (by decide), if_pos trivial]
  split
  · next h =>
      cases h
      exact (hc.2.1 rfl).elim
  · rfl

theorem value_brace (fuel : Nat) (body : Text) :
    value (fuel + 1) (123 :: (gap ++ 34 :: body)) = members fuel [] (34 :: body) := by
  rw [value.eq_def]
  simp only [skipSpace_append hg]
  rw [if_neg (by decide), if_pos trivial, skipSpace_cons rfl]
  rfl

theorem value_bracket_bracket (fuel : Nat) (rest : Text) :
    value (fuel + 1) (91 :: (gap ++ 93 :: rest)) = .ok (.array [], rest) := by
  rw [value.eq_def]
  simp only [skipSpace_append hg]
  rw [if_neg (by decide), if_neg (by decide), if_pos trivial, skipSpace_cons rfl]
  rfl

theorem value_brace_brace (fuel : Nat) (rest : Text) :
    value (fuel + 1) (123 :: (gap ++ 125 :: rest)) = .ok (.object [], rest) := by
  rw [value.eq_def]
  simp only [skipSpace_append hg]
  rw [if_neg (by decide), if_pos trivial, skipSpace_cons rfl]
  rfl

end Gap

end RipWire.Json
