import RipWire.Octets.Hex

/-!
# Digits of octets

A text spells octets when its digits are their halves, the high one first.
Exactly such a text is turned into octets. Payloads are sorted by what stands
behind their radix mark: digits that spell octets, a second mark in front of
such digits, or anything else.
-/

namespace RipWire

namespace Hex

/-- Two digits for each octet, the high half first. -/
def Spells (digits : Text) (octets : Bytes) : Prop :=
  digits.map Text.hexDigitValue? =
    octets.flatMap fun octet => [some (octet.toNat / 16), some (octet.toNat % 16)]

theorem hexDigitValue?_eq (c : Nat) :
    Text.hexDigitValue? c =
      if 48 ≤ c ∧ c ≤ 57 then some (c - 48)
      else if 97 ≤ c ∧ c ≤ 102 then some (c - 87)
      else if 65 ≤ c ∧ c ≤ 70 then some (c - 55)
      else none := by
  simp only [Text.hexDigitValue?, Bool.and_eq_true, decide_eq_true_eq]

theorem hexDigitValue?_lt {c n : Nat} (h : Text.hexDigitValue? c = some n) : n < 16 := by
  rw [hexDigitValue?_eq] at h
  split at h
  · rw [Option.some_inj] at h
    omega
  · split at h
    · rw [Option.some_inj] at h
      omega
    · split at h
      · rw [Option.some_inj] at h
        omega
      · cases h

theorem spells_nil_iff {octets : Bytes} : Spells [] octets ↔ octets = [] := by
  cases octets <;> simp [Spells]

theorem spells_cons_cons_iff {high low : CodePoint} {rest : Text} {octet : UInt8}
    {octets : Bytes} :
    Spells (high :: low :: rest) (octet :: octets) ↔
      Text.hexDigitValue? high = some (octet.toNat / 16) ∧
        Text.hexDigitValue? low = some (octet.toNat % 16) ∧ Spells rest octets := by
  simp [Spells]

theorem length_of_spells {digits : Text} {octets : Bytes} (h : Spells digits octets) :
    digits.length = 2 * octets.length := by
  have hl := congrArg List.length h
  simpa [Spells, List.length_flatMap, List.map_const', Nat.mul_comm] using hl

theorem halves_of_octet {h l : Nat} (hh : h < 16) (hl : l < 16) :
    (UInt8.ofNat (16 * h + l)).toNat / 16 = h ∧ (UInt8.ofNat (16 * h + l)).toNat % 16 = l := by
  have hn : (UInt8.ofNat (16 * h + l)).toNat = 16 * h + l := by
    rw [UInt8.toNat_ofNat']
    omega
  rw [hn]
  omega

theorem octet_of_halves (octet : UInt8) :
    UInt8.ofNat (16 * (octet.toNat / 16) + octet.toNat % 16) = octet := by
  rw [Nat.div_add_mod, UInt8.ofNat_toNat]

/-- Digits are turned into the octets that they spell, and other texts into none. -/
theorem decodeFrom_ok_iff {position : Nat} {digits : Text} {octets : Bytes} :
    decodeFrom position digits = .ok octets ↔ Spells digits octets := by
  match digits with
  | [] => simp [decodeFrom, spells_nil_iff, eq_comm]
  | [c] =>
      have hodd : ¬ Spells [c] octets := by
        intro h
        have hl := length_of_spells h
        simp only [List.length_singleton] at hl
        omega
      simp [decodeFrom, hodd]
  | high :: low :: rest =>
      have ih (more : Bytes) : decodeFrom (position + 2) rest = .ok more ↔ Spells rest more :=
        decodeFrom_ok_iff
      cases octets with
      | nil =>
          have hne : ¬ Spells (high :: low :: rest) [] := by simp [Spells]
          simp only [hne, iff_false, decodeFrom]
          cases Text.hexDigitValue? high with
          | none => simp
          | some h =>
              cases Text.hexDigitValue? low with
              | none => simp
              | some l => cases decodeFrom (position + 2) rest <;> simp [Except.map]
      | cons octet octets =>
          rw [spells_cons_cons_iff, ← ih octets]
          simp only [decodeFrom]
          cases hh : Text.hexDigitValue? high with
          | none => simp
          | some h =>
              cases hl : Text.hexDigitValue? low with
              | none => simp
              | some l =>
                  have halves := halves_of_octet (hexDigitValue?_lt hh) (hexDigitValue?_lt hl)
                  cases decodeFrom (position + 2) rest with
                  | error p => simp [Except.map]
                  | ok more =>
                      simp only [Except.map, Except.ok.injEq, List.cons.injEq, Option.some.injEq]
                      constructor
                      · rintro ⟨rfl, rfl⟩
                        exact ⟨halves.1.symm, halves.2.symm, rfl⟩
                      · rintro ⟨rfl, rfl, rfl⟩
                        exact ⟨octet_of_halves octet, rfl⟩

theorem Spells.unique {digits : Text} {octets others : Bytes} (h : Spells digits octets)
    (ho : Spells digits others) : octets = others := by
  have hd : decodeFrom 0 digits = .ok octets := decodeFrom_ok_iff.mpr h
  rw [decodeFrom_ok_iff.mpr ho] at hd
  exact (Except.ok.inj hd).symm

theorem exists_spells_iff {digits : Text} :
    (∃ octets, Spells digits octets) ↔ digits.length % 2 = 0 ∧ ∀ c ∈ digits, isDigit c := by
  match digits with
  | [] => simp [spells_nil_iff]
  | [c] =>
      constructor
      · rintro ⟨octets, h⟩
        have hl := length_of_spells h
        simp only [List.length_singleton] at hl
        omega
      · simp
  | high :: low :: rest =>
      have ih : (∃ octets, Spells rest octets) ↔ rest.length % 2 = 0 ∧ ∀ c ∈ rest, isDigit c :=
        exists_spells_iff
      have hlen : (high :: low :: rest).length % 2 = rest.length % 2 := by
        simp only [List.length_cons]
        omega
      rw [hlen, List.forall_mem_cons, List.forall_mem_cons]
      constructor
      · rintro ⟨octets, h⟩
        cases octets with
        | nil => simp [Spells] at h
        | cons octet octets =>
            obtain ⟨hh, hl, hr⟩ := spells_cons_cons_iff.mp h
            obtain ⟨heven, hall⟩ := ih.mp ⟨octets, hr⟩
            exact ⟨heven, by simp [isDigit, hh], by simp [isDigit, hl], hall⟩
      · rintro ⟨heven, hh, hl, hall⟩
        obtain ⟨octets, hr⟩ := ih.mpr ⟨heven, hall⟩
        obtain ⟨h, hh⟩ := Option.isSome_iff_exists.mp hh
        obtain ⟨l, hl⟩ := Option.isSome_iff_exists.mp hl
        obtain ⟨h1, h2⟩ := halves_of_octet (hexDigitValue?_lt hh) (hexDigitValue?_lt hl)
        exact ⟨UInt8.ofNat (16 * h + l) :: octets,
          spells_cons_cons_iff.mpr ⟨by rw [hh, h1], by rw [hl, h2], hr⟩⟩

theorem lt_of_isDigit {c : Nat} (h : isDigit c) : c < 103 := by
  rw [isDigit, hexDigitValue?_eq] at h
  apply Nat.lt_of_not_le
  intro hlarge
  rw [if_neg (by omega), if_neg (by omega), if_neg (by omega)] at h
  cases h

theorem not_special_of_isDigit {c : Nat} (h : isDigit c) :
    Text.isBlank c = false ∧ c ≠ 58 ∧ c ≠ 10 ∧ c ≠ 13 := by
  have hall : ∀ d < 103, isDigit d → Text.isBlank d = false ∧ d ≠ 58 ∧ d ≠ 10 ∧ d ≠ 13 := by
    decide
  exact hall c (lt_of_isDigit h) h

theorem visible_of_isDigit {c : Nat} (h : isDigit c) : 32 ≤ c ∧ c ≤ 126 := by
  have hall : ∀ d < 103, isDigit d → 32 ≤ d ∧ d ≤ 126 := by decide
  exact hall c (lt_of_isDigit h) h

end Hex

namespace Payload

/-- The octets that a payload is the hexadecimal of, one at least. -/
def Denotes (payload : Text) (octets : Bytes) : Prop :=
  octets ≠ [] ∧ Hex.Spells (normalise payload) octets

theorem Denotes.unique {payload : Text} {octets others : Bytes} (h : Denotes payload octets)
    (ho : Denotes payload others) : octets = others :=
  h.2.unique ho.2

/-- A mark with the digits of some octets behind it. -/
def Marked (t : Text) : Prop :=
  ∃ mark digits octets, t = 48 :: mark :: digits ∧ (mark = 120 ∨ mark = 88) ∧ octets ≠ [] ∧
    Hex.Spells digits octets

/-- A payload that still has a radix mark when one has been taken off it. -/
def MarkedTwice (payload : Text) : Prop :=
  Marked (normalise payload)

theorem withoutMark_mark {mark : CodePoint} (hm : mark = 120 ∨ mark = 88) (digits : Text) :
    withoutMark (48 :: mark :: digits) = digits := by
  rcases hm with rfl | rfl <;> rfl

theorem withoutMark_cases (t : Text) :
    (∃ mark, (mark = 120 ∨ mark = 88) ∧ t = 48 :: mark :: withoutMark t) ∨ withoutMark t = t := by
  unfold withoutMark
  split
  · next c rest =>
      by_cases hc : c = 120 ∨ c = 88
      · left
        exact ⟨c, hc, by rw [if_pos (by simpa using hc)]⟩
      · right
        rw [if_neg (by simpa using hc)]
  · exact Or.inr rfl

theorem isHex_iff {t : Text} :
    isHex t = true ↔ ∃ octets, octets ≠ [] ∧ Hex.Spells (withoutMark t) octets := by
  have hspells : (∃ octets, Hex.Spells (withoutMark t) octets) ↔ _ := Hex.exists_spells_iff
  have hall : (withoutMark t).all Hex.isDigit = true ↔ ∀ c ∈ withoutMark t, Hex.isDigit c :=
    List.all_eq_true
  simp only [isHex, Bool.and_eq_true, Bool.not_eq_true', List.isEmpty_eq_false_iff,
    decide_eq_true_eq, hall, and_assoc]
  constructor
  · rintro ⟨hne, h⟩
    obtain ⟨octets, ho⟩ := hspells.mpr h
    refine ⟨octets, ?_, ho⟩
    rintro rfl
    exact hne (List.eq_nil_of_length_eq_zero (Hex.length_of_spells ho))
  · rintro ⟨octets, hne, ho⟩
    refine ⟨?_, hspells.mp ⟨octets, ho⟩⟩
    intro h
    rw [h, Hex.spells_nil_iff] at ho
    exact hne ho

theorem not_spells_mark {mark : CodePoint} (hm : mark = 120 ∨ mark = 88) {digits : Text}
    {octets : Bytes} : ¬ Hex.Spells (48 :: mark :: digits) octets := by
  intro h
  cases octets with
  | nil => simp [Hex.Spells] at h
  | cons octet octets =>
      have hl := (Hex.spells_cons_cons_iff.mp h).2.1
      rcases hm with rfl | rfl <;> cases hl

theorem withoutMark_of_spells {digits : Text} {octets : Bytes} (h : Hex.Spells digits octets) :
    withoutMark digits = digits := by
  cases withoutMark_cases digits with
  | inl hmarked =>
      obtain ⟨mark, hm, ht⟩ := hmarked
      rw [ht] at h
      exact absurd h (not_spells_mark hm)
  | inr hplain => exact hplain

/-- What passes for hexadecimal spells octets, unless it starts with a mark. -/
theorem isHex_cases {t : Text} (h : isHex t = true) :
    (∃ octets, octets ≠ [] ∧ Hex.Spells t octets) ∨ Marked t := by
  obtain ⟨octets, hne, ho⟩ := isHex_iff.mp h
  rcases withoutMark_cases t with ⟨mark, hm, ht⟩ | ht
  · exact Or.inr ⟨mark, withoutMark t, octets, ht, hm, hne, ho⟩
  · left
    rw [ht] at ho
    exact ⟨octets, hne, ho⟩

theorem isHex_of_spells {t : Text} {octets : Bytes} (hne : octets ≠ [])
    (h : Hex.Spells t octets) : isHex t = true :=
  isHex_iff.mpr ⟨octets, hne, by rwa [withoutMark_of_spells h]⟩

theorem Marked.isHex {t : Text} (h : Marked t) : Payload.isHex t = true := by
  obtain ⟨mark, digits, octets, rfl, hm, hne, ho⟩ := h
  exact isHex_iff.mpr ⟨octets, hne, by rw [withoutMark_mark hm]; exact ho⟩

theorem Marked.decode {t : Text} (h : Marked t) : Hex.decode t = .error 1 := by
  obtain ⟨mark, digits, -, rfl, hm, -, -⟩ := h
  rcases hm with rfl | rfl <;> rfl

end Payload

end RipWire
