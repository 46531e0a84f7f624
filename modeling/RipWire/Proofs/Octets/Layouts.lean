import Mathlib.Data.List.Forall2
import RipWire.Proofs.Octets.Digits
import RipWire.Proofs.Text.Lines

/-!
# Layouts of octets

The hexadecimal of some octets as people lay it out: each digit in either case, one
radix mark in front or none, white space and colons between any two code points. The
layouts of octets are exactly the payloads that denote them.
-/

namespace RipWire

namespace Hex

/-- A digit of the plain form, or its upper case. -/
def InEitherCase (plain shown : CodePoint) : Prop :=
  shown = plain ∨ shown = Text.upperOne plain

/-- The digit of a number in upper case. -/
def upperDigit (n : Nat) : CodePoint :=
  if n < 10 then 48 + n else 55 + n

theorem upperOne_hexDigit : ∀ n < 16, Text.upperOne (Text.hexDigit n) = upperDigit n := by
  decide

theorem hexDigitValue?_eq_some {c n : Nat} (hn : n < 16) :
    Text.hexDigitValue? c = some n ↔
      (n < 10 ∧ c = 48 + n) ∨ (10 ≤ n ∧ (c = 87 + n ∨ c = 55 + n)) := by
  rw [hexDigitValue?_eq]
  split
  · rw [Option.some_inj]
    omega
  · split
    · rw [Option.some_inj]
      omega
    · split
      · rw [Option.some_inj]
        omega
      · simp only [reduceCtorEq, false_iff]
        omega

theorem hexDigitValue?_eq_some_iff {n : Nat} (hn : n < 16) (c : CodePoint) :
    Text.hexDigitValue? c = some n ↔ InEitherCase (Text.hexDigit n) c := by
  rw [hexDigitValue?_eq_some hn, InEitherCase, upperOne_hexDigit n hn, Text.hexDigit, upperDigit]
  by_cases hten : n < 10
  · simp [hten, Nat.not_le.mpr hten]
  · simp [hten, Nat.le_of_not_lt hten]

theorem spells_iff_forall₂ {digits : Text} {octets : Bytes} :
    Spells digits octets ↔ List.Forall₂ InEitherCase (encode octets) digits := by
  induction octets generalizing digits with
  | nil =>
      rw [encode, List.flatMap_nil, List.forall₂_nil_left_iff]
      simp [Spells]
  | cons b octets ih =>
      have hlt := b.toNat_lt
      have hhigh := hexDigitValue?_eq_some_iff (n := b.toNat / 16) (by omega)
      have hlow := hexDigitValue?_eq_some_iff (n := b.toNat % 16) (by omega)
      rw [encode] at ih
      rw [encode, List.flatMap_cons, octet, List.cons_append, List.cons_append, List.nil_append]
      -- The digits of an octet come in pairs, so that no octet goes with a single digit.
      cases digits with
      | nil => simp [Spells]
      | cons high digits =>
          cases digits with
          | nil => simp [Spells]
          | cons low rest =>
              rw [spells_cons_cons_iff, hhigh, hlow, ih, List.forall₂_cons, List.forall₂_cons]

theorem spells_encode (octets : Bytes) : Spells (encode octets) octets :=
  spells_iff_forall₂.mpr (List.forall₂_same.mpr fun _ _ => .inl rfl)

theorem oneLine_of_spells {digits : Text} {octets : Bytes} (h : Spells digits octets) :
    digits.OneLine := by
  have hdigits := (exists_spells_iff.mp ⟨octets, h⟩).2
  refine ⟨?_, ?_⟩
  · intro hfeed
    exact (not_special_of_isDigit (hdigits 10 hfeed)).2.2.1 rfl
  · intro hreturn
    exact (not_special_of_isDigit (hdigits 13 hreturn)).2.2.2 rfl

theorem forall₂_upper (t : Text) : List.Forall₂ InEitherCase t t.upper := by
  rw [Text.upper, List.forall₂_map_right_iff, List.forall₂_same]
  intro c _
  exact .inr rfl

theorem spells_upper_encode (octets : Bytes) : Spells (Text.upper (encode octets)) octets :=
  spells_iff_forall₂.mpr (forall₂_upper (encode octets))

theorem encode_flatten (pieces : List Bytes) :
    encode pieces.flatten = (pieces.map encode).flatten := by
  induction pieces with
  | nil => rfl
  | cons piece rest ih =>
      rw [List.flatten_cons, encode, List.flatMap_append, List.map_cons, List.flatten_cons, ← ih]
      rfl

end Hex

namespace Payload

/-- White space and colons may stand anywhere in a payload. -/
def isSeparator (c : CodePoint) : Bool :=
  Text.isBlank c || c = 58

/-- A text with separators put in at any places. -/
inductive Spread : Text → Text → Prop
  | nil : Spread [] []
  | kept (c : CodePoint) {digits t : Text} (rest : Spread digits t) : Spread (c :: digits) (c :: t)
  | separator {c : CodePoint} {digits t : Text} (hc : isSeparator c = true)
      (rest : Spread digits t) : Spread digits (c :: t)

/-- The hexadecimal of octets in any layout. -/
inductive Layout (octets : Bytes) (payload : Text) : Prop
  | intro (mark : Text) {digits : Text} (marked : mark ∈ [[], text "0x", text "0X"])
      (spelled : List.Forall₂ Hex.InEitherCase (Hex.encode octets) digits)
      (spread : Spread (mark ++ digits) payload)

/-! ### Separators -/

theorem not_isSeparator_of_isDigit {c : CodePoint} (h : Hex.isDigit c = true) :
    isSeparator c = false := by
  obtain ⟨hblank, hcolon, -⟩ := Hex.not_special_of_isDigit h
  simp [isSeparator, hblank, hcolon]

theorem normalise_eq (payload : Text) :
    normalise payload = withoutMark (payload.filter (!isSeparator ·)) := by
  rw [normalise]
  congr 1
  apply List.filter_congr
  intro c _
  simp [isSeparator]

/-- Dropping the separators leaves what they were put into. -/
theorem Spread.filter_eq {digits t : Text} (h : Spread digits t)
    (hd : ∀ c ∈ digits, isSeparator c = false) : t.filter (!isSeparator ·) = digits := by
  induction h with
  | nil => rfl
  | kept c rest ih =>
      have hc : isSeparator c = false := hd c List.mem_cons_self
      rw [List.filter_cons_of_pos (by simp [hc]),
        ih fun d hm => hd d (List.mem_cons_of_mem _ hm)]
  | separator hc rest ih => rw [List.filter_cons_of_neg (by simp [hc]), ih hd]

theorem spread_filter (t : Text) : Spread (t.filter (!isSeparator ·)) t := by
  induction t with
  | nil => exact .nil
  | cons c t ih =>
      by_cases hc : isSeparator c = true
      · rw [List.filter_cons_of_neg (by simp [hc])]
        exact .separator hc ih
      · rw [List.filter_cons_of_pos (by simp [hc])]
        exact .kept c ih

theorem spread_refl (t : Text) : Spread t t := by
  induction t with
  | nil => exact .nil
  | cons c t ih => exact .kept c ih

theorem Spread.append {digits t more u : Text} (h : Spread digits t) (hmore : Spread more u) :
    Spread (digits ++ more) (t ++ u) := by
  induction h with
  | nil => exact hmore
  | kept c rest ih => exact .kept c ih
  | separator hc rest ih => exact .separator hc ih

theorem spread_join {separator : Text} (hs : ∀ c ∈ separator, isSeparator c = true)
    (pieces : List Text) : Spread pieces.flatten (Text.join separator pieces) := by
  have hgap : Spread [] separator := by
    have h := spread_filter separator
    rwa [List.filter_eq_nil_iff.mpr (by simpa using hs)] at h
  induction pieces with
  | nil => exact .nil
  | cons first rest ih =>
      cases rest with
      | nil =>
          rw [Text.join, List.intersperse_singleton]
          exact spread_refl _
      | cons next rest =>
          rw [Text.join_cons_cons, List.flatten_cons, List.append_assoc]
          exact (spread_refl first).append (hgap.append ih)

theorem normalise_trim (payload : Text) : normalise payload.trim = normalise payload := by
  have hdrop (t : Text) :
      (t.dropWhile Text.isBlank).filter (!isSeparator ·) = t.filter (!isSeparator ·) := by
    induction t with
    | nil => rfl
    | cons c t ih =>
        by_cases hc : Text.isBlank c = true
        · rw [List.dropWhile_cons_of_pos hc, ih,
            List.filter_cons_of_neg (by simp [isSeparator, hc])]
        · rw [List.dropWhile_cons_of_neg hc]
  rw [normalise_eq, normalise_eq, Text.trim, Text.trimBy, List.filter_reverse, hdrop,
    List.filter_reverse, hdrop, List.reverse_reverse]

/-! ### Layouts -/

theorem withoutMark_append {mark digits : Text} {octets : Bytes}
    (hm : mark ∈ [[], text "0x", text "0X"]) (h : Hex.Spells digits octets) :
    withoutMark (mark ++ digits) = digits := by
  simp only [List.mem_cons, List.not_mem_nil, or_false] at hm
  cases hm with
  | inl hnone =>
      rw [hnone, List.nil_append]
      exact withoutMark_of_spells h
  | inr hmark =>
      cases hmark with
      | inl hlower =>
          rw [hlower]
          exact withoutMark_mark (.inl rfl) digits
      | inr hupper =>
          rw [hupper]
          exact withoutMark_mark (.inr rfl) digits

theorem Layout.spells {octets : Bytes} {payload : Text} (h : Layout octets payload) :
    Hex.Spells (normalise payload) octets := by
  obtain ⟨_, marked, spelled, spread⟩ := h
  have hspells := Hex.spells_iff_forall₂.mpr spelled
  have hdigits := (Hex.exists_spells_iff.mp ⟨octets, hspells⟩).2
  have hsolid : ∀ mark ∈ [[], text "0x", text "0X"], ∀ c ∈ mark, isSeparator c = false := by
    decide
  have hkept := spread.filter_eq <| List.forall_mem_append.mpr
    ⟨hsolid _ marked, fun c hc => not_isSeparator_of_isDigit (hdigits c hc)⟩
  rwa [normalise_eq, hkept, withoutMark_append marked hspells]

theorem layout_of_spells {octets : Bytes} {payload : Text}
    (h : Hex.Spells (normalise payload) octets) : Layout octets payload := by
  have hspread := spread_filter payload
  rw [normalise_eq] at h
  have hspelled := Hex.spells_iff_forall₂.mp h
  cases withoutMark_cases (payload.filter (!isSeparator ·)) with
  | inl hmarked =>
      obtain ⟨mark, hm, ht⟩ := hmarked
      rw [ht] at hspread
      refine .intro [48, mark] ?_ hspelled hspread
      cases hm with
      | inl hlower => simp [hlower, text]
      | inr hupper => simp [hupper, text]
  | inr hplain =>
      rw [hplain] at hspelled
      exact .intro [] List.mem_cons_self hspelled hspread

/-- A payload denotes octets exactly when it is a layout of them. -/
theorem denotes_iff_layout {payload : Text} {octets : Bytes} :
    Denotes payload octets ↔ octets ≠ [] ∧ Layout octets payload :=
  and_congr_right fun _ => ⟨layout_of_spells, Layout.spells⟩

theorem layout_encode (octets : Bytes) : Layout octets (Hex.encode octets) :=
  .intro [] List.mem_cons_self (Hex.spells_iff_forall₂.mp (Hex.spells_encode octets))
    (spread_refl _)

theorem layout_join {separator : Text} (hs : ∀ c ∈ separator, isSeparator c = true)
    (groups : List Bytes) :
    Layout groups.flatten
      (Text.join separator (groups.map fun group => Text.upper (Hex.encode group))) := by
  have hupper : (groups.map fun group => Text.upper (Hex.encode group)).flatten =
      Text.upper (Hex.encode groups.flatten) := by
    rw [Hex.encode_flatten, Text.upper, List.map_flatten, List.map_map]
    rfl
  have hspread := spread_join hs (groups.map fun group => Text.upper (Hex.encode group))
  rw [hupper] at hspread
  exact .intro [] List.mem_cons_self (Hex.forall₂_upper _) hspread

end Payload

end RipWire
