import Mathlib.Data.List.TakeWhile
import RipWire.Proofs.Fault.Checks
import RipWire.Proofs.Json.Steps
import RipWire.Text.Basic

/-!
# Pieces of texts and numbers

What the reader takes for a text or a number is a piece at the start of what it is
given, and it takes the same from that piece whatever stands behind it. A number
has to end there.
-/

namespace RipWire.Json

/-- Space that may stand between the parts of a document. -/
def Gap (t : Text) : Prop :=
  ∀ c ∈ t, isSpace c = true

theorem gap_nil : Gap [] := by
  simp [Gap]

theorem gap_blank : Gap [32] := by
  simp [Gap, isSpace]

theorem gap_feed : Gap [10] := by
  simp [Gap, isSpace]

/-- Visible in ASCII. -/
def Ink (c : CodePoint) : Prop :=
  32 < c ∧ c < 127

instance (c : CodePoint) : Decidable (Ink c) :=
  inferInstanceAs (Decidable (_ ∧ _))

theorem Ink.isBlank {c : CodePoint} (h : Ink c) : Text.isBlank c = false := by
  have hall : ∀ d < 127, 32 < d → Text.isBlank d = false := by decide
  exact hall c h.2 h.1

theorem isBlank_of_isSpace {c : CodePoint} (hc : isSpace c = true) : Text.isBlank c = true := by
  simp only [isSpace, Bool.or_eq_true, decide_eq_true_eq] at hc
  rcases hc with ((rfl | rfl) | rfl) | rfl <;> rfl

theorem Ink.isSpace {c : CodePoint} (h : Ink c) : isSpace c = false := by
  cases hc : Json.isSpace c with
  | false => rfl
  | true =>
      have hblank := h.isBlank
      rw [isBlank_of_isSpace hc] at hblank
      cases hblank

theorem ink_of_digit {c : CodePoint} (hc : Text.isAsciiDigit c = true) : Ink c := by
  have hrange : 48 ≤ c ∧ c ≤ 57 := by simpa [Text.isAsciiDigit] using hc
  exact ⟨Nat.lt_of_lt_of_le (by decide) hrange.1, Nat.lt_of_le_of_lt hrange.2 (by decide)⟩

theorem exists_gap (t : Text) : ∃ gap, t = gap ++ skipSpace t ∧ Gap gap :=
  ⟨t.takeWhile isSpace, List.takeWhile_append_dropWhile.symm,
    fun _ hm => List.mem_takeWhile_imp hm⟩

/-! ### Texts -/

/-- What is left of a text behind its opening quote, up to the closing one. -/
structure Quoted (joins : Bool) (body piece name : Text) : Prop where
  last : piece.getLast? = some 34
  shown : ∀ c ∈ piece, 32 ≤ c
  reads : ∀ opening rest, stringBody opening joins body (piece ++ rest) = .ok (name, rest)

theorem quoted_quote (joins : Bool) (body : Text) : Quoted joins body [34] body.reverse where
  last := rfl
  shown := by simp
  reads := fun opening rest => stringBody_quote opening joins body rest

theorem Quoted.behind {joins joins' : Bool} {body body' piece name : Text}
    (h : Quoted joins' body' piece name) {front : Text} (hf : ∀ c ∈ front, 32 ≤ c)
    (hstep : ∀ opening rest, stringBody opening joins body (front ++ (piece ++ rest)) =
      stringBody opening joins' body' (piece ++ rest)) :
    Quoted joins body (front ++ piece) name where
  last := by rw [List.getLast?_append, h.last, Option.some_or]
  shown := List.forall_mem_append.mpr ⟨hf, h.shown⟩
  reads := fun opening rest => by rw [List.append_assoc, hstep, h.reads]

theorem Quoted.ne_nil {joins : Bool} {body piece name : Text} (h : Quoted joins body piece name) :
    piece ≠ [] := by
  rintro rfl
  cases h.last

theorem shown_of_hexDigit {c n : Nat} (h : Text.hexDigitValue? c = some n) :
    32 ≤ c := by
  by_contra hc
  have hlow : ¬ 48 ≤ c ∧ ¬ 97 ≤ c ∧ ¬ 65 ≤ c := by omega
  simp [Text.hexDigitValue?, hlow] at h

theorem shown_of_unit {p q r s : CodePoint} {unit : Nat} (h : unit? p q r s = some unit) :
    ∀ c ∈ [92, 117, p, q, r, s], 32 ≤ c := by
  simp only [unit?, bind, Option.bind_eq_some_iff] at h
  obtain ⟨_, hp, _, hq, _, hr, _, hs, -⟩ := h
  simp [shown_of_hexDigit hp, shown_of_hexDigit hq, shown_of_hexDigit hr, shown_of_hexDigit hs]

theorem shown_of_escape {e plain : Nat} (h : simpleEscape? e = some plain) : 32 ≤ e := by
  by_contra he
  have hne : e ≠ 34 ∧ e ≠ 92 ∧ e ≠ 47 ∧ e ≠ 98 ∧ e ≠ 102 ∧ e ≠ 110 ∧ e ≠ 114 ∧ e ≠ 116 := by
    omega
  simp [simpleEscape?, hne] at h

/-- By induction along the reader, one step for each plain code point and each escape. -/
theorem exists_quoted {opening : Text} {joins : Bool} {body t name rest : Text}
    (h : stringBody opening joins body t = .ok (name, rest)) :
    ∃ piece, t = piece ++ rest ∧ Quoted joins body piece name := by
  fun_induction stringBody opening joins body t with
  | case2 joins body left =>
      cases h
      exact ⟨[34], rfl, quoted_quote joins body⟩
  | case4 joins body p q r s next left unit hunit _ ih =>
      obtain ⟨piece, hpiece, hquoted⟩ := ih h
      cases piece with
      | nil => exact (hquoted.ne_nil rfl).elim
      | cons d piece =>
          cases hpiece
          exact ⟨[92, 117, p, q, r, s] ++ next :: piece, rfl,
            hquoted.behind (shown_of_unit hunit) fun opening rest =>
              stringBody_unit opening joins body hunit next (piece ++ rest)⟩
  | case7 joins body e left _ _ plain hplain _ ih =>
      obtain ⟨piece, rfl, hquoted⟩ := ih h
      exact ⟨[92, e] ++ piece, rfl,
        hquoted.behind (by simp [shown_of_escape hplain]) fun opening rest =>
          stringBody_escape opening joins body hplain (piece ++ rest)⟩
  | case10 joins body c left hquote hslash hcontrol ih =>
      obtain ⟨piece, rfl, hquoted⟩ := ih h
      have hc : 32 ≤ c := Nat.not_lt.mp hcontrol
      exact ⟨[c] ++ piece, rfl, hquoted.behind (by simpa using hc) fun opening rest =>
        stringBody_plain opening joins body hquote hslash hc (piece ++ rest)⟩
  | _ => cases h

theorem quoted_of_stringBody {opening : Text} {joins : Bool} {body t name : Text}
    (h : stringBody opening joins body t = .ok (name, [])) : Quoted joins body t name := by
  obtain ⟨piece, rfl, hquoted⟩ := exists_quoted h
  rwa [List.append_nil]

/-! ### Numbers -/

/-- The head of a text after a part of a number: no further digit and no point. -/
def Pointless (rest : Text) : Prop :=
  Stops rest ∧ ∀ c ∈ rest.head?, c ≠ 46

theorem Ends.pointless {rest : Text} (h : Ends rest) : Pointless rest :=
  ⟨h.stops, fun c hc => (h c hc).2.1⟩

theorem pointless_cons {c : CodePoint} (hdigit : Text.isAsciiDigit c = false) (hpoint : c ≠ 46)
    (rest : Text) : Pointless (c :: rest) := by
  refine ⟨?_, ?_⟩
  · rintro d ⟨⟩
    exact hdigit
  · rintro d ⟨⟩
    exact hpoint

theorem forall_mem_takeWhile (t : Text) : ∀ c ∈ t.takeWhile Text.isAsciiDigit,
    Text.isAsciiDigit c = true :=
  fun _ hm => List.mem_takeWhile_imp hm

theorem exists_wholePart {t whole rest : Text} (h : wholePart t = some (whole, rest)) :
    t = whole ++ rest ∧ whole ≠ [] ∧ (∀ c ∈ whole, Text.isAsciiDigit c = true) ∧
      ∀ behind, Stops behind → wholePart (whole ++ behind) = some (whole, behind) := by
  cases t with
  | nil => cases h
  | cons c t =>
      rw [wholePart] at h
      split at h
      · next hzero =>
          cases h
          subst hzero
          exact ⟨rfl, List.cons_ne_nil _ _, by decide, fun behind _ => rfl⟩
      · next hzero =>
          split at h
          · next hdigit =>
              cases h
              have hdigits := forall_mem_takeWhile t
              refine ⟨by simp, List.cons_ne_nil _ _, List.forall_mem_cons.mpr ⟨hdigit, hdigits⟩, ?_⟩
              intro behind hb
              obtain ⟨htake, hdrop⟩ := takeWhile_digits hdigits hb
              rw [List.cons_append, wholePart, if_neg hzero, if_pos hdigit, htake, hdrop]
          · cases h

/-- A part of a number that may be missing: nothing, or text that ends in a digit. -/
structure Part (piece : Text) : Prop where
  ink : ∀ c ∈ piece, Ink c
  last : ∀ c ∈ piece.getLast?, Text.isAsciiDigit c = true

theorem part_nil : Part [] where
  ink := by simp
  last := by simp

theorem part_digits {front digits : Text} (hf : ∀ c ∈ front, Ink c) (hne : digits ≠ [])
    (hd : ∀ c ∈ digits, Text.isAsciiDigit c = true) : Part (front ++ digits) where
  ink := List.forall_mem_append.mpr ⟨hf, fun c hm => ink_of_digit (hd c hm)⟩
  last := by
    intro c hc
    rw [List.getLast?_append, List.getLast?_eq_some_getLast hne, Option.some_or] at hc
    cases hc
    exact hd _ (List.getLast_mem hne)

theorem Part.append {front piece : Text} (hf : Part front) (hp : Part piece) :
    Part (front ++ piece) where
  ink := List.forall_mem_append.mpr ⟨hf.ink, hp.ink⟩
  last := by
    intro c hc
    rw [List.getLast?_append] at hc
    rcases Option.or_eq_some_iff.mp hc with hlast | ⟨-, hlast⟩
    · exact hp.last c hlast
    · exact hf.last c hlast

theorem exists_fractionPart {t digits rest : Text} (h : fractionPart t = (digits, rest)) :
    ∃ piece, t = piece ++ rest ∧ Part piece ∧ ∀ behind, Pointless behind →
      fractionPart (piece ++ behind) = (digits, behind) ∧ Stops (piece ++ behind) := by
  have hnone : fractionPart t = ([], t) → ∃ piece, t = piece ++ rest ∧ Part piece ∧
      ∀ behind, Pointless behind →
        fractionPart (piece ++ behind) = (digits, behind) ∧ Stops (piece ++ behind) := by
    intro hempty
    rw [hempty] at h
    cases h
    exact ⟨[], rfl, part_nil, fun behind hb => ⟨fractionPart_of_ne hb.2, hb.1⟩⟩
  cases t with
  | nil => exact hnone rfl
  | cons c t =>
      by_cases hpoint : c = 46
      · subst hpoint
        by_cases hempty : (t.takeWhile Text.isAsciiDigit).isEmpty
        · exact hnone (by rw [fractionPart]; simp only [hempty]; rfl)
        · have hread : fractionPart (46 :: t) =
              (t.takeWhile Text.isAsciiDigit, t.dropWhile Text.isAsciiDigit) := by
            rw [fractionPart]
            simp only [if_neg hempty]
          rw [hread] at h
          cases h
          have hdigits := forall_mem_takeWhile t
          have hne : t.takeWhile Text.isAsciiDigit ≠ [] := fun hnil => hempty (by rw [hnil]; rfl)
          refine ⟨[46] ++ t.takeWhile Text.isAsciiDigit, by simp,
            part_digits (by decide) hne hdigits, fun behind hb => ⟨?_, ?_⟩⟩
          · obtain ⟨htake, hdrop⟩ := takeWhile_digits hdigits hb.1
            rw [List.append_assoc, List.singleton_append, fractionPart]
            simp only [htake, hdrop, if_neg hempty]
          · rintro d ⟨⟩
            decide
      · exact hnone (fractionPart_of_ne (by rintro d ⟨⟩; exact hpoint))

/-- Whether an exponent has a minus sign, and what stands behind its sign. -/
def exponentSign : Text → Bool × Text
  | 45 :: more => (true, more)
  | 43 :: more => (false, more)
  | more => (false, more)

def exponentSize (negative : Bool) (digits : Text) : Int :=
  let size : Int := Text.digitsValue digits
  if negative then -size else size

theorem exponentPart_mark {c : CodePoint} (hc : c = 101 ∨ c = 69) (t : Text) :
    exponentPart (c :: t) =
      if ((exponentSign t).2.takeWhile Text.isAsciiDigit).isEmpty then (none, c :: t)
      else
        (some (exponentSize (exponentSign t).1 ((exponentSign t).2.takeWhile Text.isAsciiDigit)),
          (exponentSign t).2.dropWhile Text.isAsciiDigit) := by
  have hmark : (decide (c = 101) || decide (c = 69)) = true := by simpa using hc
  rw [exponentPart.eq_def]
  simp only [if_pos hmark]
  rfl

theorem exists_exponentSign (t : Text) :
    ∃ sign, t = sign ++ (exponentSign t).2 ∧ (∀ c ∈ sign, Ink c) ∧
      ∀ digits behind, digits ≠ [] → (∀ c ∈ digits, Text.isAsciiDigit c = true) →
        exponentSign (sign ++ (digits ++ behind)) = ((exponentSign t).1, digits ++ behind) := by
  unfold exponentSign
  split
  · exact ⟨[45], rfl, by decide, fun _ _ _ _ => rfl⟩
  · exact ⟨[43], rfl, by decide, fun _ _ _ _ => rfl⟩
  · refine ⟨[], rfl, by simp, ?_⟩
    intro digits behind hne hd
    cases digits with
    | nil => exact (hne rfl).elim
    | cons c digits =>
        have hc : Text.isAsciiDigit c = true := hd c List.mem_cons_self
        rw [List.nil_append, List.cons_append]
        split
        · next heq =>
            cases heq
            cases hc
        · next heq =>
            cases heq
            cases hc
        · rfl

theorem exists_exponentPart {t rest : Text} {exponent : Option Int}
    (h : exponentPart t = (exponent, rest)) :
    ∃ piece, t = piece ++ rest ∧ Part piece ∧ ∀ behind, Ends behind →
      exponentPart (piece ++ behind) = (exponent, behind) ∧ Pointless (piece ++ behind) := by
  have hnone : exponentPart t = (none, t) → ∃ piece, t = piece ++ rest ∧ Part piece ∧
      ∀ behind, Ends behind →
        exponentPart (piece ++ behind) = (exponent, behind) ∧ Pointless (piece ++ behind) := by
    intro hempty
    rw [hempty] at h
    cases h
    exact ⟨[], rfl, part_nil, fun behind hb => ⟨exponentPart_of_ends hb, hb.pointless⟩⟩
  cases t with
  | nil => exact hnone rfl
  | cons c t =>
      by_cases hmark : c = 101 ∨ c = 69
      · by_cases hempty : ((exponentSign t).2.takeWhile Text.isAsciiDigit).isEmpty
        · exact hnone (by rw [exponentPart_mark hmark, if_pos hempty])
        · obtain ⟨sign, hsign, hink, hreads⟩ := exists_exponentSign t
          have hdigits := forall_mem_takeWhile (exponentSign t).2
          have hne : (exponentSign t).2.takeWhile Text.isAsciiDigit ≠ [] :=
            fun hnil => hempty (by rw [hnil]; rfl)
          have hc : Ink c ∧ Text.isAsciiDigit c = false ∧ c ≠ 46 := by
            rcases hmark with rfl | rfl <;> decide
          rw [exponentPart_mark hmark, if_neg hempty] at h
          cases h
          refine ⟨(c :: sign) ++ (exponentSign t).2.takeWhile Text.isAsciiDigit, ?_,
            part_digits (List.forall_mem_cons.mpr ⟨hc.1, hink⟩) hne hdigits,
            fun behind hb => ⟨?_, ?_⟩⟩
          · rw [List.append_assoc, List.takeWhile_append_dropWhile, List.cons_append, ← hsign]
          · obtain ⟨htake, hdrop⟩ := takeWhile_digits hdigits hb.stops
            rw [List.append_assoc, List.cons_append, exponentPart_mark hmark,
              hreads _ behind hne hdigits]
            simp only [htake, hdrop, if_neg hempty]
          · exact pointless_cons hc.2.1 hc.2.2 _
      · have hother : ¬ (decide (c = 101) || decide (c = 69)) = true := by simpa using hmark
        refine hnone ?_
        rw [exponentPart.eq_def]
        simp only [if_neg hother]

theorem unsignedNumber_ok_iff {t unsigned rest : Text} {negative : Bool} {v : Json} :
    unsignedNumber t negative unsigned = .ok (v, rest) ↔
      ∃ whole behind fraction afterPoint exponent, wholePart unsigned = some (whole, behind) ∧
        fractionPart behind = (fraction, afterPoint) ∧ exponentPart afterPoint = (exponent, rest) ∧
        (Numeral.mk negative whole fraction exponent).value = .ok v := by
  unfold unsignedNumber
  refine ⟨fun h => ?_, ?_⟩
  · split at h
    · cases h
    · next whole behind hwhole =>
        obtain ⟨found, hvalue, hfound⟩ := Checks.map_ok_iff.mp h
        cases hfound
        exact ⟨whole, behind, _, _, _, hwhole, rfl, rfl, hvalue⟩
  · rintro ⟨whole, behind, fraction, afterPoint, exponent, hwhole, hfraction, hexponent, hvalue⟩
    simp only [hwhole, hfraction, hexponent, hvalue]
    rfl

theorem exists_unsignedNumber {t unsigned rest : Text} {negative : Bool} {v : Json}
    (h : unsignedNumber t negative unsigned = .ok (v, rest)) :
    ∃ piece, unsigned = piece ++ rest ∧ Part piece ∧
      (∃ c more, piece = c :: more ∧ Text.isAsciiDigit c = true) ∧
      ∀ start behind, Ends behind →
        unsignedNumber start negative (piece ++ behind) = .ok (v, behind) := by
  obtain ⟨whole, afterWhole, fraction, afterPoint, exponent, hwhole, hpoint, hmark, hvalue⟩ :=
    unsignedNumber_ok_iff.mp h
  obtain ⟨rfl, hne, hdigits, hwholes⟩ := exists_wholePart hwhole
  obtain ⟨point, rfl, hfraction, hfractions⟩ := exists_fractionPart hpoint
  obtain ⟨mark, rfl, hexponent, hexponents⟩ := exists_exponentPart hmark
  obtain ⟨c, more, rfl⟩ := List.exists_cons_of_ne_nil hne
  have hstart : Part ([] ++ c :: more) := part_digits (by simp) hne hdigits
  rw [List.nil_append] at hstart
  refine ⟨(c :: more) ++ (point ++ mark), by simp, hstart.append (hfraction.append hexponent),
    ⟨c, _, rfl, hdigits c List.mem_cons_self⟩, fun start behind hb => ?_⟩
  obtain ⟨hexp, hpointless⟩ := hexponents behind hb
  obtain ⟨hfrac, hstops⟩ := hfractions _ hpointless
  refine unsignedNumber_ok_iff.mpr ⟨_, _, fraction, _, exponent, ?_, hfrac, hexp, hvalue⟩
  rw [List.append_assoc, List.append_assoc]
  exact hwholes _ hstops

end RipWire.Json
