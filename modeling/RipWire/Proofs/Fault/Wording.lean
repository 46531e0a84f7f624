import RipWire.Fault.Message
import RipWire.Proofs.Text.Written

/-!
# Line feeds in the wording of faults

Numbers, names of kinds and quoted texts have no line feed in them, and neither has
any JSON value as messages spell it. What a message gives as it is, without quote
marks, is all of a message that can go on in another line.
-/

namespace RipWire

namespace Text

theorem not_mem_of_isAsciiDigit {t : Text} (h : ∀ c ∈ t, isAsciiDigit c = true) : 10 ∉ t :=
  fun hm => absurd (h 10 hm) (by decide)

@[simp] theorem not_mem_ofNat (n : Nat) : 10 ∉ ofNat n :=
  not_mem_of_isAsciiDigit fun _ hm => isAsciiDigit_of_mem_ofNat hm

@[simp] theorem not_mem_ofInt (n : Int) : 10 ∉ ofInt n := by
  cases n <;> simp [ofInt]

theorem hexDigit_ne (n : Nat) : hexDigit n ≠ 10 := by
  have hlow : 48 + n ≠ 10 := by omega
  have hhigh : 87 + n ≠ 10 := by omega
  unfold hexDigit
  split
  · exact hlow
  · exact hhigh

@[simp] theorem not_mem_hexPadded (count n : Nat) : 10 ∉ hexPadded count n := by
  induction count generalizing n with
  | zero => simp [hexPadded]
  | succ count ih =>
      rw [hexPadded, List.mem_append, not_or, List.mem_singleton]
      exact ⟨ih _, Ne.symm (hexDigit_ne _)⟩

theorem not_mem_escaped {mark : CodePoint} (hm : mark ≠ 10) (c : CodePoint) :
    10 ∉ escaped mark c := by
  unfold escaped
  split
  · next hc =>
      have hne : c ≠ 10 := by
        rintro rfl
        simp [Ne.symm hm] at hc
      simp [Ne.symm hne]
  · split
    · decide
    · next hfeed =>
        split
        · decide
        · split
          · decide
          · split
            · simpa using Ne.symm hfeed
            · split
              · simp [text]
              · split <;> simp [text]

theorem quoteMark_ne (t : Text) : quoteMark t ≠ 10 := by
  unfold quoteMark
  split <;> decide

@[simp] theorem not_mem_quoted (t : Text) : 10 ∉ t.quoted := by
  have hmark := quoteMark_ne t
  have hbody : 10 ∉ t.flatMap (escaped (quoteMark t)) := by
    intro hm
    obtain ⟨c, -, hm⟩ := List.mem_flatMap.mp hm
    exact not_mem_escaped hmark c hm
  simp [quoted, Ne.symm hmark, hbody]

end Text

namespace Binary64

theorem not_mem_placed {digits : Text} (hd : 10 ∉ digits) (point : Int) :
    10 ∉ placed digits point := by
  have htake (n : Nat) : 10 ∉ digits.take n := fun hm => hd (List.mem_of_mem_take hm)
  have hdrop (n : Nat) : 10 ∉ digits.drop n := fun hm => hd (List.mem_of_mem_drop hm)
  unfold placed
  split
  · split
    · simp [text, hd]
    · split
      · simp [text, hd]
      · simp [text, htake, hdrop]
  · have hfraction : 10 ∉ (if digits.length ≤ 1 then ([] : Text) else 46 :: digits.drop 1) := by
      split
      · exact List.not_mem_nil
      · exact mt List.mem_cons.mp (not_or.mpr ⟨by decide, hdrop 1⟩)
    have hmark : 10 ∉ (if point - 1 < 0 then text "e-" else text "e+") := by
      split <;> decide
    simp only [List.mem_append, not_or]
    exact ⟨⟨⟨⟨htake 1, hfraction⟩, hmark⟩, by simp⟩, Text.not_mem_ofNat _⟩

@[simp] theorem not_mem_render (f : Binary64) : 10 ∉ f.render := by
  cases f with
  | nan => decide
  | infinity negative => cases negative <;> decide
  | finite negative mantissa exponent =>
      have hsign : 10 ∉ (if negative then text "-" else text "") := by
        cases negative <;> decide
      simp only [render]
      split
      · exact mt List.mem_append.mp (not_or.mpr ⟨hsign, by decide⟩)
      · exact mt List.mem_append.mp
          (not_or.mpr ⟨hsign, not_mem_placed (Text.not_mem_ofNat _) _⟩)

end Binary64

namespace Json

@[simp] theorem not_mem_kind (v : Json) : 10 ∉ v.kind := by
  cases v <;> simp [kind, text]

mutual

@[simp] theorem not_mem_spelled : ∀ v : Json, 10 ∉ v.spelled
  | .null => by decide
  | .bool true => by decide
  | .bool false => by decide
  | .int n => Text.not_mem_ofInt n
  | .float f => Binary64.not_mem_render f
  | .string t => Text.not_mem_quoted t
  | .array items => by
      have hitems := not_mem_spelledItems items
      simp [spelled, text, hitems]
  | .object members => by
      have hmembers := not_mem_spelledMembers members
      simp [spelled, text, hmembers]

theorem not_mem_spelledItems : ∀ items : List Json, 10 ∉ spelledItems items
  | [] => by simp [spelledItems]
  | [item] => not_mem_spelled item
  | item :: next :: rest => by
      have hitem := not_mem_spelled item
      have hrest := not_mem_spelledItems (next :: rest)
      simp [spelledItems, text, hitem, hrest]

theorem not_mem_spelledMembers : ∀ members : List (Text × Json), 10 ∉ spelledMembers members
  | [] => by simp [spelledMembers]
  | [(name, value)] => by
      have hvalue := not_mem_spelled value
      simp [spelledMembers, text, hvalue]
  | (name, value) :: next :: rest => by
      have hvalue := not_mem_spelled value
      have hrest := not_mem_spelledMembers (next :: rest)
      simp [spelledMembers, text, hvalue, hrest]

end

theorem not_mem_display {v : Json} (h : ∀ t, v ≠ .string t) : 10 ∉ v.display := by
  cases v with
  | string t => exact (h t rfl).elim
  | _ => exact not_mem_spelled _

end Json

@[simp] theorem Text.not_mem_quotedOctets (bytes : List UInt8) : 10 ∉ quotedOctets bytes := by
  have hmark := quoteMark_ne (bytes.map UInt8.toNat)
  have hone (c : CodePoint) : 10 ∉ if c < 0x7f then escaped (quoteMark (bytes.map UInt8.toNat)) c
      else text "\\x" ++ hexPadded 2 c := by
    split
    · exact not_mem_escaped hmark c
    · simp [text]
  intro hm
  simp only [quotedOctets, List.mem_cons, List.mem_append, List.mem_flatMap, List.not_mem_nil,
    or_false] at hm
  rcases hm with (hm | hm | ⟨c, -, hm⟩) | hm
  · cases hm
  · exact hmark hm.symm
  · exact hone c hm
  · exact hmark hm.symm

theorem AddressFault.not_mem_message : ∀ fault : AddressFault, 10 ∉ fault.message
  | .empty => by decide
  | .slash whole => List.not_mem_append (by decide) whole.not_mem_quoted
  | .octetCount whole => List.not_mem_append (by decide) whole.not_mem_quoted
  | .emptyOctet whole => List.not_mem_append (by decide) whole.not_mem_quoted
  | .notDigits part whole =>
      List.not_mem_append (List.not_mem_append (List.not_mem_append (by decide)
        part.not_mem_quoted) (by decide)) whole.not_mem_quoted
  | .longOctet part whole =>
      List.not_mem_append (List.not_mem_append (List.not_mem_append (by decide)
        part.not_mem_quoted) (by decide)) whole.not_mem_quoted
  | .leadingZero part whole =>
      List.not_mem_append (List.not_mem_append (List.not_mem_append (by decide)
        part.not_mem_quoted) (by decide)) whole.not_mem_quoted
  | .largeOctet value whole =>
      List.not_mem_append (List.not_mem_append (List.not_mem_append (by decide)
        (Text.not_mem_ofNat value)) (by decide)) whole.not_mem_quoted
  | .negative value => List.not_mem_append (Text.not_mem_ofInt value) (by decide)
  | .beyond value => List.not_mem_append (Text.not_mem_ofInt value) (by decide)
  | .size bytes =>
      List.not_mem_append (List.not_mem_append (List.not_mem_append
        (Text.not_mem_quotedOctets bytes) (by decide)) (Text.not_mem_ofNat _)) (by decide)

namespace Fault

/-- The text from outside that a message gives as it is. -/
def rawText? : Fault → Option Text
  | .unknownCommand name => some name
  | .unknownFamily name => some name
  | .unknownVersion (.json (.string name)) => some name
  | _ => none

/-- A fault that is handled where it is met. Only the text that its message gives as it is can
bring a line feed into the message. -/
structure Reported (fault : Fault) : Prop where
  handled : fault.faultClass ≠ .other
  feed : 10 ∈ fault.message ↔ ∃ raw ∈ fault.rawText?, 10 ∈ raw

theorem reported_of_not_mem {fault : Fault} (hc : fault.faultClass ≠ .other)
    (hr : fault.rawText? = none) (hm : 10 ∉ fault.message) : fault.Reported where
  handled := hc
  feed := by simp [hr, hm]

theorem reported_of_raw {fault : Fault} (hc : fault.faultClass ≠ .other) {words raw : Text}
    (hr : fault.rawText? = some raw) (hw : 10 ∉ words) (hm : fault.message = words ++ raw) :
    fault.Reported where
  handled := hc
  feed := by simp [hr, hm, hw]

theorem reported_unknownCommand (name : Text) : (unknownCommand name).Reported :=
  reported_of_raw nofun rfl (by decide) rfl

theorem reported_unknownFamily (name : Text) : (unknownFamily name).Reported :=
  reported_of_raw nofun rfl (by decide) rfl

theorem reported_unknownVersion (v : Json) : (unknownVersion (.json v)).Reported := by
  cases v with
  | string name => exact reported_of_raw nofun rfl (by decide) rfl
  | _ =>
      exact reported_of_not_mem nofun rfl
        (List.not_mem_append (by decide) (Json.not_mem_spelled _))

theorem reported_invalidCommand {v : Json} (h : ∀ t, v ≠ .string t) :
    (codec (.invalidCommand (.json v) none)).Reported :=
  reported_of_not_mem nofun rfl (List.not_mem_append (by decide) (Json.not_mem_display h))

theorem reported_invalidFamily {v : Json} (h : ∀ t, v ≠ .string t) :
    (codec (.invalidAddressFamily (.json v) none)).Reported :=
  reported_of_not_mem nofun rfl (List.not_mem_append (by decide) (Json.not_mem_display h))

theorem reported_overfull (count : Nat) : (codec (.overfull count none)).Reported :=
  reported_of_not_mem nofun rfl (List.not_mem_append (Text.not_mem_ofInt count) (by decide))

theorem reported_address (fault : AddressFault) : (address fault).Reported :=
  reported_of_not_mem nofun rfl fault.not_mem_message

end Fault

end RipWire
