import RipWire.Field.Address
import RipWire.Proofs.Fault.Checks
import RipWire.Proofs.Text.Lines
import RipWire.Proofs.Text.Written

/-!
# Reading an address that was written

The four numbers of a written address are the pieces between its points, and
each of them passes the checks of the reader. No other text does, so that an
address is written in one way only.
-/

namespace RipWire

open Checks

namespace Address

theorem not_mem_octetText {c : CodePoint} (hc : Text.isAsciiDigit c = false) (octet : UInt8) :
    c ∉ octetText octet := by
  intro hm
  rw [Text.isAsciiDigit_of_mem_ofNat hm] at hc
  cases hc

theorem readOctet_octetText (whole : Text) (octet : UInt8) :
    readOctet whole (octetText octet) = .ok octet := by
  have hlt : octet.toNat < 256 := octet.toNat_lt
  have hne : (octetText octet).isEmpty = false :=
    List.isEmpty_eq_false_iff.mpr (Text.ofNat_ne_nil octet.toNat)
  have hdigits : (octetText octet).all Text.isAsciiDigit = true :=
    List.all_eq_true.mpr fun c hc => Text.isAsciiDigit_of_mem_ofNat hc
  have hlength : ¬ 3 < (octetText octet).length := by
    have hle : (octetText octet).length ≤ 3 := Text.length_ofNat_le (by omega) (by decide)
    omega
  have hzero : ¬ (octetText octet ≠ [48] ∧ (octetText octet).head? = some 48) := by
    rintro ⟨hother, hhead⟩
    by_cases hpos : 0 < octet.toNat
    · exact Text.head?_ofNat_ne hpos hhead
    · have hz : octet.toNat = 0 := by omega
      rw [octetText, hz] at hother
      exact hother rfl
  have hvalue : Text.digitsValue (octetText octet) = octet.toNat := Text.digitsValue_ofNat _
  unfold readOctet
  rw [if_neg (by simp [hne]), if_neg (by simp [hdigits]), if_neg hlength, if_neg hzero, hvalue,
    if_neg (by omega), UInt8.ofNat_toNat]

theorem cutAt_render (a : Address) :
    a.render.cutAt 46 =
      [octetText a.first, octetText a.second, octetText a.third, octetText a.fourth] := by
  have hpoint : Text.isAsciiDigit 46 = false := by decide
  simp only [render, List.append_assoc, List.cons_append]
  rw [Text.cutAt_eq_splitOn,
    List.splitOn_append_cons_self_of_not_mem (not_mem_octetText hpoint _),
    List.splitOn_append_cons_self_of_not_mem (not_mem_octetText hpoint _),
    List.splitOn_append_cons_self_of_not_mem (not_mem_octetText hpoint _),
    List.splitOn_eq_singleton (not_mem_octetText hpoint _)]

theorem read_render (a : Address) : read a.render = .ok a := by
  have hslash : a.render.contains 47 = false := by
    have hdigit : Text.isAsciiDigit 47 = false := by decide
    simp [render, not_mem_octetText hdigit]
  have hne : a.render.isEmpty = false := by simp [render]
  unfold read
  rw [hslash, hne, cutAt_render]
  simp only [readOctet_octetText]
  rfl

theorem readOctet_ok_iff {whole part : Text} {octet : UInt8} :
    readOctet whole part = .ok octet ↔ part = octetText octet := by
  constructor
  · intro h
    unfold readOctet at h
    by_cases hempty : part.isEmpty = true
    · rw [if_pos hempty] at h
      cases h
    by_cases hdigits : part.all Text.isAsciiDigit = true
    swap
    · rw [if_neg hempty, if_pos (by simpa using hdigits)] at h
      cases h
    by_cases hlength : 3 < part.length
    · rw [if_neg hempty, if_neg (by simpa using hdigits), if_pos hlength] at h
      cases h
    by_cases hzero : part ≠ [48] ∧ part.head? = some 48
    · rw [if_neg hempty, if_neg (by simpa using hdigits), if_neg hlength, if_pos hzero] at h
      cases h
    by_cases hlarge : 255 < Text.digitsValue part
    · rw [if_neg hempty, if_neg (by simpa using hdigits), if_neg hlength, if_neg hzero,
        if_pos hlarge] at h
      cases h
    rw [if_neg hempty, if_neg (by simpa using hdigits), if_neg hlength, if_neg hzero,
      if_neg hlarge] at h
    cases h
    have hvalue : (UInt8.ofNat (Text.digitsValue part)).toNat = Text.digitsValue part := by
      rw [UInt8.toNat_ofNat', Nat.mod_eq_of_lt (by omega)]
    rw [octetText, hvalue, Text.ofNat_digitsValue (by simpa using hempty)
      (List.all_eq_true.mp hdigits) fun hother hhead => hzero ⟨hother, hhead⟩]
  · rintro rfl
    exact readOctet_octetText whole octet

theorem read_ok_iff {t : Text} {a : Address} : read t = .ok a ↔ t = a.render := by
  constructor
  · intro h
    unfold read at h
    split at h
    · cases h
    · split at h
      · cases h
      · split at h
        · next first second third fourth hcut =>
            obtain ⟨o, ho, h⟩ := bind_ok_iff.mp h
            obtain ⟨p, hp, h⟩ := bind_ok_iff.mp h
            obtain ⟨q, hq, h⟩ := bind_ok_iff.mp h
            obtain ⟨r, hr, h⟩ := bind_ok_iff.mp h
            cases h
            have hback := Text.join_cutAt 46 t
            rw [hcut, readOctet_ok_iff.mp ho, readOctet_ok_iff.mp hp, readOctet_ok_iff.mp hq,
              readOctet_ok_iff.mp hr] at hback
            rw [← hback]
            simp [render, Text.join]
        · cases h
  · rintro rfl
    exact read_render a

end Address

end RipWire
