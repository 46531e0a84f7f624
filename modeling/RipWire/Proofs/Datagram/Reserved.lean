import RipWire.Proofs.Datagram.Canonical
import RipWire.Proofs.Datagram.Refusal

/-!
# Octets that are passed over on receipt

Datagrams of one length that differ in reserved octets only are read alike: as the same
packet, or not at all and with the same error. Every other octet counts. Two datagrams
that give the same packet have it in common.
-/

namespace RipWire

namespace Packet

/-- Positions that are passed over on receipt: the last two of the header, and in a datagram with
the code of the first version those that its layout reserves in every record. -/
def PassedOver (octets : Bytes) (position : Nat) : Prop :=
  2 ≤ position ∧ position < 4 ∨
    octets[1]? = some 1 ∧ 4 ≤ position ∧ Entry.Reserved .v1 ((position - 4) % 20)

instance (octets : Bytes) (position : Nat) : Decidable (PassedOver octets position) :=
  inferInstanceAs (Decidable (_ ∨ _))

/-- Datagrams of one length that agree at every position that is not passed over. -/
structure Indistinct (octets others : Bytes) : Prop where
  length : octets.length = others.length
  agree : ∀ k < octets.length, ¬ PassedOver octets k → octets[k]? = others[k]?

theorem passedOver_iff_reserved {octets : Bytes} {version : Version}
    (hv : octets[1]? = some (UInt8.ofNat version.code)) (position : Nat) :
    PassedOver octets position ↔ Reserved version position := by
  unfold PassedOver Reserved
  rw [hv]
  cases version with
  | v1 =>
      have hcode : some (UInt8.ofNat Version.v1.code) = some 1 := rfl
      simp [hcode]
  | v2 =>
      have hcode : some (UInt8.ofNat Version.v2.code) ≠ some 1 := by decide
      simp [hcode, Entry.Reserved]

section Indistinct

variable {octets others : Bytes} (h : Indistinct octets others)

include h

theorem Indistinct.getElem?_eq {k : Nat} (hk : ¬ PassedOver octets k) :
    octets[k]? = others[k]? := by
  by_cases hlt : k < octets.length
  · exact h.agree k hlt hk
  · have hle : octets.length ≤ k := by omega
    rw [List.getElem?_eq_none hle, List.getElem?_eq_none (h.length ▸ hle)]

theorem Indistinct.command : octets[0]? = others[0]? := by
  apply h.getElem?_eq
  unfold PassedOver
  omega

theorem Indistinct.version : octets[1]? = others[1]? := by
  apply h.getElem?_eq
  unfold PassedOver
  omega

theorem Indistinct.family (k : Nat) :
    octets.field (4 + 20 * k) 2 = others.field (4 + 20 * k) 2 := by
  apply List.ext_getElem?
  intro i
  rw [Bytes.getElem?_field, Bytes.getElem?_field]
  by_cases hi : i < 2
  · have hplace : (4 + 20 * k + i - 4) % 20 = i := by omega
    rw [if_pos hi, if_pos hi]
    apply h.getElem?_eq
    unfold PassedOver Entry.Reserved
    omega
  · rw [if_neg hi, if_neg hi]

theorem Indistinct.passedOver_iff (k : Nat) : PassedOver others k ↔ PassedOver octets k := by
  rw [PassedOver, PassedOver, h.version]

theorem Indistinct.symm : Indistinct others octets where
  length := h.length.symm
  agree := by
    intro k _ hk
    exact (h.getElem?_eq (mt (h.passedOver_iff k).mpr hk)).symm

theorem Indistinct.trans {further : Bytes} (hf : Indistinct others further) :
    Indistinct octets further where
  length := h.length.trans hf.length
  agree := by
    intro k _ hk
    exact (h.getElem?_eq hk).trans (hf.getElem?_eq (mt (h.passedOver_iff k).mp hk))

/-! ### The checks see no difference -/

theorem Indistinct.grammatical {count : Nat} (hg : Grammatical octets count) :
    Grammatical others count where
  length := h.length ▸ hg.length
  fits := hg.fits
  command := h.command ▸ hg.command
  version := h.version ▸ hg.version
  family := by
    intro k hk
    rw [← h.family k]
    exact hg.family k hk

theorem Indistinct.refusal {error : CodecError} (hr : Refusal octets error) :
    Refusal others error := by
  have hcommand : CodeAt octets 0 ↔ CodeAt others 0 := by rw [CodeAt, CodeAt, h.command]
  have hversion : CodeAt octets 1 ↔ CodeAt others 1 := by rw [CodeAt, CodeAt, h.version]
  have hfamily (k : Nat) : FamilyAt octets (4 + 20 * k) ↔ FamilyAt others (4 + 20 * k) := by
    rw [FamilyAt, FamilyAt, h.family k]
  cases hr with
  | tooShort short =>
      rw [h.length] at short ⊢
      exact .tooShort short
  | command long found unknown =>
      rw [h.length] at long
      rw [h.command] at found
      exact .command long found (mt hcommand.mpr unknown)
  | version long command found unknown =>
      rw [h.length] at long
      rw [h.version] at found
      exact .version long (hcommand.mp command) found (mt hversion.mpr unknown)
  | stray long command version partly =>
      rw [h.length] at long partly ⊢
      exact .stray long (hcommand.mp command) (hversion.mp version) partly
  | overfull command version whole many =>
      rw [h.length] at whole
      exact .overfull (hcommand.mp command) (hversion.mp version) whole many
  | @family count k command version whole fits member before unknown =>
      rw [h.length] at whole
      rw [h.family k]
      apply Refusal.family (hcommand.mp command) (hversion.mp version) whole fits member
      · exact fun j hj => (hfamily j).mp (before j hj)
      · exact mt (hfamily k).mpr unknown

end Indistinct

/-! ### The packet keeps everything else -/

/-- What is sent for the packet that is read has zeros for the octets that are passed over, and is
read as that packet again. -/
theorem octets_of_read {octets : Bytes} {p : Packet} (parsed : read octets = .ok p) :
    read p.octets = .ok p ∧ Indistinct octets p.octets ∧
      ∀ k < octets.length, PassedOver octets k → p.octets[k]? = some 0 := by
  obtain ⟨layout, hp⟩ := read_wellFormed parsed
  obtain ⟨command, version, records, h, rfl⟩ := framed_of_read parsed
  have hcount : (ofRecords command version records).entries.length = records.length :=
    List.length_map _
  have hlength : octets.length = (ofRecords command version records).octets.length := by
    rw [hp.length_octets, length, hcount, h.length_octets, Header.size, Entry.size]
    omega
  have hversion : octets[1]? = some (UInt8.ofNat version.code) := by
    obtain ⟨first, second, rfl⟩ := h.parts
    rfl
  refine ⟨read_octets hp, ⟨hlength, ?_⟩, ?_⟩
  · intro k hk hkept
    rw [getElem?_octets_ofRecords h hk, if_neg (mt (passedOver_iff_reserved hversion k).mpr hkept)]
  · intro k hk hover
    rw [getElem?_octets_ofRecords h hk, if_pos ((passedOver_iff_reserved hversion k).mp hover)]

theorem Indistinct.packet_eq {octets others : Bytes} (h : Indistinct octets others)
    {p q : Packet} (hp : read octets = .ok p) (hq : read others = .ok q) : p = q := by
  obtain ⟨hpagain, hpsame, hpzero⟩ := octets_of_read hp
  obtain ⟨hqagain, hqsame, hqzero⟩ := octets_of_read hq
  have hsame : Indistinct p.octets q.octets := (hpsame.symm.trans h).trans hqsame
  have hoctets : p.octets = q.octets := by
    apply List.ext_getElem?
    intro k
    by_cases hk : k < octets.length
    · by_cases hover : PassedOver octets k
      · have hother : PassedOver others k := (h.passedOver_iff k).mpr hover
        rw [hpzero k hk hover, hqzero k (h.length ▸ hk) hother]
      · exact hsame.getElem?_eq (mt (hpsame.passedOver_iff k).mp hover)
    · have hle : p.octets.length ≤ k := hpsame.length ▸ Nat.le_of_not_lt hk
      rw [List.getElem?_eq_none hle, List.getElem?_eq_none (hsame.length ▸ hle)]
  rw [hoctets, hqagain] at hpagain
  cases hpagain
  rfl

/-- Datagrams that differ only in what is passed over are read as the same packet or refused with
the same error, and no others are read as the same packet. -/
theorem read_eq_of_indistinct (octets others : Bytes) :
    (Indistinct octets others → read octets = read others) ∧
      ∀ p, read octets = .ok p → read others = .ok p → Indistinct octets others := by
  constructor
  · intro h
    rcases Refusal.grammatical_or_refused octets with ⟨count, hgrammar⟩ | ⟨error, hrefused⟩
    · obtain ⟨c, v, records, hframed⟩ := hgrammar.framed
      obtain ⟨d, w, rest, hother⟩ := (h.grammatical hgrammar).framed
      have hp := read_of_framed hframed
      have hq := read_of_framed hother
      rw [hp, hq, h.packet_eq hp hq]
    · rw [hrefused.read_eq, (h.refusal hrefused).read_eq]
  · intro p hp hq
    obtain ⟨-, hpsame, -⟩ := octets_of_read hp
    obtain ⟨-, hqsame, -⟩ := octets_of_read hq
    exact hpsame.trans hqsame.symm

/-- The route tag and the octets behind the address count in the second version only. -/
example :
    Indistinct [2, 1, 9, 9, 0, 2, 7, 7, 192, 0, 2, 1, 1, 2, 3, 4, 5, 6, 7, 8, 0, 0, 0, 3]
        [2, 1, 0, 8, 0, 2, 0, 1, 192, 0, 2, 1, 8, 7, 6, 5, 4, 3, 2, 1, 0, 0, 0, 3] ∧
      ¬ Indistinct [2, 2, 0, 0, 0, 2, 7, 7, 192, 0, 2, 1, 1, 2, 3, 4, 5, 6, 7, 8, 0, 0, 0, 3]
        [2, 2, 0, 0, 0, 2, 0, 1, 192, 0, 2, 1, 1, 2, 3, 4, 5, 6, 7, 8, 0, 0, 0, 3] :=
  ⟨⟨rfl, by decide⟩, fun h => absurd (h.agree 7 (by decide) (by decide)) (by decide)⟩

end Packet

end RipWire
