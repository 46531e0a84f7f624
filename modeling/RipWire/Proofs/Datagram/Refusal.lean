import Mathlib.Data.Nat.Find
import RipWire.Proofs.Datagram.Grammar

/-!
# Why a datagram is refused

A datagram that can not be read fails the first of a sequence of checks: its
length, its command, its version, the number of octets behind the header, the
number of records, and the family of every record in order. The check that
fails first decides the error, what the error carries, and the position in the
datagram that it names.
-/

namespace RipWire

open Checks

/-- The octet at a position is one of the two codes that commands and versions have. -/
def CodeAt (octets : Bytes) (position : Nat) : Prop :=
  octets[position]? = some 1 ∨ octets[position]? = some 2

/-- The two octets at a position are a family. -/
def FamilyAt (octets : Bytes) (position : Nat) : Prop :=
  octets.field position 2 = [0, 0] ∨ octets.field position 2 = [0, 2]

/-- The first check that a datagram fails, in the order of the checks. Every case but the first has
what the checks before it found. -/
inductive Refusal (octets : Bytes) : CodecError → Prop where
  | tooShort (short : octets.length < 4) :
      Refusal octets (.tooShort
        (text "a RIP header needs 4 bytes, got " ++ Text.ofNat octets.length)
        (some octets.length))
  | command {code : UInt8} (long : 4 ≤ octets.length) (found : octets[0]? = some code)
      (unknown : ¬ CodeAt octets 0) :
      Refusal octets (.invalidCommand (.int code.toNat) (some 0))
  | version {code : UInt8} (long : 4 ≤ octets.length) (command : CodeAt octets 0)
      (found : octets[1]? = some code) (unknown : ¬ CodeAt octets 1) :
      Refusal octets (.invalidVersion (.int code.toNat) (some 1))
  | stray (long : 4 ≤ octets.length) (command : CodeAt octets 0) (version : CodeAt octets 1)
      (partly : (octets.length - 4) % 20 ≠ 0) :
      Refusal octets (.malformedEntryData
        (Text.ofNat (octets.length - 4) ++
          text " bytes follow the header, not a multiple of 20")
        (some (4 + 20 * ((octets.length - 4) / 20) : Nat)))
  | overfull {count : Nat} (command : CodeAt octets 0) (version : CodeAt octets 1)
      (whole : octets.length = 4 + 20 * count) (many : 25 < count) :
      Refusal octets (.tooManyEntries (.int count) (some 504))
  | family {count k : Nat} (command : CodeAt octets 0) (version : CodeAt octets 1)
      (whole : octets.length = 4 + 20 * count) (fits : count ≤ 25) (member : k < count)
      (before : ∀ j < k, FamilyAt octets (4 + 20 * j))
      (unknown : ¬ FamilyAt octets (4 + 20 * k)) :
      Refusal octets (.invalidAddressFamily (.int (octets.field (4 + 20 * k) 2).toNat)
        (some (4 + 20 * k : Nat)))

theorem Command.ofOctet_error {octet : UInt8} (unknown : ¬ (octet = 1 ∨ octet = 2))
    (offset : Option Int) :
    Command.ofOctet octet offset = .error (.codec (.invalidCommand (.int octet.toNat) offset)) := by
  unfold Command.ofOctet
  cases hc : Command.ofInt? octet.toNat with
  | none => rfl
  | some c =>
      have hn := Command.code_of_ofInt? hc
      have ho : octet = UInt8.ofNat c.code := Bytes.octet_eq_of_toNat (by omega)
      exact (unknown (by rw [ho]; cases c <;> decide)).elim

theorem Version.ofOctet_error {octet : UInt8} (unknown : ¬ (octet = 1 ∨ octet = 2))
    (offset : Option Int) :
    Version.ofOctet octet offset = .error (.codec (.invalidVersion (.int octet.toNat) offset)) := by
  unfold Version.ofOctet
  cases hv : Version.ofInt? octet.toNat with
  | none => rfl
  | some v =>
      have hn := Version.code_of_ofInt? hv
      have ho : octet = UInt8.ofNat v.code := Bytes.octet_eq_of_toNat (by omega)
      exact (unknown (by rw [ho]; cases v <;> decide)).elim

theorem Family.ofOctets_error {record : Bytes} (hl : 2 ≤ record.length)
    (unknown : ¬ ∃ f : Family, record.field 0 2 = Field.family f) (offset : Option Int) :
    Family.ofOctets offset record =
      .error (.codec (.invalidAddressFamily (.int (record.field 0 2).toNat) offset)) := by
  match record, hl with
  | high :: low :: rest, _ =>
      simp only [Family.ofOctets]
      cases hf : Family.ofInt? (Bytes.toNat [high, low]) with
      | none => rfl
      | some f => exact (unknown ⟨f, Family.ofInt?_toNat_iff.mp hf⟩).elim

namespace Entry

/-- Records are read in order, and the first one without a family ends the reading at the place
where it starts. What comes behind it does not matter. -/
theorem readAll_error_behind (layout : Version) (offset : Nat) {before : List Bytes}
    {record : Bytes} (rest : List Bytes)
    (hbefore : ∀ other ∈ before,
      other.length = size ∧ ∃ f : Family, other.field 0 2 = Field.family f)
    (hw : record.length = size) (unknown : ¬ ∃ f : Family, record.field 0 2 = Field.family f) :
    readAll layout offset (before ++ record :: rest) =
      .error (.codec (.invalidAddressFamily (.int (record.field 0 2).toNat)
        (some (offset + size * before.length : Nat)))) := by
  induction before generalizing offset with
  | nil =>
      have hf := Family.ofOctets_error (by rw [hw]; decide) unknown (some (offset : Int))
      rw [List.nil_append, readAll, unpack, if_neg (by simpa using hw), hf]
      rfl
  | cons first before ih =>
      obtain ⟨⟨hfirst, hknown⟩, hrest⟩ := List.forall_mem_cons.mp hbefore
      have hu : unpack layout first offset = .ok (ofRecord layout first) :=
        unpack_ok_iff.mpr ⟨hfirst, hknown, rfl⟩
      have hoffset : offset + size * (first :: before).length =
          offset + size + size * before.length := by
        rw [List.length_cons, Nat.mul_succ]
        omega
      rw [List.cons_append, readAll, hu, hoffset, bind_error_iff]
      right
      exact ⟨_, rfl, bind_error_iff.mpr (Or.inl (ih (offset + size) hrest))⟩

theorem readAll_error_at (layout : Version) (offset : Nat) {records : List Bytes}
    (hw : ∀ record ∈ records, record.length = size) {k : Nat} (hk : k < records.length)
    (before : ∀ j (hj : j < k), ∃ f : Family, (records[j]).field 0 2 = Field.family f)
    (unknown : ¬ ∃ f : Family, (records[k]).field 0 2 = Field.family f) :
    readAll layout offset records =
      .error (.codec (.invalidAddressFamily (.int ((records[k]).field 0 2).toNat)
        (some (offset + size * k : Nat)))) := by
  have hsplit : records.take k ++ records[k] :: records.drop (k + 1) = records := by
    rw [← List.drop_eq_getElem_cons, List.take_append_drop]
  have hbefore : ∀ other ∈ records.take k,
      other.length = size ∧ ∃ f : Family, other.field 0 2 = Field.family f := by
    intro other hm
    obtain ⟨j, hj, rfl⟩ := List.mem_take_iff_getElem.mp hm
    exact ⟨hw _ (List.getElem_mem _), before j (by omega)⟩
  have hread := readAll_error_behind layout offset (records.drop (k + 1)) hbefore
    (hw _ (List.getElem_mem hk)) unknown
  rwa [hsplit, List.length_take, Nat.min_eq_left (by omega)] at hread

end Entry

namespace Packet

theorem exists_accepted_header {octets : Bytes} (long : 4 ≤ octets.length)
    (command : CodeAt octets 0) (version : CodeAt octets 1) :
    ∃ (c : Command) (v : Version) (first second : UInt8) (rest : Bytes),
      octets = UInt8.ofNat c.code :: UInt8.ofNat v.code :: first :: second :: rest := by
  obtain ⟨a, b, first, second, rest, rfl⟩ := exists_header long
  obtain ⟨c, rfl⟩ := Command.exists_code (show a = 1 ∨ a = 2 by simpa [CodeAt] using command)
  obtain ⟨v, rfl⟩ := Version.exists_code (show b = 1 ∨ b = 2 by simpa [CodeAt] using version)
  exact ⟨c, v, first, second, rest, rfl⟩

theorem read_short {octets : Bytes} (short : octets.length < 4) :
    read octets = .error (.codec (.shortHeader octets.length)) := by
  match octets, short with
  | [], _ | [_], _ | [_, _], _ | [_, _, _], _ => rfl

theorem read_unknown_command {octets : Bytes} {code : UInt8} (long : 4 ≤ octets.length)
    (found : octets[0]? = some code) (unknown : ¬ CodeAt octets 0) :
    read octets = .error (.codec (.invalidCommand (.int code.toNat) (some 0))) := by
  obtain ⟨a, b, first, second, rest, rfl⟩ := exists_header long
  cases found
  have hunknown : ¬ (code = 1 ∨ code = 2) := by simpa [CodeAt] using unknown
  have hc := Command.ofOctet_error hunknown (some 0)
  simp only [read, readWith, Header.unpack, hc]
  rfl

theorem read_unknown_version {octets : Bytes} {code : UInt8} (long : 4 ≤ octets.length)
    (command : CodeAt octets 0) (found : octets[1]? = some code) (unknown : ¬ CodeAt octets 1) :
    read octets = .error (.codec (.invalidVersion (.int code.toNat) (some 1))) := by
  obtain ⟨a, b, first, second, rest, rfl⟩ := exists_header long
  cases found
  obtain ⟨c, rfl⟩ := Command.exists_code (show a = 1 ∨ a = 2 by simpa [CodeAt] using command)
  have hc : Command.ofOctet (UInt8.ofNat c.code) (some 0) = .ok c := Command.ofOctet_ok_iff.mpr rfl
  have hunknown : ¬ (code = 1 ∨ code = 2) := by simpa [CodeAt] using unknown
  have hv := Version.ofOctet_error hunknown (some 1)
  simp only [read, readWith, Header.unpack, hc, hv]
  rfl

theorem read_stray {octets : Bytes} (long : 4 ≤ octets.length) (command : CodeAt octets 0)
    (version : CodeAt octets 1) (partly : (octets.length - 4) % 20 ≠ 0) :
    read octets = .error (.codec (.malformedEntryData
      (Text.ofNat (octets.length - 4) ++ text " bytes follow the header, not a multiple of 20")
      (some (4 + 20 * ((octets.length - 4) / 20) : Nat)))) := by
  obtain ⟨c, v, first, second, rest, rfl⟩ := exists_accepted_header long command version
  have hlen : (UInt8.ofNat c.code :: UInt8.ofNat v.code :: first :: second :: rest).length - 4 =
      rest.length := by simp
  rw [hlen] at partly ⊢
  have hp : rest.length % Entry.size ≠ 0 := partly
  have hoffset : Header.size + rest.length - rest.length % Entry.size =
      4 + 20 * (rest.length / 20) := by
    rw [Header.size, Entry.size]
    omega
  rw [read_of_header, if_pos hp, CodecError.strayOctets, hoffset]

theorem read_overfull {octets : Bytes} {count : Nat} (command : CodeAt octets 0)
    (version : CodeAt octets 1) (whole : octets.length = 4 + 20 * count) (many : 25 < count) :
    read octets = .error (.codec (.tooManyEntries (.int count) (some 504))) := by
  obtain ⟨c, v, first, second, rest, rfl⟩ :=
    exists_accepted_header (show 4 ≤ octets.length by omega) command version
  have hlen : rest.length = count * Entry.size := by
    simp only [List.length_cons] at whole
    rw [Entry.size]
    omega
  have hcount : rest.length / Entry.size = count := by
    rw [hlen, Nat.mul_div_cancel _ (by decide)]
  have hmany : capacity < count := many
  rw [read_of_header, hcount, hlen, Nat.mul_mod_left, if_neg (by decide), if_pos hmany]
  rfl

theorem familyAt_record (a b c d : UInt8) {records : List Bytes}
    (hw : ∀ record ∈ records, record.length = Entry.size) (k : Nat) (hk : k < records.length) :
    Bytes.field (4 + 20 * k) 2 (a :: b :: c :: d :: records.flatten) = (records[k]).field 0 2 := by
  have hrecord :
      Bytes.field (4 + 20 * k) 20 (a :: b :: c :: d :: records.flatten) = records[k] := by
    rw [field_behind_header]
    exact Bytes.field_flatten records hw k hk
  rw [← hrecord, Bytes.field_field (by decide), Nat.add_zero]

theorem read_unknown_family {octets : Bytes} {count k : Nat} (command : CodeAt octets 0)
    (version : CodeAt octets 1) (whole : octets.length = 4 + 20 * count) (fits : count ≤ 25)
    (member : k < count) (before : ∀ j < k, FamilyAt octets (4 + 20 * j))
    (unknown : ¬ FamilyAt octets (4 + 20 * k)) :
    read octets = .error (.codec (.invalidAddressFamily
      (.int (octets.field (4 + 20 * k) 2).toNat) (some (4 + 20 * k : Nat)))) := by
  obtain ⟨c, v, first, second, rest, rfl⟩ :=
    exists_accepted_header (show 4 ≤ octets.length by omega) command version
  have hlen : rest.length = 20 * count := by
    simp only [List.length_cons] at whole
    omega
  have hmod : rest.length % Entry.size = 0 := by
    rw [hlen, Entry.size]
    omega
  have hdiv : ¬ capacity < rest.length / Entry.size := by
    rw [hlen, Entry.size, capacity]
    omega
  obtain ⟨records, rfl, hw, hfits⟩ := records_of_rest hmod hdiv
  have hcount : records.length = count := by
    rw [length_flatten_records records hw, Entry.size] at hlen
    omega
  have hfamily (j : Nat) (hj : j < records.length) := familyAt_record (UInt8.ofNat c.code)
    (UInt8.ofNat v.code) first second hw j hj
  have hk : k < records.length := by omega
  have hbefore : ∀ j (hj : j < k), ∃ f : Family, (records[j]).field 0 2 = Field.family f := by
    intro j hj
    have hknown := before j hj
    rw [FamilyAt, hfamily j (by omega)] at hknown
    exact Field.exists_family hknown
  have hunknown : ¬ ∃ f : Family, (records[k]).field 0 2 = Field.family f := by
    rintro ⟨f, hf⟩
    rw [FamilyAt, hfamily k hk, hf] at unknown
    exact unknown (Field.family_octets f)
  have hread := Entry.readAll_error_at v Header.size hw hk hbefore hunknown
  rw [read_of_records c v first second hw hfits, hread, hfamily k hk]
  rfl

end Packet

namespace Refusal

variable {octets : Bytes} {error : CodecError}

theorem read_eq (h : Refusal octets error) : Packet.read octets = .error (.codec error) := by
  cases h with
  | tooShort short => exact Packet.read_short short
  | command long found unknown => exact Packet.read_unknown_command long found unknown
  | version long command found unknown =>
      exact Packet.read_unknown_version long command found unknown
  | stray long command version partly => exact Packet.read_stray long command version partly
  | overfull command version whole many => exact Packet.read_overfull command version whole many
  | family command version whole fits member before unknown =>
      exact Packet.read_unknown_family command version whole fits member before unknown

theorem exists_first_unknown {count : Nat} (h : ¬ ∀ k < count, FamilyAt octets (4 + 20 * k)) :
    ∃ k < count, ¬ FamilyAt octets (4 + 20 * k) ∧ ∀ j < k, FamilyAt octets (4 + 20 * j) := by
  classical
  have hex : ∃ k, k < count ∧ ¬ FamilyAt octets (4 + 20 * k) := by
    simpa only [not_forall, exists_prop] using h
  obtain ⟨hk, hunknown⟩ := Nat.find_spec hex
  refine ⟨Nat.find hex, hk, hunknown, ?_⟩
  intro j hj
  by_contra hfamily
  exact Nat.find_min hex hj ⟨by omega, hfamily⟩

/-- The checks cover everything: a datagram is of the grammar, or it is refused. -/
theorem grammatical_or_refused (octets : Bytes) :
    (∃ count, Grammatical octets count) ∨ ∃ error, Refusal octets error := by
  by_cases hlong : 4 ≤ octets.length
  swap
  · exact Or.inr ⟨_, tooShort (by omega)⟩
  by_cases hcommand : CodeAt octets 0
  swap
  · exact Or.inr ⟨_, command hlong (List.getElem?_eq_getElem (by omega)) hcommand⟩
  by_cases hversion : CodeAt octets 1
  swap
  · exact Or.inr ⟨_, version hlong hcommand (List.getElem?_eq_getElem (by omega)) hversion⟩
  by_cases hwhole : (octets.length - 4) % 20 = 0
  swap
  · exact Or.inr ⟨_, stray hlong hcommand hversion hwhole⟩
  have hcount : octets.length = 4 + 20 * ((octets.length - 4) / 20) := by omega
  by_cases hfits : (octets.length - 4) / 20 ≤ 25
  swap
  · exact Or.inr ⟨_, overfull hcommand hversion hcount (by omega)⟩
  by_cases hfamily : ∀ k < (octets.length - 4) / 20, FamilyAt octets (4 + 20 * k)
  · exact Or.inl ⟨_, hcount, hfits, hcommand, hversion, hfamily⟩
  · obtain ⟨k, hk, hunknown, hbefore⟩ := exists_first_unknown hfamily
    exact Or.inr ⟨_, family hcommand hversion hcount hfits hk hbefore hunknown⟩

theorem offset_le (h : Refusal octets error) :
    ∃ position : Nat, error.offset = some (position : Int) ∧ position ≤ octets.length := by
  cases h with
  | tooShort short => exact ⟨_, rfl, Nat.le_refl _⟩
  | command long found unknown => exact ⟨0, rfl, by omega⟩
  | version long command found unknown => exact ⟨1, rfl, by omega⟩
  | stray long command version partly => exact ⟨_, rfl, by omega⟩
  | overfull command version whole many => exact ⟨504, rfl, by omega⟩
  | family command version whole fits member before unknown => exact ⟨_, rfl, by omega⟩

end Refusal

/-- The kinds of errors that a datagram can be refused with. -/
def refusalNames : List Text :=
  [text "TooShort", text "InvalidCommand", text "InvalidVersion", text "MalformedEntryData",
    text "TooManyEntries", text "InvalidAddressFamily"]

theorem Refusal.name_mem {octets : Bytes} {error : CodecError} (h : Refusal octets error) :
    error.name ∈ refusalNames := by
  cases h <;> simp [refusalNames, CodecError.name]

namespace Packet

theorem exists_refusal {octets : Bytes} {fault : Fault} (h : read octets = .error fault) :
    ∃ error, fault = .codec error ∧ Refusal octets error := by
  rcases Refusal.grammatical_or_refused octets with ⟨count, hgrammar⟩ | ⟨error, herror⟩
  · obtain ⟨command, version, records, hframed⟩ := hgrammar.framed
    rw [read_of_framed hframed] at h
    cases h
  · rw [herror.read_eq] at h
    cases h
    exact ⟨error, rfl, herror⟩

/-- A datagram that is not read is refused with the error of the check that it fails first, and no
other outcome is possible: the error always names a position of the datagram. -/
theorem read_error_iff_refusal (octets : Bytes) (fault : Fault) :
    (read octets = .error fault ↔ ∃ error, fault = .codec error ∧ Refusal octets error) ∧
      (read octets = .error fault → fault.name ∈ refusalNames ∧
        ∃ error, ∃ position : Nat, fault = .codec error ∧ error.offset = some (position : Int) ∧
          position ≤ octets.length) := by
  constructor
  · constructor
    · exact exists_refusal
    · rintro ⟨error, rfl, herror⟩
      exact herror.read_eq
  · intro hread
    obtain ⟨error, rfl, herror⟩ := exists_refusal hread
    obtain ⟨position, hoffset, hle⟩ := herror.offset_le
    exact ⟨herror.name_mem, error, position, rfl, hoffset, hle⟩

end Packet

end RipWire
