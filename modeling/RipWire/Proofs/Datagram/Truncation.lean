import RipWire.Proofs.Datagram.Refusal

/-!
# Datagrams cut short and continued

No octet tells where a datagram ends. One that is cut behind a record is therefore
read as a packet with fewer entries, while every other cut is found out, and a record
that is put behind a datagram is its last entry as long as there is room for it.
-/

namespace RipWire

namespace Framed

variable {octets : Bytes} {command : Command} {version : Version} {records : List Bytes}

theorem codeAt (h : Framed octets command version records) :
    CodeAt octets 0 ∧ CodeAt octets 1 :=
  ⟨h.grammatical.command, h.grammatical.version⟩

theorem take (h : Framed octets command version records) (j : Nat) :
    Framed (octets.take (4 + 20 * j)) command version (records.take j) := by
  obtain ⟨first, second, rfl⟩ := h.parts
  constructor
  case parts =>
    have hrecords : records.flatten.take (20 * j) = (records.take j).flatten :=
      take_flatten_records records h.whole j
    refine ⟨first, second, ?_⟩
    rw [Nat.add_comm 4, List.take_succ_cons, List.take_succ_cons, List.take_succ_cons,
      List.take_succ_cons, hrecords]
  case whole => exact fun record hm => h.whole record (List.mem_of_mem_take hm)
  case known => exact fun record hm => h.known record (List.mem_of_mem_take hm)
  case fits => exact Nat.le_trans (List.length_take_le' j records) h.fits

theorem concat (h : Framed octets command version records) {record : Bytes}
    (hw : record.length = Entry.size) (hk : ∃ f : Family, record.field 0 2 = Field.family f)
    (room : records.length < Packet.capacity) :
    Framed (octets ++ record) command version (records ++ [record]) := by
  obtain ⟨first, second, rfl⟩ := h.parts
  constructor
  case parts =>
    refine ⟨first, second, ?_⟩
    simp only [List.cons_append, List.flatten_append, List.flatten_cons, List.flatten_nil,
      List.append_nil]
  case whole =>
    intro other hm
    rcases List.mem_append.mp hm with hm | hm
    · exact h.whole other hm
    · rw [List.mem_singleton.mp hm]
      exact hw
  case known =>
    intro other hm
    rcases List.mem_append.mp hm with hm | hm
    · exact h.known other hm
    · rw [List.mem_singleton.mp hm]
      exact hk
  case fits =>
    rw [List.length_append, List.length_singleton]
    omega

end Framed

theorem CodeAt.take {octets : Bytes} {position k : Nat} (h : CodeAt octets position)
    (hk : position < k) : CodeAt (octets.take k) position := by
  unfold CodeAt
  rw [List.getElem?_take, if_pos hk]
  exact h

theorem CodeAt.append {octets : Bytes} {position : Nat} (h : CodeAt octets position)
    (more : Bytes) : CodeAt (octets ++ more) position := by
  have hposition : position < octets.length := by
    rcases h with h | h <;> exact (List.getElem?_eq_some_iff.mp h).1
  unfold CodeAt
  rw [List.getElem?_append_left hposition]
  exact h

namespace Packet

/-- What the first octets of a datagram are read as, that a packet is read from as a whole. -/
structure CutShort (octets : Bytes) (p : Packet) (k : Nat) : Prop where
  accepted : (∃ q, read (octets.take k) = .ok q) ↔ ∃ j, k = 4 + 20 * j
  behindRecord : ∀ j, k = 4 + 20 * j → j < p.entries.length ∧
    read (octets.take k) = .ok { p with entries := p.entries.take j }
  inHeader : k < 4 → read (octets.take k) =
    .error (.codec (.tooShort (text "a RIP header needs 4 bytes, got " ++ Text.ofNat k) (some k)))
  inRecord : 4 ≤ k → (∀ j, k ≠ 4 + 20 * j) → read (octets.take k) =
    .error (.codec (.malformedEntryData
      (Text.ofNat (k - 4) ++ text " bytes follow the header, not a multiple of 20")
      (some (4 + 20 * ((k - 4) / 20) : Nat))))

/-- What a datagram with one more record is read as. -/
structure Continued (octets : Bytes) (p : Packet) (record : Bytes) : Prop where
  room : p.entries.length < 25 → ∃ version e, p.version = .ok version ∧
    Entry.unpack version record octets.length = .ok e ∧ e.version = version ∧ e.Shows record ∧
    read (octets ++ record) = .ok { p with entries := p.entries ++ [e] }
  full : p.entries.length = 25 →
    read (octets ++ record) = .error (.codec (.tooManyEntries (.int 26) (some 504)))

section Framed

variable {octets : Bytes} {command : Command} {version : Version} {records : List Bytes}

theorem read_take (h : Framed octets command version records) (j : Nat) :
    read (octets.take (4 + 20 * j)) = .ok { ofRecords command version records with
      entries := (ofRecords command version records).entries.take j } := by
  rw [read_of_framed (h.take j), ofRecords, List.map_take]
  rfl

theorem cutShort_of_framed (h : Framed octets command version records) {k : Nat}
    (hk : k < octets.length) : CutShort octets (ofRecords command version records) k := by
  have hlength : (octets.take k).length = k := List.length_take_of_le (Nat.le_of_lt hk)
  have hinHeader (hshort : k < 4) := read_short (show (octets.take k).length < 4 by omega)
  have hinRecord (hlong : 4 ≤ k) (hpartly : ∀ j, k ≠ 4 + 20 * j) := by
    have hrest : ((octets.take k).length - 4) % 20 ≠ 0 := by
      have hnone := hpartly ((k - 4) / 20)
      omega
    exact read_stray (by omega) (h.codeAt.1.take (by omega)) (h.codeAt.2.take (by omega)) hrest
  rw [hlength] at hinHeader hinRecord
  constructor
  case accepted =>
    constructor
    · rintro ⟨q, hq⟩
      by_contra hnone
      have hpartly : ∀ j, k ≠ 4 + 20 * j := fun j hj => hnone ⟨j, hj⟩
      by_cases hshort : k < 4
      · rw [hinHeader hshort] at hq
        cases hq
      · rw [hinRecord (by omega) hpartly] at hq
        cases hq
    · rintro ⟨j, rfl⟩
      exact ⟨_, read_take h j⟩
  case behindRecord =>
    rintro j rfl
    have hentries : (ofRecords command version records).entries.length = records.length :=
      List.length_map _
    have hoctets := h.length_octets
    exact ⟨by omega, read_take h j⟩
  case inHeader => exact hinHeader
  case inRecord => exact hinRecord

theorem continued_of_framed (h : Framed octets command version records) {record : Bytes}
    (hw : record.length = 20) (hf : FamilyAt record 0) :
    Continued octets (ofRecords command version records) record := by
  have hentries : (ofRecords command version records).entries.length = records.length :=
    List.length_map _
  have hknown := Field.exists_family hf
  constructor
  case room =>
    intro hroom
    have hread := read_of_framed (h.concat hw hknown (by rw [capacity]; omega))
    refine ⟨version, Entry.ofRecord version record, Header.version_ofCodes command version,
      Entry.unpack_ok_iff.mpr ⟨hw, hknown, rfl⟩, rfl, Entry.ofRecord_shows hw hknown, ?_⟩
    rw [hread, ofRecords, List.map_append]
    rfl
  case full =>
    intro hfull
    have hlength : (octets ++ record).length = 4 + 20 * 26 := by
      rw [List.length_append, h.length_octets]
      omega
    exact read_overfull (h.codeAt.1.append record) (h.codeAt.2.append record) hlength (by decide)

end Framed

/-- Of a datagram that is read, the octets in front of a record make a datagram with the entries
before it, and no other first octets make one. With one more record it has one more entry, unless
it is full. -/
theorem read_take_append {octets : Bytes} {p : Packet} (parsed : read octets = .ok p) :
    (∀ k < octets.length, CutShort octets p k) ∧
      ∀ record : Bytes, record.length = 20 → FamilyAt record 0 → Continued octets p record := by
  obtain ⟨command, version, records, h, rfl⟩ := framed_of_read parsed
  exact ⟨fun k hk => cutShort_of_framed h hk, fun record hw hf => continued_of_framed h hw hf⟩

/-- Two records behind a header with stray octets: cut behind the header, behind the first record
and inside both, and with the first record once more. -/
theorem read_take_append_two_records :
    let record : Bytes := [0, 2, 0, 0, 10, 0, 0, 1, 0, 0, 0, 0, 0, 0, 0, 0, 0, 0, 0, 3]
    let octets : Bytes := [2, 1, 9, 9, 0, 2, 0, 0, 10, 0, 0, 1, 0, 0, 0, 0, 0, 0, 0, 0, 0, 0, 0, 3,
      0, 0, 5, 5, 0, 0, 0, 0, 0, 0, 0, 0, 0, 0, 0, 0, 255, 255, 255, 255]
    let first : Entry := ⟨.v1, record⟩
    let second : Entry :=
      ⟨.v1, [0, 0, 0, 0, 0, 0, 0, 0, 0, 0, 0, 0, 0, 0, 0, 0, 255, 255, 255, 255]⟩
    let p (entries : List Entry) : Packet :=
      ⟨some (Format.ofVersion .v1), Header.ofCodes .response .v1, entries⟩
    read octets = .ok (p [first, second]) ∧
      read (octets.take 3) = .error (.codec
        (.tooShort (text "a RIP header needs 4 bytes, got " ++ Text.ofNat 3) (some 3))) ∧
      read (octets.take 4) = .ok (p []) ∧
      read (octets.take 23) = .error (.codec (.malformedEntryData
        (Text.ofNat 19 ++ text " bytes follow the header, not a multiple of 20") (some 4))) ∧
      read (octets.take 24) = .ok (p [first]) ∧
      read (octets.take 43) = .error (.codec (.malformedEntryData
        (Text.ofNat 39 ++ text " bytes follow the header, not a multiple of 20") (some 24))) ∧
      read (octets ++ record) = .ok (p [first, second, first]) := by
  intro record octets first second p
  have hread : read octets = .ok (p [first, second]) := by
    subst p first second octets record
    rfl
  obtain ⟨hcut, hmore⟩ := read_take_append hread
  have hcontinued := (hmore record rfl (.inr (by decide))).room (by decide)
  obtain ⟨version, e, hversion, hunpack, -, -, hadded⟩ := hcontinued
  cases hversion
  cases hunpack
  exact ⟨hread, (hcut 3 (by decide)).inHeader (by decide),
    ((hcut 4 (by decide)).behindRecord 0 rfl).2,
    (hcut 23 (by decide)).inRecord (by decide) (by omega),
    ((hcut 24 (by decide)).behindRecord 1 rfl).2,
    (hcut 43 (by decide)).inRecord (by decide) (by omega), hadded⟩

end Packet

end RipWire
