import RipWire.Proofs.Datagram.WellFormed

/-!
# Datagrams as a header and records

A datagram can be read exactly when it is a known command and version, any two
octets, and whole records of known families behind them, no more than fit. The
packet read then carries one entry for each record, in their order.
-/

namespace RipWire

open Checks

/-- How a datagram that can be read is put together. -/
structure Framed (octets : Bytes) (command : Command) (version : Version)
    (records : List Bytes) : Prop where
  parts : ∃ first second, octets =
    UInt8.ofNat command.code :: UInt8.ofNat version.code :: first :: second :: records.flatten
  whole : ∀ record ∈ records, record.length = Entry.size
  known : ∀ record ∈ records, ∃ f : Family, record.field 0 2 = Field.family f
  fits : records.length ≤ Packet.capacity

namespace Entry

theorem readAll_ok_iff {layout : Version} {offset : Nat} {records : List Bytes}
    {entries : List Entry} :
    readAll layout offset records = .ok entries ↔
      (∀ record ∈ records, record.length = size ∧ ∃ f : Family, record.field 0 2 = Field.family f) ∧
        entries = records.map (ofRecord layout) := by
  induction records generalizing offset entries with
  | nil => simp [readAll, eq_comm]
  | cons record records ih =>
      rw [readAll, bind_ok_iff, List.map_cons, List.forall_mem_cons]
      constructor
      · rintro ⟨e, he, h⟩
        obtain ⟨rest, hr, h⟩ := bind_ok_iff.mp h
        cases h
        obtain ⟨hw, hk, rfl⟩ := unpack_ok_iff.mp he
        obtain ⟨hrest, rfl⟩ := ih.mp hr
        exact ⟨⟨⟨hw, hk⟩, hrest⟩, rfl⟩
      · rintro ⟨⟨⟨hw, hk⟩, hrest⟩, rfl⟩
        exact ⟨ofRecord layout record, unpack_ok_iff.mpr ⟨hw, hk, rfl⟩,
          bind_ok_iff.mpr ⟨_, ih.mpr ⟨hrest, rfl⟩, rfl⟩⟩

end Entry

namespace Packet

theorem classOf_initial (version : Version) :
    Registry.initial.classOf (.number .version version.code) =
      .ok (PacketClass.ofVersion version) := by
  cases version <;> rfl

/-- The packet with an entry for every record. -/
def ofRecords (command : Command) (version : Version) (records : List Bytes) : Packet :=
  carrying command version (records.map (Entry.ofRecord version))

theorem assemble_ofRecords {command : Command} {version : Version} {records : List Bytes}
    (fits : records.length ≤ capacity) :
    assemble (Format.ofVersion version) (Header.ofCodes command version)
      ((records.map (Entry.ofRecord version)).map .entry) =
        .ok (ofRecords command version records) := by
  refine assemble_ok_iff.mpr ⟨_, rfl, ?_, Header.version_ofCodes command version, ?_, rfl⟩
  · rw [List.length_map]
    exact fits
  · intro e hm
    obtain ⟨record, -, rfl⟩ := List.mem_map.mp hm
    rfl

/-- Behind a header that is accepted, reading is a matter of the octets that follow it. -/
theorem read_of_header (command : Command) (version : Version) (first second : UInt8)
    (rest : Bytes) :
    read (UInt8.ofNat command.code :: UInt8.ofNat version.code :: first :: second :: rest) =
      if rest.length % Entry.size ≠ 0 then .error (.codec (.strayOctets rest.length))
      else if capacity < rest.length / Entry.size then
        .error (.codec (.overfull (rest.length / Entry.size) (some highestSize)))
      else Entry.readAll version Header.size (chunks Entry.size rest) >>= fun entries =>
        assemble (Format.ofVersion version) (Header.ofCodes command version)
          (entries.map .entry) := by
  have hu := Header.unpack_ok_iff.mpr
    ⟨command, version, first, second, rest, rfl, rfl⟩
  have hl : (UInt8.ofNat command.code :: UInt8.ofNat version.code :: first :: second ::
      rest).length - Header.size = rest.length := by simp [Header.size]
  have hc := classOf_initial version
  unfold read readWith
  rw [hu, hl]
  simp only [bind, Except.bind, Header.version_ofCodes, hc, PacketClass.format_ofVersion,
    PacketClass.layout_ofVersion, Header.size, List.drop_succ_cons, List.drop_zero]

theorem records_of_rest {rest : Bytes} (hr : rest.length % Entry.size = 0)
    (hc : ¬ capacity < rest.length / Entry.size) :
    ∃ records : List Bytes, rest = records.flatten ∧
      (∀ record ∈ records, record.length = Entry.size) ∧ records.length ≤ capacity := by
  have hsize : 0 < Entry.size := by decide
  have hlen : rest.length = rest.length / Entry.size * Entry.size :=
    (Nat.div_mul_cancel (Nat.dvd_of_mod_eq_zero hr)).symm
  have hcount := length_chunks hsize _ rest hlen
  exact ⟨chunks Entry.size rest, (flatten_chunks hsize rest).symm,
    length_of_mem_chunks hsize _ rest hlen, by omega⟩

/-- Whole records behind an accepted header, no more than fit, are read one by one, and what they
are read as makes the packet. -/
theorem read_of_records (command : Command) (version : Version) (first second : UInt8)
    {records : List Bytes} (hw : ∀ record ∈ records, record.length = Entry.size)
    (hfits : records.length ≤ capacity) :
    read (UInt8.ofNat command.code :: UInt8.ofNat version.code :: first :: second ::
        records.flatten) =
      (Entry.readAll version Header.size records).map (carrying command version) := by
  have hsize : 0 < Entry.size := by decide
  have hlen := length_flatten_records records hw
  rw [read_of_header, hlen, Nat.mul_mod_left, Nat.mul_div_cancel _ hsize,
    chunks_flatten hsize records hw, if_neg (by decide), if_neg (by omega)]
  cases hread : Entry.readAll version Header.size records with
  | error fault => rfl
  | ok entries =>
      obtain ⟨-, rfl⟩ := Entry.readAll_ok_iff.mp hread
      exact assemble_ofRecords hfits

theorem read_of_framed {octets : Bytes} {command : Command} {version : Version}
    {records : List Bytes} (h : Framed octets command version records) :
    read octets = .ok (ofRecords command version records) := by
  obtain ⟨first, second, rfl⟩ := h.parts
  have hread : Entry.readAll version Header.size records =
      .ok (records.map (Entry.ofRecord version)) :=
    Entry.readAll_ok_iff.mpr ⟨fun record hm => ⟨h.whole record hm, h.known record hm⟩, rfl⟩
  rw [read_of_records command version first second h.whole h.fits, hread]
  rfl

theorem framed_of_read {octets : Bytes} {p : Packet} (parsed : read octets = .ok p) :
    ∃ command version records, Framed octets command version records ∧
      p = ofRecords command version records := by
  obtain ⟨h, hu, -⟩ := bind_ok_iff.mp parsed
  obtain ⟨command, version, first, second, rest, rfl, -⟩ := Header.unpack_ok_iff.mp hu
  by_cases hr : rest.length % Entry.size = 0
  · by_cases hc : capacity < rest.length / Entry.size
    · rw [read_of_header, if_neg (by simpa using hr), if_pos hc] at parsed
      cases parsed
    · obtain ⟨records, rfl, hw, hfits⟩ := records_of_rest hr hc
      rw [read_of_records command version first second hw hfits] at parsed
      obtain ⟨entries, hread, rfl⟩ := map_ok_iff.mp parsed
      obtain ⟨hrecords, rfl⟩ := Entry.readAll_ok_iff.mp hread
      exact ⟨command, version, records, ⟨⟨first, second, rfl⟩, hw,
        fun record hm => (hrecords record hm).2, hfits⟩, rfl⟩
  · rw [read_of_header, if_pos hr] at parsed
    cases parsed

theorem read_ok_iff {octets : Bytes} {p : Packet} :
    read octets = .ok p ↔ ∃ command version records,
      Framed octets command version records ∧ p = ofRecords command version records := by
  constructor
  · exact framed_of_read
  · rintro ⟨command, version, records, h, rfl⟩
    exact read_of_framed h

theorem read_wellFormed {octets : Bytes} {p : Packet} (parsed : read octets = .ok p) :
    ∃ version, p.WellFormed version := by
  obtain ⟨command, version, records, h, rfl⟩ := read_ok_iff.mp parsed
  refine ⟨version, ⟨command, rfl⟩, ?_, ?_, ?_⟩
  · simpa [ofRecords, carrying] using h.fits
  · intro e hm
    obtain ⟨record, -, rfl⟩ := List.mem_map.mp hm
    rfl
  · intro e hm
    obtain ⟨record, hr, rfl⟩ := List.mem_map.mp hm
    exact Entry.wellFormed_ofRecord (h.whole record hr) (h.known record hr)

end Packet

end RipWire
