import RipWire.Proofs.Datagram.Framing

/-!
# The grammar of datagrams

What can be read, position by position, without a word about how it is read:
four octets with a known command and version, and up to twenty-five records of
twenty octets that each start with a known family. The packet read shows the
numbers at these positions.
-/

namespace RipWire

/-- A datagram with a number of records. -/
structure Grammatical (octets : Bytes) (count : Nat) : Prop where
  length : octets.length = 4 + 20 * count
  fits : count ≤ 25
  command : octets[0]? = some 1 ∨ octets[0]? = some 2
  version : octets[1]? = some 1 ∨ octets[1]? = some 2
  family : ∀ k < count,
    octets.field (4 + 20 * k) 2 = [0, 0] ∨ octets.field (4 + 20 * k) 2 = [0, 2]

/-- The fields of an entry are the numbers at their places in a record. -/
structure Entry.Shows (record : Bytes) (e : Entry) : Prop where
  family : ∃ f, e.family = .ok f ∧ f.code = (record.field 0 2).toNat
  address : ∃ a, e.address = .ok a ∧ a.packed.toNat = (record.field 4 4).toNat
  metric : e.metric = .ok (record.field 16 4).toNat
  routeTag : e.version = .v2 → e.routeTag = .ok (record.field 2 2).toNat
  subnetMask : e.version = .v2 →
    ∃ a, e.subnetMask = .ok a ∧ a.packed.toNat = (record.field 8 4).toNat
  nextHop : e.version = .v2 →
    ∃ a, e.nextHop = .ok a ∧ a.packed.toNat = (record.field 12 4).toNat

/-- A packet is of the version of a datagram, and shows its command and its records in order. -/
structure Packet.Shows (octets : Bytes) (count : Nat) (p : Packet) : Prop where
  command : ∃ c, p.command = .ok c ∧ octets[0]? = some (UInt8.ofNat c.code)
  version : ∃ v, p.version = .ok v ∧ octets[1]? = some (UInt8.ofNat v.code) ∧
    p.format = some (Format.ofVersion v) ∧ ∀ e ∈ p.entries, e.version = v
  count : p.entries.length = count
  entries : ∀ k (hk : k < p.entries.length), p.entries[k].Shows (octets.field (4 + 20 * k) 20)

theorem Field.family_octets (f : Family) : Field.family f = [0, 0] ∨ Field.family f = [0, 2] := by
  cases f with
  | unspecified => exact Or.inl rfl
  | ip => exact Or.inr rfl

theorem Field.toNat_family (f : Family) : (Field.family f).toNat = f.code := by
  cases f <;> rfl

theorem Field.exists_family {octets : Bytes} (h : octets = [0, 0] ∨ octets = [0, 2]) :
    ∃ f : Family, octets = Field.family f := by
  rcases h with rfl | rfl
  · exact ⟨.unspecified, rfl⟩
  · exact ⟨.ip, rfl⟩

theorem Command.exists_code {octet : UInt8} (h : octet = 1 ∨ octet = 2) :
    ∃ c : Command, octet = UInt8.ofNat c.code := by
  rcases h with rfl | rfl
  · exact ⟨.request, rfl⟩
  · exact ⟨.response, rfl⟩

theorem Version.exists_code {octet : UInt8} (h : octet = 1 ∨ octet = 2) :
    ∃ v : Version, octet = UInt8.ofNat v.code := by
  rcases h with rfl | rfl
  · exact ⟨.v1, rfl⟩
  · exact ⟨.v2, rfl⟩

theorem field_behind_header (a b c d : UInt8) (rest : Bytes) (offset width : Nat) :
    Bytes.field (4 + offset) width (a :: b :: c :: d :: rest) = rest.field offset width :=
  Bytes.field_append_right [a, b, c, d] rest offset width

namespace Framed

variable {octets : Bytes} {command : Command} {version : Version} {records : List Bytes}

theorem length_octets (h : Framed octets command version records) :
    octets.length = 4 + 20 * records.length := by
  obtain ⟨first, second, rfl⟩ := h.parts
  have hl := length_flatten_records records h.whole
  simp only [Entry.size] at hl
  simp only [List.length_cons]
  omega

theorem field_record (h : Framed octets command version records) (k : Nat)
    (hk : k < records.length) : octets.field (4 + 20 * k) 20 = records[k] := by
  obtain ⟨first, second, rfl⟩ := h.parts
  rw [field_behind_header]
  exact Bytes.field_flatten records h.whole k hk

theorem grammatical (h : Framed octets command version records) :
    Grammatical octets records.length := by
  refine ⟨h.length_octets, h.fits, ?_, ?_, ?_⟩
  · obtain ⟨first, second, rfl⟩ := h.parts
    cases command with
    | request => exact Or.inl rfl
    | response => exact Or.inr rfl
  · obtain ⟨first, second, rfl⟩ := h.parts
    cases version with
    | v1 => exact Or.inl rfl
    | v2 => exact Or.inr rfl
  · intro k hk
    obtain ⟨f, hf⟩ := h.known records[k] (List.getElem_mem hk)
    have hfield : octets.field (4 + 20 * k) 2 = records[k].field 0 2 := by
      rw [← h.field_record k hk, Bytes.field_field (by decide), Nat.add_zero]
    rw [hfield, hf]
    exact Field.family_octets f

end Framed

theorem exists_header {octets : Bytes} (h : 4 ≤ octets.length) :
    ∃ a b c d rest, octets = a :: b :: c :: d :: rest := by
  refine ⟨octets[0], octets[1], octets[2], octets[3], octets.drop 4, ?_⟩
  rw [← List.drop_eq_getElem_cons, ← List.drop_eq_getElem_cons, ← List.drop_eq_getElem_cons,
    ← List.drop_eq_getElem_cons, List.drop_zero]

theorem Grammatical.framed {octets : Bytes} {count : Nat} (h : Grammatical octets count) :
    ∃ command version records, Framed octets command version records := by
  have hl := h.length
  obtain ⟨a, b, first, second, rest, rfl⟩ := exists_header (show 4 ≤ octets.length by omega)
  have hlen : rest.length = count * Entry.size := by
    simp only [List.length_cons] at hl
    simp only [Entry.size]
    omega
  have hsize : 0 < Entry.size := by decide
  have hwhole := length_of_mem_chunks hsize count rest hlen
  have hcount := length_chunks hsize count rest hlen
  have hflat := flatten_chunks hsize rest
  obtain ⟨command, rfl⟩ := Command.exists_code (show a = 1 ∨ a = 2 by simpa using h.command)
  obtain ⟨version, rfl⟩ := Version.exists_code (show b = 1 ∨ b = 2 by simpa using h.version)
  refine ⟨command, version, chunks Entry.size rest, ⟨⟨first, second, ?_⟩, hwhole, ?_, ?_⟩⟩
  · rw [hflat]
  · intro record hm
    obtain ⟨k, hk, rfl⟩ := List.mem_iff_getElem.mp hm
    have hrecord := Bytes.field_flatten (chunks Entry.size rest) hwhole k hk
    have hfamily := h.family k (by omega)
    rw [hflat] at hrecord
    rw [field_behind_header] at hfamily
    rw [← hrecord, Bytes.field_field (by decide), Nat.add_zero]
    exact Field.exists_family hfamily
  · rw [hcount]
    exact h.fits

namespace Entry

theorem ofRecord_shows {layout : Version} {record : Bytes} (hw : record.length = size)
    (hk : ∃ f : Family, record.field 0 2 = Field.family f) :
    (ofRecord layout record).Shows record := by
  have hwhole : (ofRecord layout record).octets.length = size := length_canonical hw
  have hv2 : (ofRecord layout record).version = .v2 → (ofRecord layout record).octets = record := by
    rintro rfl
    rfl
  constructor
  case family =>
    obtain ⟨f, hf⟩ := hk
    refine ⟨f, family_ok_iff.mpr ((field_family_canonical layout hw).trans hf), ?_⟩
    rw [hf, Field.toNat_family]
  case address =>
    obtain ⟨a, ha, hp⟩ := addressAt_ok hwhole 4 (by decide)
    refine ⟨a, ha, ?_⟩
    rw [hp]
    exact congrArg Bytes.toNat (field_address_canonical layout hw)
  case metric =>
    have hm := numberAt_ok hwhole 16 4 (by decide)
    rw [metric, hm]
    exact congrArg (fun octets => Except.ok (Bytes.toNat octets))
      (field_metric_canonical layout hw)
  case routeTag =>
    intro hv
    rw [routeTag, numberAt_ok hwhole 2 2 (by decide), hv2 hv]
  case subnetMask =>
    intro hv
    obtain ⟨a, ha, hp⟩ := addressAt_ok hwhole 8 (by decide)
    exact ⟨a, ha, by rw [hp, hv2 hv]⟩
  case nextHop =>
    intro hv
    obtain ⟨a, ha, hp⟩ := addressAt_ok hwhole 12 (by decide)
    exact ⟨a, ha, by rw [hp, hv2 hv]⟩

end Entry

namespace Packet

theorem ofRecords_shows {octets : Bytes} {command : Command} {version : Version}
    {records : List Bytes} (h : Framed octets command version records) :
    (ofRecords command version records).Shows octets records.length := by
  constructor
  case command =>
    refine ⟨command, Header.command_ofCodes command version, ?_⟩
    obtain ⟨first, second, rfl⟩ := h.parts
    rfl
  case version =>
    refine ⟨version, Header.version_ofCodes command version, ?_, rfl, ?_⟩
    · obtain ⟨first, second, rfl⟩ := h.parts
      rfl
    · intro e hm
      obtain ⟨record, -, rfl⟩ := List.mem_map.mp hm
      rfl
  case count => exact List.length_map _
  case entries =>
    intro k hk
    have hkr : k < records.length := by simpa [ofRecords, carrying] using hk
    have he : (ofRecords command version records).entries[k] =
        Entry.ofRecord version records[k] := List.getElem_map _
    have hm := List.getElem_mem hkr
    rw [he, h.field_record k hkr]
    exact Entry.ofRecord_shows (h.whole _ hm) (h.known _ hm)

/-- Exactly the datagrams of the grammar can be read, and the packet shows what they hold. -/
theorem read_iff_grammatical (octets : Bytes) :
    ((∃ p, read octets = .ok p) ↔ ∃ count, Grammatical octets count) ∧
      ∀ p, read octets = .ok p → ∃ count, Grammatical octets count ∧ p.Shows octets count := by
  refine ⟨⟨?_, ?_⟩, ?_⟩
  · rintro ⟨p, parsed⟩
    obtain ⟨command, version, records, h, -⟩ := framed_of_read parsed
    exact ⟨records.length, h.grammatical⟩
  · rintro ⟨count, h⟩
    obtain ⟨command, version, records, hf⟩ := h.framed
    exact ⟨_, read_of_framed hf⟩
  · intro p parsed
    obtain ⟨command, version, records, h, rfl⟩ := framed_of_read parsed
    exact ⟨records.length, h.grammatical, ofRecords_shows h⟩

end Packet

end RipWire
