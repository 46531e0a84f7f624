import RipWire.Datagram.Field
import RipWire.Proofs.Octets.Records

/-!
# The layout of entries and headers

Where the fields of a record stand, what zeroing its reserved octets keeps, and
which octets a known family or code is written with. An entry is well formed
when it has the octets that are sent for it; all its fields can then be read.
-/

namespace RipWire

theorem Bytes.octet_eq_of_toNat {octet : UInt8} {n : Nat} (h : octet.toNat = n) :
    octet = UInt8.ofNat n := by
  rw [← h, UInt8.ofNat_toNat]

theorem Command.ofOctet_ok_iff {octet : UInt8} {offset : Option Int} {command : Command} :
    Command.ofOctet octet offset = .ok command ↔ octet = UInt8.ofNat command.code := by
  constructor
  · intro h
    unfold Command.ofOctet at h
    split at h
    · next c hc =>
        cases h
        have hn := Command.code_of_ofInt? hc
        exact Bytes.octet_eq_of_toNat (by omega)
    · cases h
  · rintro rfl
    cases command <;> rfl

theorem Version.ofOctet_ok_iff {octet : UInt8} {offset : Option Int} {version : Version} :
    Version.ofOctet octet offset = .ok version ↔ octet = UInt8.ofNat version.code := by
  constructor
  · intro h
    unfold Version.ofOctet at h
    split at h
    · next v hv =>
        cases h
        have hn := Version.code_of_ofInt? hv
        exact Bytes.octet_eq_of_toNat (by omega)
    · cases h
  · rintro rfl
    cases version <;> rfl

theorem Header.unpack_ok_iff {octets : Bytes} {h : Header} :
    Header.unpack octets = .ok h ↔
      ∃ (command : Command) (version : Version) (first second : UInt8) (rest : Bytes),
        octets = UInt8.ofNat command.code :: UInt8.ofNat version.code :: first :: second :: rest ∧
          h = Header.ofCodes command version := by
  constructor
  · intro hu
    unfold Header.unpack at hu
    split at hu
    · next c v first second rest =>
        cases hc : Command.ofOctet c (some 0) with
        | error fault => simp [hc, bind, Except.bind] at hu
        | ok command =>
            cases hv : Version.ofOctet v (some 1) with
            | error fault => simp [hc, hv, bind, Except.bind] at hu
            | ok version =>
                simp only [hc, hv, bind, Except.bind] at hu
                cases hu
                rw [Command.ofOctet_ok_iff] at hc
                rw [Version.ofOctet_ok_iff] at hv
                exact ⟨command, version, first, second, rest, by rw [hc, hv], rfl⟩
    · cases hu
  · rintro ⟨command, version, first, second, rest, rfl, rfl⟩
    cases command <;> cases version <;> rfl

namespace Bytes

theorem field_append_left {front rest : Bytes} {offset size : Nat}
    (h : offset + size ≤ front.length) :
    field offset size (front ++ rest) = front.field offset size := by
  unfold field
  rw [List.drop_append_of_le_length (by omega), List.take_append_of_le_length]
  rw [List.length_drop]
  omega

theorem field_append_middle {front middle : Bytes} {offset size : Nat}
    (hf : front.length = offset) (hm : middle.length = size) (rest : Bytes) :
    field offset size (front ++ middle ++ rest) = middle := by
  rw [List.append_assoc, ← Nat.add_zero offset, ← hf, field_append_right,
    field_append_left (by omega), ← hm]
  simp [field]

theorem toNat_pair (high low : UInt8) : toNat [high, low] = 256 * high.toNat + low.toNat := by
  simp [toNat]

end Bytes

theorem Family.ofInt?_toNat_iff {high low : UInt8} {f : Family} :
    Family.ofInt? (Bytes.toNat [high, low]) = some f ↔ [high, low] = Field.family f := by
  constructor
  · intro h
    have hn := Family.code_of_ofInt? h
    rw [Bytes.toNat_pair] at hn
    have hlow := low.toNat_lt
    have hhigh : high.toNat = 0 := by cases f <;> simp only [Family.code] at hn <;> omega
    have hcode : low.toNat = f.code := by omega
    rw [Bytes.octet_eq_of_toNat hhigh, Bytes.octet_eq_of_toNat hcode]
    cases f <;> rfl
  · intro h
    rw [h]
    cases f <;> rfl

theorem Family.ofOctets_ok_iff {offset : Option Int} {record : Bytes} {f : Family} :
    Family.ofOctets offset record = .ok f ↔ record.field 0 2 = Field.family f := by
  match record with
  | [] => simp [Family.ofOctets, Bytes.field, Field.family, Bytes.ofNat16]
  | [_] => simp [Family.ofOctets, Bytes.field, Field.family, Bytes.ofNat16]
  | high :: low :: rest =>
      have hf : Bytes.field 0 2 (high :: low :: rest) = [high, low] := rfl
      rw [hf, ← Family.ofInt?_toNat_iff]
      simp only [Family.ofOctets]
      cases hi : Family.ofInt? (Bytes.toNat [high, low]) with
      | none => simp
      | some g => simp

namespace Entry

section Parts

variable {family address metric : Bytes} (hf : family.length = 2) (ha : address.length = 4)
  (hm : metric.length = 4)

include hf

theorem field_family_of_parts :
    Bytes.field 0 2 (family ++ reserved 2 ++ address ++ reserved 8 ++ metric) = family := by
  have h := Bytes.field_append_middle List.length_nil hf
    (reserved 2 ++ address ++ reserved 8 ++ metric)
  simpa only [List.nil_append, List.append_assoc] using h

include ha

theorem field_address_of_parts :
    Bytes.field 4 4 (family ++ reserved 2 ++ address ++ reserved 8 ++ metric) = address := by
  have hl : (family ++ reserved 2).length = 4 := by simp [reserved, hf]
  have h := Bytes.field_append_middle hl ha (reserved 8 ++ metric)
  simpa only [List.append_assoc] using h

include hm

theorem field_metric_of_parts :
    Bytes.field 16 4 (family ++ reserved 2 ++ address ++ reserved 8 ++ metric) = metric := by
  have hl : (family ++ reserved 2 ++ address ++ reserved 8).length = 16 := by
    simp [reserved, hf, ha]
  have h := Bytes.field_append_middle hl hm []
  simpa only [List.append_nil] using h

theorem canonical_of_parts :
    canonical .v1 (family ++ reserved 2 ++ address ++ reserved 8 ++ metric) =
      family ++ reserved 2 ++ address ++ reserved 8 ++ metric := by
  unfold canonical
  rw [field_family_of_parts hf, field_address_of_parts hf ha, field_metric_of_parts hf ha hm]

end Parts

theorem length_field_record {record : Bytes} (hw : record.length = size) {offset width : Nat}
    (h : offset + width ≤ 20) : (record.field offset width).length = width :=
  Bytes.length_field (by rw [hw]; exact h)

theorem canonical_canonical (layout : Version) {record : Bytes} (hw : record.length = size) :
    canonical layout (canonical layout record) = canonical layout record := by
  cases layout with
  | v1 =>
      exact canonical_of_parts (length_field_record hw (by decide))
        (length_field_record hw (by decide)) (length_field_record hw (by decide))
  | v2 => rfl

section Canonical

variable (layout : Version) {record : Bytes} (hw : record.length = size)

include hw

theorem field_family_canonical :
    (canonical layout record).field 0 2 = record.field 0 2 := by
  cases layout with
  | v1 => exact field_family_of_parts (length_field_record hw (by decide))
  | v2 => rfl

theorem field_address_canonical :
    (canonical layout record).field 4 4 = record.field 4 4 := by
  cases layout with
  | v1 =>
      exact field_address_of_parts (length_field_record hw (by decide))
        (length_field_record hw (by decide))
  | v2 => rfl

theorem field_metric_canonical :
    (canonical layout record).field 16 4 = record.field 16 4 := by
  cases layout with
  | v1 =>
      exact field_metric_of_parts (length_field_record hw (by decide))
        (length_field_record hw (by decide)) (length_field_record hw (by decide))
  | v2 => rfl

end Canonical

/-- The octets that are sent for an entry: a whole record of a known family, with zeros where
its layout reserves octets. -/
structure WellFormed (e : Entry) : Prop where
  whole : e.octets.length = size
  known : ∃ f : Family, e.octets.field 0 2 = Field.family f
  canonical : canonical e.version e.octets = e.octets

/-- The entry that a record stands for in a layout. -/
def ofRecord (layout : Version) (record : Bytes) : Entry :=
  ⟨layout, canonical layout record⟩

theorem unpack_ok_iff {layout : Version} {record : Bytes} {offset : Int} {e : Entry} :
    unpack layout record offset = .ok e ↔
      record.length = size ∧ (∃ f : Family, record.field 0 2 = Field.family f) ∧
        e = ofRecord layout record := by
  unfold unpack
  by_cases hw : record.length = size
  · rw [if_neg (by simpa using hw)]
    cases hf : Family.ofOctets (some offset) record with
    | error fault =>
        have hn : ¬ ∃ f : Family, record.field 0 2 = Field.family f := by
          rintro ⟨f, h⟩
          rw [Family.ofOctets_ok_iff.mpr h] at hf
          cases hf
        simp [bind, Except.bind, hn]
    | ok f =>
        have hk : ∃ f : Family, record.field 0 2 = Field.family f :=
          ⟨f, Family.ofOctets_ok_iff.mp hf⟩
        simp [bind, Except.bind, hw, hk, ofRecord, eq_comm]
  · rw [if_pos hw]
    simp [hw]

theorem wellFormed_ofRecord {layout : Version} {record : Bytes} (hw : record.length = size)
    (hk : ∃ f : Family, record.field 0 2 = Field.family f) :
    (ofRecord layout record).WellFormed where
  whole := length_canonical hw
  known := by
    obtain ⟨f, hf⟩ := hk
    exact ⟨f, (field_family_canonical layout hw).trans hf⟩
  canonical := canonical_canonical layout hw

theorem WellFormed.eq_ofRecord {e : Entry} (h : e.WellFormed) :
    ofRecord e.version e.octets = e := by
  rw [ofRecord, h.canonical]

/-! ### Reading the fields back -/

theorem family_ok_iff {e : Entry} {f : Family} :
    e.family = .ok f ↔ e.octets.field 0 2 = Field.family f := by
  rw [family, Family.ofOctets_ok_iff, Bytes.field_field (by decide)]

theorem addressAt_ok {e : Entry} (hw : e.octets.length = size) (offset : Nat)
    (ho : offset + 4 ≤ 20) :
    ∃ a, e.addressAt offset = .ok a ∧ a.packed = e.octets.field offset 4 := by
  have hl := length_field_record hw ho
  unfold addressAt
  match hf : e.octets.field offset 4, hl with
  | [a, b, c, d], _ => exact ⟨⟨a, b, c, d⟩, rfl, rfl⟩

theorem numberAt_ok {e : Entry} (hw : e.octets.length = size) (offset width : Nat)
    (ho : offset + width ≤ 20) :
    e.numberAt offset width = .ok (e.octets.field offset width).toNat := by
  rw [numberAt, if_pos (length_field_record hw ho)]

/-- The values that the fields of an entry are read as, with the octets that they come from. -/
structure Reads (e : Entry) (f : Family) (a mask hop : Address) : Prop where
  family : e.family = .ok f
  family_octets : e.octets.field 0 2 = Field.family f
  routeTag : e.routeTag = .ok (e.octets.field 2 2).toNat
  address : e.address = .ok a
  address_octets : a.packed = e.octets.field 4 4
  subnetMask : e.subnetMask = .ok mask
  subnetMask_octets : mask.packed = e.octets.field 8 4
  nextHop : e.nextHop = .ok hop
  nextHop_octets : hop.packed = e.octets.field 12 4
  metric : e.metric = .ok (e.octets.field 16 4).toNat

theorem WellFormed.exists_reads {e : Entry} (h : e.WellFormed) :
    ∃ f a mask hop, e.Reads f a mask hop := by
  obtain ⟨f, hf⟩ := h.known
  obtain ⟨a, ha, hap⟩ := addressAt_ok h.whole 4 (by decide)
  obtain ⟨mask, hm, hmp⟩ := addressAt_ok h.whole 8 (by decide)
  obtain ⟨hop, hh, hhp⟩ := addressAt_ok h.whole 12 (by decide)
  exact ⟨f, a, mask, hop, family_ok_iff.mpr hf, hf, numberAt_ok h.whole 2 2 (by decide), ha, hap,
    hm, hmp, hh, hhp, numberAt_ok h.whole 16 4 (by decide)⟩

end Entry

end RipWire
