import RipWire.Proofs.Datagram.Document
import RipWire.Proofs.Field.Given

/-!
# Entries by their fields

An entry that is made of arguments is the well-formed one of its layout in which
every field has the value that its argument gives. Octets and fields say the same
about a well-formed entry, so there is no other.
-/

namespace RipWire

open Checks

namespace Entry

theorem addressAt_ok_iff {e : Entry} {offset : Nat} {a : Address} :
    e.addressAt offset = .ok a ↔ e.octets.field offset 4 = a.packed := by
  rw [← Address.ofBytes_ok_iff, addressAt]
  cases Address.ofBytes (e.octets.field offset 4) with
  | error fault => simp
  | ok other => simp

theorem numberAt_ok_iff {e : Entry} {offset width n : Nat} :
    e.numberAt offset width = .ok n ↔
      (e.octets.field offset width).length = width ∧ (e.octets.field offset width).toNat = n := by
  unfold numberAt
  by_cases hl : (e.octets.field offset width).length = width
  · rw [if_pos hl]
    simp [hl]
  · rw [if_neg hl]
    simp [hl]

theorem metric_lt {e : Entry} {n : Nat} (h : e.metric = .ok n) : n < 4294967296 := by
  obtain ⟨hl, rfl⟩ := numberAt_ok_iff.mp h
  exact Bytes.toNat_lt_of_length_four hl

theorem routeTag_lt {e : Entry} {n : Nat} (h : e.routeTag = .ok n) : n < 65536 := by
  obtain ⟨hl, rfl⟩ := numberAt_ok_iff.mp h
  exact Bytes.toNat_lt_of_length_two hl

/-! ### Fields with the values of arguments -/

section Given

variable {e : Entry} {argument : Argument}

theorem family_given_iff :
    (∃ f, Family.ofArgument argument = .ok f ∧ e.octets.field 0 2 = Field.family f) ↔
      ∃ f, argument.toInt? = some (Family.code f : Int) ∧ e.family = .ok f := by
  simp only [Family.ofArgument_ok_iff, family_ok_iff]

theorem address_given_iff {offset : Nat} :
    Field.address argument = .ok (e.octets.field offset 4) ↔
      ∃ a, argument.GivesAddress a ∧ e.addressAt offset = .ok a := by
  simp only [Field.address_ok_iff, addressAt_ok_iff]

theorem metric_given_iff :
    Field.metric argument = .ok (e.octets.field 16 4) ↔
      ∃ n : Nat, argument.integer? = some (n : Int) ∧ e.metric = .ok n := by
  simp only [Field.metric_ok_iff, metric, numberAt_ok_iff]
  constructor
  · rintro ⟨hl, hn⟩
    exact ⟨_, hn, hl, rfl⟩
  · rintro ⟨n, hn, hl, rfl⟩
    exact ⟨hl, hn⟩

theorem routeTag_given_iff :
    Field.routeTag argument = .ok (e.octets.field 2 2) ↔
      ∃ n : Nat, argument.integer? = some (n : Int) ∧ e.routeTag = .ok n := by
  simp only [Field.routeTag_ok_iff, routeTag, numberAt_ok_iff]
  constructor
  · rintro ⟨hl, hn⟩
    exact ⟨_, hn, hl, rfl⟩
  · rintro ⟨n, hn, hl, rfl⟩
    exact ⟨hl, hn⟩

end Given

/-! ### Entries of arguments -/

theorem makeV1_ok_iff {family address metric : Argument} {e : Entry} :
    makeV1 family address metric = .ok e ↔
      (e.version = .v1 ∧ e.WellFormed) ∧
        (∃ f, family.toInt? = some (Family.code f : Int) ∧ e.family = .ok f) ∧
        (∃ a, address.GivesAddress a ∧ e.address = .ok a) ∧
        ∃ n : Nat, metric.integer? = some (n : Int) ∧ e.metric = .ok n := by
  simp only [Entry.address, ← family_given_iff, ← address_given_iff, ← metric_given_iff]
  constructor
  · intro made
    have hwell := makeV1_wellFormed made
    obtain ⟨f, hf, made⟩ := bind_ok_iff.mp made
    obtain ⟨a, ha, made⟩ := bind_ok_iff.mp made
    obtain ⟨m, hm, made⟩ := bind_ok_iff.mp made
    cases made
    have hfl := Field.length_family f
    have hal := Field.length_address ha
    have hml := Field.length_metric hm
    refine ⟨hwell, ⟨f, hf, field_family_of_parts hfl⟩, ?_, ?_⟩
    · rw [ha, field_address_of_parts hfl hal]
    · rw [hm, field_metric_of_parts hfl hal hml]
  · rintro ⟨⟨hv, hwell⟩, ⟨f, hf, hoctets⟩, ha, hm⟩
    exact makeV1_fields hwell hv hf hoctets ha hm

theorem fields_of_parts {family tag address mask hop metric : Bytes} (hf : family.length = 2)
    (ht : tag.length = 2) (ha : address.length = 4) (hk : mask.length = 4) (hp : hop.length = 4)
    (hm : metric.length = 4) :
    let record := family ++ tag ++ address ++ mask ++ hop ++ metric
    record.field 0 2 = family ∧ record.field 2 2 = tag ∧ record.field 4 4 = address ∧
      record.field 8 4 = mask ∧ record.field 12 4 = hop ∧ record.field 16 4 = metric := by
  intro record
  have hfamily := Bytes.field_append_middle List.length_nil hf
    (tag ++ address ++ mask ++ hop ++ metric)
  have htag := Bytes.field_append_middle hf ht (address ++ mask ++ hop ++ metric)
  have haddress := Bytes.field_append_middle (show (family ++ tag).length = 4 by simp [hf, ht]) ha
    (mask ++ hop ++ metric)
  have hmask := Bytes.field_append_middle
    (show (family ++ tag ++ address).length = 8 by simp [hf, ht, ha]) hk (hop ++ metric)
  have hhop := Bytes.field_append_middle
    (show (family ++ tag ++ address ++ mask).length = 12 by simp [hf, ht, ha, hk]) hp metric
  have hmetric := Bytes.field_append_middle
    (show (family ++ tag ++ address ++ mask ++ hop).length = 16 by simp [hf, ht, ha, hk, hp]) hm []
  simp only [record, List.append_assoc, List.nil_append, List.append_nil] at *
  exact ⟨hfamily, htag, haddress, hmask, hhop, hmetric⟩

theorem makeV2_ok_iff {family tag address mask hop metric : Argument} {e : Entry} :
    makeV2 family tag address mask hop metric = .ok e ↔
      (e.version = .v2 ∧ e.WellFormed) ∧
        (∃ f, family.toInt? = some (Family.code f : Int) ∧ e.family = .ok f) ∧
        (∃ n : Nat, tag.integer? = some (n : Int) ∧ e.routeTag = .ok n) ∧
        (∃ a, address.GivesAddress a ∧ e.address = .ok a) ∧
        (∃ a, mask.GivesAddress a ∧ e.subnetMask = .ok a) ∧
        (∃ a, hop.GivesAddress a ∧ e.nextHop = .ok a) ∧
        ∃ n : Nat, metric.integer? = some (n : Int) ∧ e.metric = .ok n := by
  simp only [Entry.address, Entry.subnetMask, Entry.nextHop, ← family_given_iff,
    ← routeTag_given_iff, ← address_given_iff, ← metric_given_iff]
  constructor
  · intro made
    have hwell := makeV2_wellFormed made
    obtain ⟨f, hf, made⟩ := bind_ok_iff.mp made
    obtain ⟨t, ht, made⟩ := bind_ok_iff.mp made
    obtain ⟨a, ha, made⟩ := bind_ok_iff.mp made
    obtain ⟨k, hk, made⟩ := bind_ok_iff.mp made
    obtain ⟨p, hp, made⟩ := bind_ok_iff.mp made
    obtain ⟨m, hm, made⟩ := bind_ok_iff.mp made
    cases made
    obtain ⟨hfamily, htag, haddress, hmask, hhop, hmetric⟩ :=
      fields_of_parts (Field.length_family f) (Field.length_routeTag ht) (Field.length_address ha)
        (Field.length_address hk) (Field.length_address hp) (Field.length_metric hm)
    refine ⟨hwell, ⟨f, hf, hfamily⟩, ?_, ?_, ?_, ?_, ?_⟩
    · rw [ht, htag]
    · rw [ha, haddress]
    · rw [hk, hmask]
    · rw [hp, hhop]
    · rw [hm, hmetric]
  · rintro ⟨⟨hv, hwell⟩, ⟨f, hf, hoctets⟩, ht, ha, hk, hp, hm⟩
    exact makeV2_fields hwell hv hf hoctets ht ha hk hp hm

/-! ### Arguments that an entry is made of -/

theorem exists_makeV1_iff {family address metric : Argument} :
    (∃ e, makeV1 family address metric = .ok e) ↔
      (∃ f, family.toInt? = some (Family.code f : Int)) ∧ (∃ a, address.GivesAddress a) ∧
        ∃ n : Nat, metric.integer? = some (n : Int) ∧ n < 4294967296 := by
  constructor
  · rintro ⟨e, made⟩
    obtain ⟨-, ⟨f, hf, -⟩, ⟨a, ha, -⟩, n, hn, hread⟩ := makeV1_ok_iff.mp made
    exact ⟨⟨f, hf⟩, ⟨a, ha⟩, n, hn, metric_lt hread⟩
  · rintro ⟨⟨f, hf⟩, haddress, hmetric⟩
    obtain ⟨a, ha⟩ := Field.exists_address_iff.mpr haddress
    obtain ⟨m, hm⟩ := Field.exists_metric_iff.mpr hmetric
    rw [makeV1, Family.ofArgument_ok_iff.mpr hf, ha, hm]
    exact ⟨_, rfl⟩

theorem exists_makeV2_iff {family tag address mask hop metric : Argument} :
    (∃ e, makeV2 family tag address mask hop metric = .ok e) ↔
      (∃ f, family.toInt? = some (Family.code f : Int)) ∧
        (∃ n : Nat, tag.integer? = some (n : Int) ∧ n < 65536) ∧
        (∃ a, address.GivesAddress a) ∧ (∃ a, mask.GivesAddress a) ∧ (∃ a, hop.GivesAddress a) ∧
        ∃ n : Nat, metric.integer? = some (n : Int) ∧ n < 4294967296 := by
  constructor
  · rintro ⟨e, made⟩
    obtain ⟨-, ⟨f, hf, -⟩, ⟨t, ht, htag⟩, ⟨a, ha, -⟩, ⟨k, hk, -⟩, ⟨p, hp, -⟩, n, hn, hread⟩ :=
      makeV2_ok_iff.mp made
    exact ⟨⟨f, hf⟩, ⟨t, ht, routeTag_lt htag⟩, ⟨a, ha⟩, ⟨k, hk⟩, ⟨p, hp⟩, n, hn, metric_lt hread⟩
  · rintro ⟨⟨f, hf⟩, htag, haddress, hmask, hhop, hmetric⟩
    obtain ⟨t, ht⟩ := Field.exists_routeTag_iff.mpr htag
    obtain ⟨a, ha⟩ := Field.exists_address_iff.mpr haddress
    obtain ⟨k, hk⟩ := Field.exists_address_iff.mpr hmask
    obtain ⟨p, hp⟩ := Field.exists_address_iff.mpr hhop
    obtain ⟨m, hm⟩ := Field.exists_metric_iff.mpr hmetric
    rw [makeV2, Family.ofArgument_ok_iff.mpr hf, ht, ha, hk, hp, hm]
    exact ⟨_, rfl⟩

end Entry

end RipWire
