import RipWire.Datagram.Document
import RipWire.Proofs.Datagram.Layout
import RipWire.Proofs.Fault.Checks

/-!
# What the checking operations build

Every header, entry and packet that a caller gets without the unchecked
constructors is well formed, whatever it is built from and in whatever order:
an invariant of each operation, and by induction of everything that can be
built with them.
-/

namespace RipWire

open Checks

theorem Header.make_ok {command version : Argument} {h : Header}
    (made : Header.make command version = .ok h) :
    ∃ c v, Version.ofArgument version none = .ok v ∧ h = Header.ofCodes c v := by
  obtain ⟨c, -, made⟩ := bind_ok_iff.mp made
  obtain ⟨v, hv, made⟩ := bind_ok_iff.mp made
  cases made
  exact ⟨c, v, hv, rfl⟩

/-- Four octets: a known command, a known version and two zeros. -/
def Header.WellFormed (h : Header) : Prop :=
  ∃ command version, h = Header.ofCodes command version

namespace Field

theorem length_family (f : Family) : (family f).length = 2 := rfl

theorem length_routeTag {argument : Argument} {octets : Bytes}
    (packed : routeTag argument = .ok octets) : octets.length = 2 := by
  unfold routeTag at packed
  split at packed
  · cases packed
  · split at packed
    · cases packed
      rfl
    · cases packed

end Field

namespace Entry

theorem makeV1_wellFormed {family address metric : Argument} {e : Entry}
    (made : makeV1 family address metric = .ok e) : e.version = .v1 ∧ e.WellFormed := by
  obtain ⟨f, -, made⟩ := bind_ok_iff.mp made
  obtain ⟨a, ha, made⟩ := bind_ok_iff.mp made
  obtain ⟨m, hm, made⟩ := bind_ok_iff.mp made
  cases made
  have hfl := Field.length_family f
  have hal := Field.length_address ha
  have hml := Field.length_metric hm
  refine ⟨rfl, ?_, ⟨f, field_family_of_parts hfl⟩, canonical_of_parts hfl hal hml⟩
  simp [reserved, hfl, hal, hml, size]

theorem makeV2_wellFormed {family tag address mask hop metric : Argument} {e : Entry}
    (made : makeV2 family tag address mask hop metric = .ok e) :
    e.version = .v2 ∧ e.WellFormed := by
  obtain ⟨f, -, made⟩ := bind_ok_iff.mp made
  obtain ⟨t, ht, made⟩ := bind_ok_iff.mp made
  obtain ⟨a, ha, made⟩ := bind_ok_iff.mp made
  obtain ⟨k, hk, made⟩ := bind_ok_iff.mp made
  obtain ⟨p, hp, made⟩ := bind_ok_iff.mp made
  obtain ⟨m, hm, made⟩ := bind_ok_iff.mp made
  cases made
  have hfl := Field.length_family f
  refine ⟨rfl, ?_, ⟨f, ?_⟩, rfl⟩
  · simp [hfl, Field.length_routeTag ht, Field.length_address ha, Field.length_address hk,
      Field.length_address hp, Field.length_metric hm, size]
  · have h := Bytes.field_append_middle List.length_nil hfl (t ++ a ++ k ++ p ++ m)
    simpa only [List.nil_append, List.append_assoc] using h

theorem unpack_wellFormed {layout : Version} {record : Bytes} {offset : Int} {e : Entry}
    (unpacked : unpack layout record offset = .ok e) : e.version = layout ∧ e.WellFormed := by
  obtain ⟨hw, hk, rfl⟩ := unpack_ok_iff.mp unpacked
  exact ⟨rfl, wellFormed_ofRecord hw hk⟩

theorem ofItem_ok_iff {format : Format} {index : Nat} {item : Argument} {e : Entry} :
    ofItem format index item = .ok e ↔ item = .entry e ∧ e.version = format.layout := by
  cases item with
  | entry other =>
      unfold ofItem
      by_cases hv : other.version = format.layout
      · simp only [if_pos hv, Except.ok.injEq, Argument.entry.injEq]
        constructor
        · rintro rfl
          exact ⟨rfl, hv⟩
        · exact fun h => h.1
      · simp only [if_neg hv, Argument.entry.injEq, reduceCtorEq, false_iff, not_and]
        rintro rfl
        exact hv
  | _ => simp [ofItem]

theorem ofItems_ok_iff {format : Format} {index : Nat} {items : List Argument}
    {entries : List Entry} :
    ofItems format index items = .ok entries ↔
      items = entries.map .entry ∧ ∀ e ∈ entries, e.version = format.layout := by
  induction items generalizing index entries with
  | nil => cases entries <;> simp [ofItems]
  | cons item items ih =>
      rw [ofItems, bind_ok_iff]
      constructor
      · rintro ⟨e, he, h⟩
        obtain ⟨rest, hr, h⟩ := bind_ok_iff.mp h
        cases h
        obtain ⟨rfl, hv⟩ := ofItem_ok_iff.mp he
        obtain ⟨rfl, hrest⟩ := ih.mp hr
        exact ⟨rfl, List.forall_mem_cons.mpr ⟨hv, hrest⟩⟩
      · rintro ⟨hi, hv⟩
        cases entries with
        | nil => simp at hi
        | cons e rest =>
            rw [List.map_cons, List.cons.injEq] at hi
            obtain ⟨he, hrest⟩ := List.forall_mem_cons.mp hv
            exact ⟨e, ofItem_ok_iff.mpr ⟨hi.1, he⟩,
              bind_ok_iff.mpr ⟨rest, ih.mpr ⟨hi.2, hrest⟩, rfl⟩⟩

end Entry

namespace Packet

/-- The packet of a version with a command and entries. -/
def carrying (command : Command) (version : Version) (entries : List Entry) : Packet :=
  ⟨some (Format.ofVersion version), Header.ofCodes command version, entries⟩

/-- A header and entries of one version, no more of them than fit. -/
structure WellFormed (version : Version) (p : Packet) : Prop where
  eq_carrying : ∃ command, p = carrying command version p.entries
  fits : p.entries.length ≤ capacity
  layout : ∀ e ∈ p.entries, e.version = version
  entries : ∀ e ∈ p.entries, e.WellFormed

theorem WellFormed.command_ok {version : Version} {p : Packet} (h : p.WellFormed version) :
    ∃ command, p.command = .ok command := by
  obtain ⟨command, hp⟩ := h.eq_carrying
  exact ⟨command, by rw [hp]; exact Header.command_ofCodes command version⟩

theorem WellFormed.version_ok {version : Version} {p : Packet} (h : p.WellFormed version) :
    p.version = .ok version := by
  obtain ⟨command, hp⟩ := h.eq_carrying
  rw [hp]
  exact Header.version_ofCodes command version

theorem layout_ofVersion (version : Version) : (Format.ofVersion version).layout = version := by
  cases version <;> rfl

theorem version_ofVersion (version : Version) :
    (Format.ofVersion version).version = version.code := by
  cases version <;> rfl

theorem code_eq_iff {v w : Version} : (v.code : Int) = w.code ↔ v = w := by
  cases v <;> cases w <;> decide

theorem assemble_ok_iff {version : Version} {h : Header} {items : List Argument} {p : Packet} :
    assemble (Format.ofVersion version) h items = .ok p ↔
      ∃ entries : List Entry, items = entries.map .entry ∧ entries.length ≤ capacity ∧
        h.version = .ok version ∧ (∀ e ∈ entries, e.version = version) ∧
        p = ⟨some (Format.ofVersion version), h, entries⟩ := by
  unfold assemble
  constructor
  · intro made
    by_cases hc : capacity < items.length
    · rw [if_pos hc] at made
      cases made
    rw [if_neg hc] at made
    obtain ⟨v, hv, made⟩ := bind_ok_iff.mp made
    rw [version_ofVersion] at made
    by_cases he : (v.code : Int) = version.code
    · rw [if_neg (by simpa using he)] at made
      obtain ⟨entries, hi, made⟩ := bind_ok_iff.mp made
      cases made
      obtain ⟨rfl, hl⟩ := Entry.ofItems_ok_iff.mp hi
      rw [layout_ofVersion] at hl
      rw [List.length_map] at hc
      exact ⟨entries, rfl, by omega, by rw [hv, code_eq_iff.mp he], hl, rfl⟩
    · rw [if_pos he] at made
      cases made
  · rintro ⟨entries, rfl, hc, hv, hl, rfl⟩
    have hi : Entry.ofItems (Format.ofVersion version) 0 (entries.map .entry) = .ok entries :=
      Entry.ofItems_ok_iff.mpr ⟨rfl, by rw [layout_ofVersion]; exact hl⟩
    rw [if_neg (by rw [List.length_map]; omega), hv, bind_ok_iff]
    refine ⟨version, rfl, ?_⟩
    rw [version_ofVersion, if_neg (by simp), hi]
    rfl

theorem assemble_overfull {format : Format} {h : Header} {items : List Argument}
    (many : capacity < items.length) :
    assemble format h items = .error (.codec (.overfull items.length none)) := by
  rw [assemble, if_pos many]

theorem assemble_wellFormed {version : Version} {h : Header} {items : List Argument} {p : Packet}
    (hh : h.WellFormed) (hi : ∀ e, .entry e ∈ items → e.WellFormed)
    (made : assemble (Format.ofVersion version) h items = .ok p) : p.WellFormed version := by
  obtain ⟨entries, rfl, hc, hv, hl, rfl⟩ := assemble_ok_iff.mp made
  obtain ⟨command, v, rfl⟩ := hh
  rw [Header.version_ofCodes] at hv
  cases hv
  exact ⟨⟨command, rfl⟩, hc, hl, fun e he => hi e (List.mem_map_of_mem he)⟩

end Packet

end RipWire
