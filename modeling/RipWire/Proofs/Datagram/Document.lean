import RipWire.Proofs.Datagram.Construction
import RipWire.Proofs.Field.Given

/-!
# A packet and its document

The document of a packet shows every field in a form that is read back as the
same octets: names as the codes they stand for, numbers as they are, addresses
in their written form. A well-formed packet is therefore described by its own
document.
-/

namespace RipWire

open Checks

namespace Field

theorem address_render (a : Address) : address (.json (.string a.render)) = .ok a.packed :=
  address_ok_iff.mpr ⟨a, .written, rfl⟩

theorem metric_toNat {octets : Bytes} (h : octets.length = 4) :
    metric (.json (.int octets.toNat)) = .ok octets :=
  metric_ok_iff.mpr ⟨h, rfl⟩

theorem routeTag_toNat {octets : Bytes} (h : octets.length = 2) :
    routeTag (.json (.int octets.toNat)) = .ok octets :=
  routeTag_ok_iff.mpr ⟨h, rfl⟩

end Field

theorem Family.ofArgument_code (f : Family) :
    Family.ofArgument (.number .family f.code) = .ok f := by
  cases f <;> rfl

theorem Document.family_name (f : Family) : Document.family (.json (.string f.name)) = .ok f := by
  simp only [Document.family, Family.ofName, Family.ofName?_name]

theorem Document.command_name (c : Command) :
    Document.command (.json (.string c.name)) = .ok c := by
  cases c <;> rfl

theorem Version.known_code (v : Version) : Version.known (.json (.int v.code)) = .ok v := by
  cases v <;> rfl

namespace Entry

theorem fields_append {record : Bytes} (hw : record.length = size) :
    record.field 0 2 ++ record.field 2 2 ++ record.field 4 4 ++ record.field 8 4 ++
      record.field 12 4 ++ record.field 16 4 = record := by
  rw [Bytes.field_append_field, Bytes.field_append_field, Bytes.field_append_field,
    Bytes.field_append_field, Bytes.field_append_field]
  rw [Bytes.field, List.drop_zero]
  exact List.take_of_length_le (by rw [hw]; decide)

theorem makeV1_fields {e : Entry} (h : e.WellFormed) (hv : e.version = .v1)
    {family address metric : Argument} {f : Family}
    (hfamily : Family.ofArgument family = .ok f) (hf : e.octets.field 0 2 = Field.family f)
    (haddress : Field.address address = .ok (e.octets.field 4 4))
    (hmetric : Field.metric metric = .ok (e.octets.field 16 4)) :
    makeV1 family address metric = .ok e := by
  have hcanonical := h.canonical
  rw [hv, Entry.canonical, hf] at hcanonical
  rw [makeV1, hfamily, haddress, hmetric]
  simp only [bind, Except.bind, hcanonical, ← hv]

theorem makeV2_fields {e : Entry} (h : e.WellFormed) (hv : e.version = .v2)
    {family tag address mask hop metric : Argument} {f : Family}
    (hfamily : Family.ofArgument family = .ok f) (hf : e.octets.field 0 2 = Field.family f)
    (htag : Field.routeTag tag = .ok (e.octets.field 2 2))
    (haddress : Field.address address = .ok (e.octets.field 4 4))
    (hmask : Field.address mask = .ok (e.octets.field 8 4))
    (hhop : Field.address hop = .ok (e.octets.field 12 4))
    (hmetric : Field.metric metric = .ok (e.octets.field 16 4)) :
    makeV2 family tag address mask hop metric = .ok e := by
  have hwhole := fields_append h.whole
  rw [hf] at hwhole
  rw [makeV2, hfamily, htag, haddress, hmask, hhop, hmetric]
  simp only [bind, Except.bind, hwhole, ← hv]

end Entry

namespace Document

theorem entry_v1 (family : Family) (address metric : Json) :
    entry .v1 (.json (.object [
      (text "address-family", .string family.name), (text "ip-address", address),
      (text "metric", metric)])) =
    Entry.makeV1 (.number .family family.code) (.json address) (.json metric) := by
  calc
    _ = (Document.family (.json (.string family.name)) >>= fun f =>
          Entry.makeV1 (.number .family f.code) (.json address) (.json metric)) := rfl
    _ = _ := by
          rw [family_name]
          rfl

theorem entry_v2 (family : Family) (tag address mask hop metric : Json) :
    entry .v2 (.json (.object [
      (text "address-family", .string family.name), (text "route-tag", tag),
      (text "ip-address", address), (text "subnet-mask", mask), (text "next-hop", hop),
      (text "metric", metric)])) =
    Entry.makeV2 (.number .family family.code) (.json tag) (.json address) (.json mask)
      (.json hop) (.json metric) := by
  calc
    _ = (Document.family (.json (.string family.name)) >>= fun f =>
          Entry.makeV2 (.number .family f.code) (.json tag) (.json address) (.json mask)
            (.json hop) (.json metric)) := rfl
    _ = _ := by
          rw [family_name]
          rfl

end Document

theorem Entry.WellFormed.document {e : Entry} (h : e.WellFormed) :
    ∃ json, e.toJson = .ok json ∧ Document.entry e.version (.json json) = .ok e := by
  obtain ⟨f, a, mask, hop, hreads⟩ := h.exists_reads
  have hcode := Family.ofArgument_code f
  have haddress : Field.address (.json (.string a.render)) = .ok (e.octets.field 4 4) := by
    rw [Field.address_render, hreads.address_octets]
  have hmetric :=
    Field.metric_toNat (Entry.length_field_record h.whole (show 16 + 4 ≤ 20 by decide))
  unfold Entry.toJson
  rw [hreads.family, hreads.address, hreads.metric]
  cases hv : e.version with
  | v1 =>
      refine ⟨_, rfl, ?_⟩
      rw [Document.entry_v1]
      exact Entry.makeV1_fields h hv hcode hreads.family_octets haddress hmetric
  | v2 =>
      have htag :=
        Field.routeTag_toNat (Entry.length_field_record h.whole (show 2 + 2 ≤ 20 by decide))
      have hmask : Field.address (.json (.string mask.render)) = .ok (e.octets.field 8 4) := by
        rw [Field.address_render, hreads.subnetMask_octets]
      have hhop : Field.address (.json (.string hop.render)) = .ok (e.octets.field 12 4) := by
        rw [Field.address_render, hreads.nextHop_octets]
      rw [hreads.routeTag, hreads.subnetMask, hreads.nextHop]
      refine ⟨_, rfl, ?_⟩
      rw [Document.entry_v2]
      exact Entry.makeV2_fields h hv hcode hreads.family_octets htag haddress hmask hhop hmetric

namespace Packet

theorem mapM_document {version : Version} {entries : List Entry}
    (hlayout : ∀ e ∈ entries, e.version = version) (hentries : ∀ e ∈ entries, e.WellFormed) :
    ∃ documents, entries.mapM Entry.toJson = .ok documents ∧
      (documents.map Argument.json).mapM (Document.entry version) = .ok entries := by
  induction entries with
  | nil => exact ⟨[], rfl, rfl⟩
  | cons e entries ih =>
      obtain ⟨hv, hlayoutRest⟩ := List.forall_mem_cons.mp hlayout
      obtain ⟨he, hentriesRest⟩ := List.forall_mem_cons.mp hentries
      obtain ⟨json, hjson, hback⟩ := he.document
      obtain ⟨documents, hdocuments, hbackRest⟩ := ih hlayoutRest hentriesRest
      rw [hv] at hback
      refine ⟨json :: documents, ?_, ?_⟩
      · rw [List.mapM_cons, hjson, hdocuments]
        rfl
      · rw [List.map_cons, List.mapM_cons, hback, hbackRest]
        rfl

theorem ofDocument_members (command : Command) (version : Version) (documents : List Json) :
    ofDocument (.json (.object [
      (text "command", .string command.name), (text "version", .int version.code),
      (text "entries", .array documents)])) =
    ((documents.map Argument.json).mapM (Document.entry version) >>= fun entries =>
      assemble (Format.ofVersion version) (Header.ofCodes command version)
        (entries.map .entry)) := by
  calc
    _ = (Version.known (.json (.int version.code)) >>= fun v =>
          Document.command (.json (.string command.name)) >>= fun c =>
            (documents.map Argument.json).mapM (Document.entry v) >>= fun entries =>
              assemble (Format.ofVersion v) (Header.ofCodes c v) (entries.map .entry)) := rfl
    _ = _ := by
          rw [Version.known_code, Document.command_name]
          rfl

theorem WellFormed.document {version : Version} {p : Packet} (h : p.WellFormed version) :
    ∃ document, p.toJson = .ok document ∧ ofJson document = .ok p := by
  obtain ⟨command, hp⟩ := h.eq_carrying
  have hcommand : p.command = .ok command := by
    rw [hp]
    exact Header.command_ofCodes command version
  obtain ⟨documents, hdocuments, hback⟩ := mapM_document h.layout h.entries
  have hassemble : assemble (Format.ofVersion version) (Header.ofCodes command version)
      (p.entries.map .entry) = .ok p :=
    assemble_ok_iff.mpr
      ⟨p.entries, rfl, h.fits, Header.version_ofCodes command version, h.layout, hp⟩
  unfold toJson
  rw [hcommand, h.version_ok, hdocuments]
  refine ⟨_, rfl, ?_⟩
  rw [ofJson, ofDocument_members, hback]
  exact hassemble

/-- The document of a packet that was built with checks describes exactly that packet. -/
theorem ofJson_toJson_of_checked {p : Packet} (built : Argument.Checked (.packet p)) :
    ∃ document, p.toJson = .ok document ∧ ofJson document = .ok p := by
  obtain ⟨version, h⟩ := built.wellFormed
  exact h.document

/-- Fields at both ends of their ranges, in a packet of the second version that was received. -/
theorem ofJson_toJson_of_extreme_fields :
    let p := carrying .request .v2 [
      ⟨.v2, [0, 2, 255, 255, 10, 0, 0, 0, 255, 255, 0, 0, 192, 0, 2, 254, 255, 255, 255, 255]⟩,
      ⟨.v2, [0, 0, 0, 0, 0, 0, 0, 0, 0, 0, 0, 0, 0, 0, 0, 0, 0, 0, 0, 16]⟩]
    Argument.Checked (.packet p) ∧
      ∃ document, p.toJson = .ok document ∧ ofJson document = .ok p := by
  intro p
  have parsed : read ([1, 2, 0, 7] ++
      [0, 2, 255, 255, 10, 0, 0, 0, 255, 255, 0, 0, 192, 0, 2, 254, 255, 255, 255, 255] ++
      [0, 0, 0, 0, 0, 0, 0, 0, 0, 0, 0, 0, 0, 0, 0, 0, 0, 0, 0, 16]) = .ok p := rfl
  have hp : Argument.Checked (.packet p) := .read parsed
  exact ⟨hp, ofJson_toJson_of_checked hp⟩

end Packet

end RipWire
