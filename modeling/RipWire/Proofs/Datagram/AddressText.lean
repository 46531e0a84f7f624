import RipWire.Proofs.Datagram.Inverse

/-!
# Addresses as text

A text is accepted as an address when it is what an entry prints for four octets, and
then it stands for these octets. So every address has one spelling: two texts that are
accepted differ in what they denote, and what is read is printed as it was written.
-/

namespace RipWire

open Checks

theorem Field.address_string_iff {t : Text} {octets : Bytes} :
    Field.address (.json (.string t)) = .ok octets ↔
      ∃ a : Address, t = a.render ∧ a.packed = octets := by
  rw [Field.address, map_ok_iff]
  simp only [Argument.address?, mapError_ok_iff, Address.read_ok_iff]

theorem Address.packed_inj {a b : Address} (h : a.packed = b.packed) : a = b := by
  have hread := ofBytes_packed a
  rw [h, ofBytes_packed b, Except.ok.injEq] at hread
  exact hread.symm

namespace Entry

/-- The document of an entry has a text for its address. -/
def ShowsAddress (e : Entry) (t : Text) : Prop :=
  ∃ members, e.toJson = .ok (.object members) ∧
    Json.find? (text "ip-address") members = some (.string t)

theorem ShowsAddress.exists_address {e : Entry} {t : Text} (h : e.ShowsAddress t) :
    ∃ a, e.address = .ok a ∧ t = a.render := by
  obtain ⟨members, hjson, hfind⟩ := h
  obtain ⟨family, -, hjson⟩ := bind_ok_iff.mp hjson
  split at hjson
  · obtain ⟨a, ha, hjson⟩ := bind_ok_iff.mp hjson
    obtain ⟨metric, -, hjson⟩ := bind_ok_iff.mp hjson
    cases hjson
    cases hfind
    exact ⟨a, ha, rfl⟩
  · obtain ⟨tag, -, hjson⟩ := bind_ok_iff.mp hjson
    obtain ⟨a, ha, hjson⟩ := bind_ok_iff.mp hjson
    obtain ⟨mask, -, hjson⟩ := bind_ok_iff.mp hjson
    obtain ⟨hop, -, hjson⟩ := bind_ok_iff.mp hjson
    obtain ⟨metric, -, hjson⟩ := bind_ok_iff.mp hjson
    cases hjson
    cases hfind
    exact ⟨a, ha, rfl⟩

theorem WellFormed.showsAddress {e : Entry} (h : e.WellFormed) {a : Address}
    (ha : e.address = .ok a) : e.ShowsAddress a.render := by
  obtain ⟨f, other, mask, hop, hreads⟩ := h.exists_reads
  have hother := hreads.address
  rw [ha, Except.ok.injEq] at hother
  subst hother
  unfold ShowsAddress toJson
  rw [hreads.family, hreads.address, hreads.metric]
  cases e.version with
  | v1 => exact ⟨_, rfl, rfl⟩
  | v2 =>
      rw [hreads.routeTag, hreads.subnetMask, hreads.nextHop]
      exact ⟨_, rfl, rfl⟩

theorem exists_checked_address (a : Address) :
    ∃ e : Entry, Argument.Checked (.entry e) ∧ e.address = .ok a := by
  have hmade : ∃ e, makeV1 (.number .family 2) (.address a) (.int 0) = .ok e :=
    exists_makeV1_iff.mpr ⟨⟨.ip, rfl⟩, ⟨a, .itself⟩, 0, rfl, by decide⟩
  obtain ⟨e, made⟩ := hmade
  obtain ⟨-, -, ⟨other, hgiven, haddress⟩, -⟩ := makeV1_ok_iff.mp made
  refine ⟨e, .makeV1 made, ?_⟩
  cases hgiven with
  | itself => exact haddress
  | number value => cases value

end Entry

/-- Texts and the addresses of entries correspond to each other. A text is accepted exactly when an
entry prints it, as four decimal numbers, and stands for the octets that the entry prints it for.
Every entry with these octets prints this text, and no other text stands for them. -/
theorem Field.address_text_canonical (t : Text) :
    (∀ octets, Field.address (.json (.string t)) = .ok octets ↔
      ∃ e : Entry, Argument.Checked (.entry e) ∧ e.octets.field 4 4 = octets ∧ e.ShowsAddress t) ∧
    ((∃ octets, Field.address (.json (.string t)) = .ok octets) ↔ t.IsDottedQuad) ∧
    ∀ octets, Field.address (.json (.string t)) = .ok octets →
      octets.length = 4 ∧
      (∀ e : Entry, e.octets.field 4 4 = octets → e.address.map Address.render = .ok t ∧
        (Argument.Checked (.entry e) → e.ShowsAddress t)) ∧
      ∀ other, Field.address (.json (.string other)) = .ok octets → other = t := by
  simp only [Field.address_string_iff]
  refine ⟨?_, ?_, ?_⟩
  · intro octets
    constructor
    · intro h
      obtain ⟨a, ht, hoctets⟩ := h
      obtain ⟨e, hchecked, ha⟩ := Entry.exists_checked_address a
      refine ⟨e, hchecked, ?_, ?_⟩
      · rw [Entry.addressAt_ok_iff.mp ha, hoctets]
      · rw [ht]
        exact hchecked.wellFormed.showsAddress ha
    · intro h
      obtain ⟨e, -, hoctets, hshows⟩ := h
      obtain ⟨a, ha, ht⟩ := hshows.exists_address
      exact ⟨a, ht, by rw [← hoctets, Entry.addressAt_ok_iff.mp ha]⟩
  · rw [Text.isDottedQuad_iff]
    constructor
    · intro h
      obtain ⟨octets, a, ht, -⟩ := h
      exact ⟨a, ht⟩
    · intro h
      obtain ⟨a, ht⟩ := h
      exact ⟨a.packed, a, ht, rfl⟩
  · intro octets h
    obtain ⟨a, ht, hoctets⟩ := h
    refine ⟨by rw [← hoctets, a.packed_length], ?_, ?_⟩
    · intro e he
      have ha : e.address = .ok a := Entry.addressAt_ok_iff.mpr (by rw [he, hoctets])
      rw [ht]
      exact ⟨by rw [ha]; rfl, fun hchecked => hchecked.wellFormed.showsAddress ha⟩
    · intro other hother
      obtain ⟨b, hb, hsame⟩ := hother
      rw [hb, ht, Address.packed_inj (hsame.trans hoctets.symm)]

theorem Field.address_text_canonical_dotted :
    Field.address (.json (.string (text "255.0.10.1"))) = .ok [255, 0, 10, 1] ∧
    ∀ other, Field.address (.json (.string other)) = .ok [255, 0, 10, 1] →
      other = text "255.0.10.1" :=
  have h : Field.address (.json (.string (text "255.0.10.1"))) = .ok [255, 0, 10, 1] := rfl
  ⟨h, ((Field.address_text_canonical _).2.2 _ h).2.2⟩

end RipWire
