import RipWire.Proofs.Datagram.Document
import RipWire.Proofs.Json.Plain

/-!
# The document of a packet is plain

Names are ASCII, so are written addresses, and the numbers are those of a few
octets. The document that a packet has is therefore one that is read back from
its text.
-/

namespace RipWire

open Checks

namespace Json

theorem plainItems_iff {items : List Json} : PlainItems items ↔ ∀ item ∈ items, Plain item := by
  induction items with
  | nil => simp [PlainItems]
  | cons item items ih => rw [PlainItems, ih, List.forall_mem_cons]

theorem plainMembers_iff {members : List (Text × Json)} :
    PlainMembers members ↔
      (∀ name ∈ members.map Prod.fst, name.IsAscii) ∧
        ∀ value ∈ members.map Prod.snd, Plain value := by
  induction members with
  | nil => simp [PlainMembers]
  | cons member members ih =>
      simp only [PlainMembers, ih, List.map_cons, List.forall_mem_cons]
      tauto

theorem plain_natural {n digits : Nat} (hn : n < 10 ^ digits) (hpos : 0 < digits)
    (hd : digits ≤ integerDigitsLimit) : Plain (.int n) := by
  have hlength : (Text.ofNat n).length ≤ digits := Text.length_ofNat_le hn hpos
  rw [Plain, Int.natAbs_natCast]
  exact Nat.le_trans hlength hd

end Json

open Json (Plain PlainMembers)

theorem Family.isAscii_name (f : Family) : f.name.IsAscii := by
  cases f <;> decide

theorem Command.isAscii_name (c : Command) : c.name.IsAscii := by
  cases c <;> decide

theorem Version.plain_code (v : Version) : Plain (.int v.code) := by
  have hlt : v.code < 10 ^ 1 := by cases v <;> decide
  exact Json.plain_natural hlt (by decide) (by decide)

theorem Address.isAscii_render (a : Address) : a.render.IsAscii := by
  have hoctet (octet : UInt8) : (octetText octet).IsAscii := Text.isAscii_ofNat octet.toNat
  simp only [render, Text.IsAscii, List.forall_mem_append, List.forall_mem_cons]
  exact ⟨⟨⟨hoctet _, by decide, hoctet _⟩, by decide, hoctet _⟩, by decide, hoctet _⟩

namespace Entry

theorem plain_numberAt {e : Entry} {offset width n : Nat} (hw : width = 2 ∨ width = 4)
    (h : e.numberAt offset width = .ok n) : Plain (.int n) := by
  unfold numberAt at h
  split at h
  · next hlength =>
      cases h
      have hlt : (e.octets.field offset width).toNat < 10 ^ 10 := by
        rcases hw with rfl | rfl
        · have := Bytes.toNat_lt_of_length_two hlength
          omega
        · have := Bytes.toNat_lt_of_length_four hlength
          omega
      exact Json.plain_natural hlt (by decide) (by decide)
  · cases h

theorem plain_toJson {e : Entry} {json : Json} (h : e.toJson = .ok json) : Plain json := by
  obtain ⟨family, -, h⟩ := bind_ok_iff.mp h
  have hfamily : Plain (.string family.name) := by
    rw [Plain]
    exact family.isAscii_name
  have haddress (a : Address) : Plain (.string a.render) := by
    rw [Plain]
    exact a.isAscii_render
  split at h
  · obtain ⟨address, -, h⟩ := bind_ok_iff.mp h
    obtain ⟨metric, hm, h⟩ := bind_ok_iff.mp h
    cases h
    have hmetric := plain_numberAt (.inr rfl) hm
    rw [Plain, Json.plainMembers_iff]
    simp only [List.map_cons, List.map_nil, List.forall_mem_cons]
    exact ⟨by decide, by decide, hfamily, haddress address, hmetric, by simp⟩
  · obtain ⟨tag, ht, h⟩ := bind_ok_iff.mp h
    obtain ⟨address, -, h⟩ := bind_ok_iff.mp h
    obtain ⟨mask, -, h⟩ := bind_ok_iff.mp h
    obtain ⟨hop, -, h⟩ := bind_ok_iff.mp h
    obtain ⟨metric, hm, h⟩ := bind_ok_iff.mp h
    cases h
    have htag := plain_numberAt (.inl rfl) ht
    have hmetric := plain_numberAt (.inr rfl) hm
    rw [Plain, Json.plainMembers_iff]
    simp only [List.map_cons, List.map_nil, List.forall_mem_cons]
    exact ⟨by decide, by decide, hfamily, htag, haddress address, haddress mask, haddress hop,
      hmetric, by simp⟩

end Entry

theorem Packet.plain_toJson {p : Packet} {json : Json} (h : p.toJson = .ok json) :
    Plain json ∧ ∃ members, json = .object members := by
  obtain ⟨command, -, h⟩ := bind_ok_iff.mp h
  obtain ⟨version, -, h⟩ := bind_ok_iff.mp h
  obtain ⟨entries, he, h⟩ := bind_ok_iff.mp h
  cases h
  refine ⟨?_, _, rfl⟩
  have hcommand : Plain (.string command.name) := by
    rw [Plain]
    exact command.isAscii_name
  have hentries : Plain (.array entries) := by
    rw [Plain, Json.plainItems_iff]
    intro item hm
    obtain ⟨e, -, hj⟩ := mapM_ok_mem he hm
    exact Entry.plain_toJson hj
  rw [Plain, Json.plainMembers_iff]
  simp only [List.map_cons, List.map_nil, List.forall_mem_cons]
  exact ⟨by decide, by decide, hcommand, version.plain_code, hentries, by simp⟩

end RipWire
