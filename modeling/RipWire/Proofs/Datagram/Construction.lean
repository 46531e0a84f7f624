import RipWire.Proofs.Datagram.Framing

/-!
# Objects built with checks

`Argument.Checked` is what a caller can get hold of without the unchecked
constructors: the results of the checking operations on any arguments, on each
other's results, and the parts of a packet. Every operation gives well-formed
objects when it is given well-formed ones, so everything built is well formed.
-/

namespace RipWire

open Checks

namespace Packet

theorem ofParts_ok_iff {format : Format} {header : Argument} {items : List Argument}
    {p : Packet} :
    ofParts format header items = .ok p ↔
      ∃ h, header = .header h ∧ assemble format h items = .ok p := by
  cases header <;> simp [ofParts]

theorem make_ok_iff {format : Format} {header entries : Argument} {p : Packet} :
    make format header entries = .ok p ↔
      ∃ items, entries.items = .ok items ∧ ofParts format header items = .ok p := by
  cases header with
  | header h => exact bind_ok_iff
  | _ => simp [make, ofParts]

theorem splitItems_mem {format : Format} {header : Argument} {items : List Argument}
    {packets : List Packet} (cut : splitItems format header items = .ok packets) {p : Packet}
    (hm : p ∈ packets) :
    ∃ piece, (∀ item ∈ piece, item ∈ items) ∧ ofParts format header piece = .ok p := by
  unfold splitItems at cut
  split at cut
  · obtain ⟨packet, hp, cut⟩ := bind_ok_iff.mp cut
    cases cut
    rw [List.mem_singleton] at hm
    exact ⟨[], by simp, by rw [hm, hp]⟩
  · obtain ⟨piece, hpiece, hp⟩ := mapM_ok_mem cut hm
    refine ⟨piece, ?_, hp⟩
    intro item hitem
    rw [← flatten_chunks (show 0 < capacity by decide) items]
    exact List.mem_flatten_of_mem hpiece hitem

end Packet

namespace Document

theorem entry_wellFormed {version : Version} {item : Argument} {e : Entry}
    (described : entry version item = .ok e) : e.version = version ∧ e.WellFormed := by
  obtain ⟨members, -, described⟩ := bind_ok_iff.mp described
  obtain ⟨f, -, described⟩ := bind_ok_iff.mp described
  obtain ⟨address, -, described⟩ := bind_ok_iff.mp described
  obtain ⟨metric, -, described⟩ := bind_ok_iff.mp described
  cases version with
  | v1 => exact Entry.makeV1_wellFormed described
  | v2 => exact Entry.makeV2_wellFormed described

end Document

namespace Packet

theorem ofDocument_wellFormed {document : Argument} {p : Packet}
    (described : ofDocument document = .ok p) : ∃ version, p.WellFormed version := by
  unfold ofDocument at described
  split at described
  · obtain ⟨value, -, described⟩ := bind_ok_iff.mp described
    obtain ⟨version, -, described⟩ := bind_ok_iff.mp described
    obtain ⟨name, -, described⟩ := bind_ok_iff.mp described
    obtain ⟨command, -, described⟩ := bind_ok_iff.mp described
    obtain ⟨items, -, described⟩ := bind_ok_iff.mp described
    obtain ⟨entries, he, described⟩ := bind_ok_iff.mp described
    refine ⟨version, assemble_wellFormed ⟨command, version, rfl⟩ ?_ described⟩
    intro e hm
    obtain ⟨other, ho, heq⟩ := List.mem_map.mp hm
    cases heq
    obtain ⟨item, -, hitem⟩ := mapM_ok_mem he ho
    exact (Document.entry_wellFormed hitem).2
  · cases described

end Packet

namespace Argument

/-- What the checking operations give, and the parts of a packet that they gave. -/
inductive Checked : Argument → Prop where
  | makeHeader {command version : Argument} {h : Header}
      (made : Header.make command version = .ok h) : Checked (.header h)
  | unpackHeader {octets : Bytes} {h : Header} (unpacked : Header.unpack octets = .ok h) :
      Checked (.header h)
  | makeV1 {family address metric : Argument} {e : Entry}
      (made : Entry.makeV1 family address metric = .ok e) : Checked (.entry e)
  | makeV2 {family tag address mask hop metric : Argument} {e : Entry}
      (made : Entry.makeV2 family tag address mask hop metric = .ok e) : Checked (.entry e)
  | unpackEntry {layout : Version} {record : Bytes} {offset : Int} {e : Entry}
      (unpacked : Entry.unpack layout record offset = .ok e) : Checked (.entry e)
  | makePacket {version : Version} {header entries : Argument} {items : List Argument} {p : Packet}
      (head : Checked header) (listed : entries.items = .ok items)
      (each : ∀ item ∈ items, Checked item)
      (made : Packet.make (Format.ofVersion version) header entries = .ok p) : Checked (.packet p)
  | split {version : Version} {header entries : Argument} {items : List Argument}
      {packets : List Packet} {p : Packet}
      (head : Checked header) (listed : entries.items = .ok items)
      (each : ∀ item ∈ items, Checked item)
      (cut : Packet.split (Format.ofVersion version) header entries = .ok packets)
      (member : p ∈ packets) : Checked (.packet p)
  | read {octets : Bytes} {p : Packet} (parsed : Packet.read octets = .ok p) : Checked (.packet p)
  | ofDocument {document : Argument} {p : Packet}
      (described : Packet.ofDocument document = .ok p) : Checked (.packet p)
  | headerOf {p : Packet} (whole : Checked (.packet p)) : Checked (.header p.header)
  | entryOf {p : Packet} {e : Entry} (whole : Checked (.packet p)) (member : e ∈ p.entries) :
      Checked (.entry e)

def WellFormed : Argument → Prop
  | .header h => h.WellFormed
  | .entry e => e.WellFormed
  | .packet p => ∃ version, p.WellFormed version
  | _ => True

theorem ofParts_wellFormed {version : Version} {header : Argument} {items : List Argument}
    {p : Packet} (head : header.WellFormed) (each : ∀ item ∈ items, item.WellFormed)
    (made : Packet.ofParts (Format.ofVersion version) header items = .ok p) :
    p.WellFormed version := by
  obtain ⟨h, rfl, made⟩ := Packet.ofParts_ok_iff.mp made
  exact Packet.assemble_wellFormed head (fun e hm => each _ hm) made

/-- Whatever is built with the checking operations, in any order, is well formed. -/
theorem Checked.wellFormed {argument : Argument} (built : Checked argument) :
    argument.WellFormed := by
  induction built with
  | makeHeader made =>
      obtain ⟨command, version, -, rfl⟩ := Header.make_ok made
      exact ⟨command, version, rfl⟩
  | unpackHeader unpacked =>
      obtain ⟨command, version, -, -, -, -, rfl⟩ := Header.unpack_ok_iff.mp unpacked
      exact ⟨command, version, rfl⟩
  | makeV1 made => exact (Entry.makeV1_wellFormed made).2
  | makeV2 made => exact (Entry.makeV2_wellFormed made).2
  | unpackEntry unpacked => exact (Entry.unpack_wellFormed unpacked).2
  | makePacket head listed each made ihHead ihEach =>
      obtain ⟨items, hi, made⟩ := Packet.make_ok_iff.mp made
      rw [listed] at hi
      cases hi
      exact ⟨_, ofParts_wellFormed ihHead ihEach made⟩
  | split head listed each cut member ihHead ihEach =>
      obtain ⟨items, hi, cut⟩ := bind_ok_iff.mp cut
      rw [listed] at hi
      cases hi
      obtain ⟨piece, hpiece, made⟩ := Packet.splitItems_mem cut member
      exact ⟨_, ofParts_wellFormed ihHead (fun item hm => ihEach item (hpiece item hm)) made⟩
  | read parsed => exact Packet.read_wellFormed parsed
  | ofDocument described => exact Packet.ofDocument_wellFormed described
  | headerOf whole ih =>
      obtain ⟨version, hp⟩ := ih
      obtain ⟨command, heq⟩ := hp.eq_carrying
      exact ⟨command, version, by rw [heq]; rfl⟩
  | entryOf whole member ih =>
      obtain ⟨version, hp⟩ := ih
      exact hp.entries _ member

end Argument

end RipWire
