import RipWire.Proofs.Datagram.Construction

/-!
# Writing a packet and reading it back

A well-formed packet is always written, and the octets written are a datagram
with its command, its version and the octets of its entries as records. Reading
them gives the packet that was written.
-/

namespace RipWire

namespace Packet

theorem isOf_carrying (command : Command) (version other : Version) (entries : List Entry) :
    (carrying command version entries).isOf other = decide (version = other) := by
  cases version <;> cases other <;> rfl

theorem write_of_wellFormed {version : Version} {p : Packet} (h : p.WellFormed version) :
    write (.packet p) = .ok p.octets := by
  have hfits := h.fits
  have hv := h.version_ok
  obtain ⟨command, hc⟩ := h.command_ok
  have hof (other : Version) : p.isOf other = decide (version = other) := by
    obtain ⟨command, hp⟩ := h.eq_carrying
    rw [hp]
    exact isOf_carrying command version other _
  have hwrite : writeAs version (.packet p) = .ok p.octets := by
    simp only [writeAs]
    rw [hof, if_neg (by simp), if_neg (by omega), hc, hv]
    rfl
  simp only [write]
  cases version with
  | v1 => rw [hof, if_pos (by decide), hwrite]
  | v2 => rw [hof, if_neg (by decide), hof, if_pos (by decide), hwrite]

theorem framed_octets {version : Version} {p : Packet} (h : p.WellFormed version) :
    ∃ command, Framed p.octets command version (p.entries.map Entry.octets) ∧
      p = ofRecords command version (p.entries.map Entry.octets) := by
  obtain ⟨command, hp⟩ := h.eq_carrying
  have hmem {P : Bytes → Prop} (hall : ∀ e ∈ p.entries, P e.octets) :
      ∀ record ∈ p.entries.map Entry.octets, P record := by
    intro record hr
    obtain ⟨e, he, rfl⟩ := List.mem_map.mp hr
    exact hall e he
  refine ⟨command, ⟨⟨0, 0, ?_⟩, ?_, ?_, ?_⟩, ?_⟩
  · have hh : p.header = Header.ofCodes command version := by rw [hp]; rfl
    rw [octets, hh, List.flatMap_def]
    rfl
  · exact hmem fun e he => (h.entries e he).whole
  · exact hmem fun e he => (h.entries e he).known
  · rw [List.length_map]
    exact h.fits
  · have hback : (p.entries.map Entry.octets).map (Entry.ofRecord version) = p.entries := by
      rw [List.map_map]
      conv_rhs => rw [← List.map_id p.entries]
      refine List.map_congr_left fun e he => ?_
      rw [Function.comp_apply, ← h.layout e he, (h.entries e he).eq_ofRecord, id]
    rw [ofRecords, hback, ← hp]

theorem read_octets {version : Version} {p : Packet} (h : p.WellFormed version) :
    read p.octets = .ok p := by
  obtain ⟨command, hframed, hp⟩ := framed_octets h
  rw [read_of_framed hframed, ← hp]

theorem WellFormed.length_octets {version : Version} {p : Packet} (h : p.WellFormed version) :
    p.octets.length = p.length := by
  have hheader : p.header.octets.length = Header.size := by
    obtain ⟨command, hp⟩ := h.eq_carrying
    rw [hp]
    exact Header.length_ofCodes command version
  have hentries : (p.entries.flatMap Entry.octets).length = p.entries.length * Entry.size := by
    have hrecords : ∀ record ∈ p.entries.map Entry.octets, record.length = Entry.size := by
      intro record hm
      obtain ⟨e, he, rfl⟩ := List.mem_map.mp hm
      exact (h.entries e he).whole
    rw [List.flatMap_def, length_flatten_records _ hrecords, List.length_map]
  rw [octets, List.length_append, hheader, hentries, length]

theorem WellFormed.octets_ne_nil {version : Version} {p : Packet} (h : p.WellFormed version) :
    p.octets ≠ [] := by
  intro hnil
  have hlength := h.length_octets
  rw [hnil, length, Header.size, List.length_nil] at hlength
  omega

/-- A packet that was built with checks is written, and read back as itself. -/
theorem read_write_of_checked {p : Packet} (built : Argument.Checked (.packet p)) :
    ∃ octets, write (.packet p) = .ok octets ∧ read octets = .ok p := by
  obtain ⟨version, h⟩ := built.wellFormed
  exact ⟨p.octets, write_of_wellFormed h, read_octets h⟩

/-- A packet of a header with stray reserved octets, an entry made from values and one unpacked
from a record of the first layout that does not zero its reserved octets. -/
theorem read_write_of_mixed_sources :
    let made : Entry := ⟨.v1, [0, 2, 0, 0, 192, 0, 2, 100, 0, 0, 0, 0, 0, 0, 0, 0, 0, 0, 0, 16]⟩
    let unpacked : Entry := ⟨.v1, [0, 0, 0, 0, 255, 7, 0, 1, 0, 0, 0, 0, 0, 0, 0, 0, 4, 3, 2, 1]⟩
    let p := carrying .request .v1 [made, unpacked]
    Argument.Checked (.packet p) ∧
      ∃ octets, write (.packet p) = .ok octets ∧ read octets = .ok p := by
  intro made unpacked p
  have hmade : Argument.Checked (.entry made) :=
    .makeV1 (show Entry.makeV1 (.int 2) (.int 3221226084) (.int 16) = .ok made from rfl)
  have hunpacked : Argument.Checked (.entry unpacked) :=
    .unpackEntry (show Entry.unpack .v1
      [0, 0, 9, 9, 255, 7, 0, 1, 9, 9, 9, 9, 9, 9, 9, 9, 4, 3, 2, 1] 0 = .ok unpacked from rfl)
  have hheader : Argument.Checked (.header p.header) :=
    .unpackHeader (show Header.unpack [1, 1, 255, 255] = .ok p.header from rfl)
  have hp : Argument.Checked (.packet p) :=
    .makePacket hheader rfl (by simpa using ⟨hmade, hunpacked⟩)
      (show make (Format.ofVersion .v1) (.header p.header)
        (.sequence true [.entry made, .entry unpacked]) = .ok p from rfl)
  exact ⟨hp, read_write_of_checked hp⟩

end Packet

end RipWire
