import RipWire.Proofs.Datagram.Grammar
import RipWire.Proofs.Datagram.RoundTrip

/-!
# The canonical form of a datagram

Reading a datagram and writing the packet again keeps every octet at its
position, except for the ones that the version of the datagram reserves, which
become zero. What has been written once is written the same again.
-/

namespace RipWire

/-- Positions in a record that a layout reserves. -/
def Entry.Reserved (layout : Version) (position : Nat) : Prop :=
  layout = .v1 ∧ (2 ≤ position ∧ position < 4 ∨ 8 ≤ position ∧ position < 16)

/-- Positions in a datagram that its version reserves: two in the header, and those of the layout
in every record. -/
def Packet.Reserved (version : Version) (position : Nat) : Prop :=
  2 ≤ position ∧ position < 4 ∨
    4 ≤ position ∧ Entry.Reserved version ((position - 4) % 20)

instance (layout : Version) (position : Nat) : Decidable (Entry.Reserved layout position) :=
  inferInstanceAs (Decidable (_ ∧ _))

instance (version : Version) (position : Nat) : Decidable (Packet.Reserved version position) :=
  inferInstanceAs (Decidable (_ ∨ _))

namespace Entry

theorem getElem?_canonical (layout : Version) {record : Bytes} (hw : record.length = size)
    {position : Nat} (hp : position < size) :
    (canonical layout record)[position]? =
      if Reserved layout position then some 0 else record[position]? := by
  have hsize : size = 20 := rfl
  cases layout with
  | v2 => simp [canonical, Reserved]
  | v1 =>
      have hfamily : (record.field 0 2).length = 2 := length_field_record hw (by decide)
      have haddress : (record.field 4 4).length = 4 := length_field_record hw (by decide)
      simp only [canonical, reserved, Reserved, List.getElem?_append, Bytes.getElem?_field,
        List.getElem?_replicate, List.length_append, List.length_replicate, hfamily, haddress,
        true_and]
      -- Five parts stand side by side, and the position lies in one of them.
      split_ifs <;> first
        | omega
        | rfl
        | (congr 1; omega)

end Entry

namespace Packet

theorem octets_ofRecords (command : Command) (version : Version) (records : List Bytes) :
    (ofRecords command version records).octets =
      UInt8.ofNat command.code :: UInt8.ofNat version.code :: 0 :: 0 ::
        (records.map (Entry.canonical version)).flatten := by
  have hentries : (records.map (Entry.ofRecord version)).flatMap Entry.octets =
      (records.map (Entry.canonical version)).flatten := by
    rw [List.flatMap_def, List.map_map]
    rfl
  simp only [octets, ofRecords, carrying, hentries]
  rfl

/-- Behind the header, a position lies in a record, and zeroing is done record by record. -/
theorem getElem?_flatten_canonical (version : Version) {records : List Bytes}
    (hw : ∀ record ∈ records, record.length = Entry.size) {i : Nat}
    (hi : i < records.flatten.length) :
    (records.map (Entry.canonical version)).flatten[i]? =
      if Entry.Reserved version (i % 20) then some 0 else records.flatten[i]? := by
  have hsize : 0 < Entry.size := by decide
  have hcanonical : ∀ record ∈ records.map (Entry.canonical version),
      record.length = Entry.size := by
    intro record hm
    obtain ⟨other, ho, rfl⟩ := List.mem_map.mp hm
    exact Entry.length_canonical (hw other ho)
  have hk : i / Entry.size < records.length := by
    rw [length_flatten_records records hw] at hi
    exact Nat.div_lt_of_lt_mul (by rwa [Nat.mul_comm])
  have hrecord := hw records[i / Entry.size] (List.getElem_mem hk)
  have hp : i % Entry.size < Entry.size := Nat.mod_lt i hsize
  rw [getElem?_flatten_records hsize _ hcanonical, getElem?_flatten_records hsize _ hw,
    List.getElem?_map, List.getElem?_eq_getElem hk]
  exact Entry.getElem?_canonical version hrecord hp

theorem getElem?_octets_ofRecords {octets : Bytes} {command : Command} {version : Version}
    {records : List Bytes} (h : Framed octets command version records) {k : Nat}
    (hk : k < octets.length) :
    (ofRecords command version records).octets[k]? =
      if Reserved version k then some 0 else octets[k]? := by
  obtain ⟨first, second, rfl⟩ := h.parts
  rw [octets_ofRecords]
  match k with
  | 0 | 1 | 2 | 3 => simp [Reserved]
  | i + 4 =>
      have hi : i < records.flatten.length := by simpa using hk
      have hreserved : Reserved version (i + 4) ↔ Entry.Reserved version (i % 20) := by
        rw [Reserved, Nat.add_sub_cancel]
        constructor
        · rintro (hhead | hrecord)
          · omega
          · exact hrecord.2
        · exact fun hrecord => Or.inr ⟨by omega, hrecord⟩
      simp only [List.getElem?_cons_succ, hreserved]
      exact getElem?_flatten_canonical version h.whole hi

/-- Writing the packet that was read zeroes the reserved octets of a datagram and nothing else, and
a datagram that was written so is written the same again. -/
theorem write_read_canonical {octets : Bytes} {p : Packet} (parsed : read octets = .ok p) :
    ∃ version sent, octets[1]? = some (UInt8.ofNat version.code) ∧
      write (.packet p) = .ok sent ∧ sent.length = octets.length ∧
      (∀ k < octets.length, sent[k]? = if Reserved version k then some 0 else octets[k]?) ∧
      (read sent >>= fun again => write (.packet again)) = .ok sent := by
  obtain ⟨layout, hp⟩ := read_wellFormed parsed
  obtain ⟨command, version, records, h, rfl⟩ := read_ok_iff.mp parsed
  have hwrite := write_of_wellFormed hp
  refine ⟨version, (ofRecords command version records).octets, ?_, hwrite, ?_, ?_, ?_⟩
  · obtain ⟨first, second, rfl⟩ := h.parts
    rfl
  · have hcount : (ofRecords command version records).entries.length = records.length :=
      List.length_map _
    rw [hp.length_octets, length, hcount, h.length_octets, Header.size, Entry.size]
    omega
  · exact fun k hk => getElem?_octets_ofRecords h hk
  · rw [read_octets hp]
    exact hwrite

/-- A datagram of the first version with octets in all the reserved places, of which none is sent
again. -/
theorem write_read_canonical_stray :
    let octets : Bytes := [2, 1, 9, 9, 0, 2, 7, 7, 192, 0, 2, 1, 1, 2, 3, 4, 5, 6, 7, 8, 0, 0, 0, 3]
    let sent : Bytes := [2, 1, 0, 0, 0, 2, 0, 0, 192, 0, 2, 1, 0, 0, 0, 0, 0, 0, 0, 0, 0, 0, 0, 3]
    ∃ p, read octets = .ok p ∧ ∃ version, octets[1]? = some (UInt8.ofNat version.code) ∧
      write (.packet p) = .ok sent ∧
      (∀ k < octets.length, sent[k]? = if Reserved version k then some 0 else octets[k]?) ∧
      (read sent >>= fun again => write (.packet again)) = .ok sent := by
  intro octets sent
  have parsed : read
      [2, 1, 9, 9, 0, 2, 7, 7, 192, 0, 2, 1, 1, 2, 3, 4, 5, 6, 7, 8, 0, 0, 0, 3] =
        .ok (carrying .response .v1
          [⟨.v1, [0, 2, 0, 0, 192, 0, 2, 1, 0, 0, 0, 0, 0, 0, 0, 0, 0, 0, 0, 3]⟩]) := rfl
  obtain ⟨version, other, hversion, hwrite, -, hpositions, hagain⟩ := write_read_canonical parsed
  cases hwrite
  exact ⟨_, parsed, version, hversion, rfl, hpositions, hagain⟩

end Packet

end RipWire
