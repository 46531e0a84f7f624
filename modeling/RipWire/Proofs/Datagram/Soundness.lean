import RipWire.Datagram.Packet
import RipWire.Proofs.Datagram.Document
import RipWire.Proofs.Datagram.Grammar
import RipWire.Proofs.Datagram.RoundTrip

/-!
# Sound objects

What can be counted on when an object is at hand: which octets it has, that
everything it can be asked for has an answer, and for a packet that it is
written, in as many octets as it says. Well-formed objects are sound.
-/

namespace RipWire

open Checks

/-- Four octets: a known command, a known version and two zeros. The command and the version can be
read, and so can the texts of the header. -/
structure Header.Sound (h : Header) : Prop where
  octets : ∃ command version : UInt8, h.octets = [command, version, 0, 0] ∧
    (command = 1 ∨ command = 2) ∧ (version = 1 ∨ version = 2)
  command : ∃ command, h.command = .ok command ∧ h.octets[0]? = some (UInt8.ofNat command.code)
  version : ∃ version, h.version = .ok version ∧ h.octets[1]? = some (UInt8.ofNat version.code)
  display : ∃ t, h.display = .ok t
  spelled : ∃ t, h.spelled = .ok t

/-- Twenty octets of a known family, with zeros where the first layout reserves octets. All the
fields of the layout can be read, and so can the texts and the document of the entry. -/
structure Entry.Sound (e : Entry) : Prop where
  length : e.octets.length = 20
  family_octets : e.octets.field 0 2 = [0, 0] ∨ e.octets.field 0 2 = [0, 2]
  zeros : e.version = .v1 →
    e.octets.field 2 2 = List.replicate 2 0 ∧ e.octets.field 8 8 = List.replicate 8 0
  family : ∃ f, e.family = .ok f
  address : ∃ a, e.address = .ok a
  metric : ∃ n, e.metric = .ok n
  second : e.version = .v2 →
    (∃ n, e.routeTag = .ok n) ∧ (∃ a, e.subnetMask = .ok a) ∧ ∃ a, e.nextHop = .ok a
  display : ∃ t, e.display = .ok t
  spelled : ∃ t, e.spelled = .ok t
  document : ∃ json, e.toJson = .ok json

/-- At most twenty-five entries of one version under a header of that version, all of them sound.
Everything about the packet can be read, and it is written in as many octets as its length says. -/
structure Packet.Sound (p : Packet) : Prop where
  header : p.header.Sound
  entries : ∀ e ∈ p.entries, e.Sound
  fits : p.entries.length ≤ 25
  version : ∃ version, p.version = .ok version ∧ p.format = some (Format.ofVersion version) ∧
    ∀ e ∈ p.entries, e.version = version
  command : ∃ command, p.command = .ok command
  wholeTable : ∃ whole, p.isWholeTableRequest = .ok whole
  display : ∃ t, p.display = .ok t
  spelled : ∃ t, p.spelled = .ok t
  document : ∃ json, p.toJson = .ok json
  written : ∃ octets, Packet.write (.packet p) = .ok octets ∧ octets.length = p.length
  length : p.length = 4 + 20 * p.entries.length ∧ p.length ≤ 504

theorem Header.WellFormed.sound {h : Header} (hh : h.WellFormed) : h.Sound := by
  obtain ⟨command, version, rfl⟩ := hh
  have hcommand := command_ofCodes command version
  have hversion := version_ofCodes command version
  constructor
  case octets =>
    exact ⟨UInt8.ofNat command.code, UInt8.ofNat version.code, rfl,
      by cases command <;> decide, by cases version <;> decide⟩
  case command => exact ⟨command, hcommand, rfl⟩
  case version => exact ⟨version, hversion, rfl⟩
  case display =>
    rw [Header.display, hcommand, hversion]
    exact ⟨_, rfl⟩
  case spelled =>
    rw [Header.spelled, hcommand, hversion]
    exact ⟨_, rfl⟩

namespace Entry

theorem zeros_canonical {record : Bytes} (hw : record.length = size) :
    (canonical .v1 record).field 2 2 = List.replicate 2 0 ∧
      (canonical .v1 record).field 8 8 = List.replicate 8 0 := by
  have hfamily : (record.field 0 2).length = 2 := length_field_record hw (by decide)
  have haddress : (record.field 4 4).length = 4 := length_field_record hw (by decide)
  unfold canonical
  constructor
  · have h := Bytes.field_append_middle hfamily (List.length_replicate (n := 2) (a := (0 : UInt8)))
      (record.field 4 4 ++ reserved 8 ++ record.field 16 4)
    simpa only [reserved, List.append_assoc] using h
  · have hfront : (record.field 0 2 ++ reserved 2 ++ record.field 4 4).length = 8 := by
      simp [reserved, hfamily, haddress]
    exact Bytes.field_append_middle hfront List.length_replicate (record.field 16 4)

theorem WellFormed.sound {e : Entry} (h : e.WellFormed) : e.Sound := by
  obtain ⟨f, a, mask, hop, hreads⟩ := h.exists_reads
  constructor
  case length => exact h.whole
  case family_octets =>
    rw [hreads.family_octets]
    exact Field.family_octets f
  case zeros =>
    intro hv
    rw [← h.canonical, hv]
    exact zeros_canonical h.whole
  case family => exact ⟨f, hreads.family⟩
  case address => exact ⟨a, hreads.address⟩
  case metric => exact ⟨_, hreads.metric⟩
  case second =>
    exact fun _ => ⟨⟨_, hreads.routeTag⟩, ⟨mask, hreads.subnetMask⟩, ⟨hop, hreads.nextHop⟩⟩
  case display =>
    unfold Entry.display
    rw [hreads.family, hreads.address, hreads.metric]
    cases e.version with
    | v1 => exact ⟨_, rfl⟩
    | v2 =>
        rw [hreads.subnetMask, hreads.nextHop, hreads.routeTag]
        exact ⟨_, rfl⟩
  case spelled =>
    unfold Entry.spelled
    rw [hreads.family, hreads.address, hreads.metric]
    cases e.version with
    | v1 => exact ⟨_, rfl⟩
    | v2 =>
        rw [hreads.subnetMask, hreads.nextHop, hreads.routeTag]
        exact ⟨_, rfl⟩
  case document =>
    obtain ⟨json, hjson, -⟩ := h.document
    exact ⟨json, hjson⟩

end Entry

theorem Packet.isWholeTableRequest_ok {p : Packet} {command : Command}
    (hcommand : p.command = .ok command) (hentries : ∀ e ∈ p.entries, e.Sound) :
    ∃ whole, p.isWholeTableRequest = .ok whole := by
  unfold isWholeTableRequest
  rw [hcommand]
  cases command with
  | response => exact ⟨_, rfl⟩
  | request =>
      match he : p.entries with
      | [] => exact ⟨_, rfl⟩
      | [e] =>
          have hsound := hentries e (by simp [he])
          obtain ⟨f, hf⟩ := hsound.family
          obtain ⟨n, hn⟩ := hsound.metric
          simp only [bind, Except.bind, hf, hn]
          split <;> exact ⟨_, rfl⟩
      | _ :: _ :: _ => exact ⟨_, rfl⟩

theorem Packet.WellFormed.sound {version : Version} {p : Packet} (h : p.WellFormed version) :
    p.Sound := by
  obtain ⟨command, hp⟩ := h.eq_carrying
  have hheader : p.header.Sound := by
    rw [hp]
    exact Header.WellFormed.sound ⟨command, version, rfl⟩
  have hentries : ∀ e ∈ p.entries, e.Sound := fun e hm => (h.entries e hm).sound
  obtain ⟨c, hcommand⟩ := h.command_ok
  have hfits : p.entries.length ≤ 25 := h.fits
  constructor
  case header => exact hheader
  case entries => exact hentries
  case fits => exact hfits
  case version => exact ⟨version, h.version_ok, by rw [hp]; rfl, h.layout⟩
  case command => exact ⟨c, hcommand⟩
  case wholeTable => exact Packet.isWholeTableRequest_ok hcommand hentries
  case display =>
    obtain ⟨t, ht⟩ := hheader.display
    obtain ⟨texts, htexts⟩ := mapM_ok_of_forall fun e hm => (hentries e hm).display
    rw [Packet.display, ht, htexts]
    cases texts <;> exact ⟨_, rfl⟩
  case spelled =>
    obtain ⟨t, ht⟩ := hheader.spelled
    obtain ⟨texts, htexts⟩ := mapM_ok_of_forall fun e hm => (hentries e hm).spelled
    rw [Packet.spelled, ht, htexts]
    exact ⟨_, rfl⟩
  case document =>
    obtain ⟨json, hjson, -⟩ := h.document
    exact ⟨json, hjson⟩
  case written => exact ⟨p.octets, Packet.write_of_wellFormed h, h.length_octets⟩
  case length =>
    rw [Packet.length, Header.size, Entry.size]
    omega

end RipWire
