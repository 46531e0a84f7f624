import RipWire.Proofs.Datagram.Canonical
import RipWire.Proofs.Datagram.Refusal
import RipWire.Proofs.Datagram.Soundness

/-!
# One datagram in both versions

Two datagrams that differ in nothing but the code of their version are read side
by side. Both are refused, for the same check and with the same error, or both
give packets that agree in everything that the two layouts share.
-/

namespace RipWire

/-- An entry of the first layout, and one of the second that shows the same family, address and
metric. Their octets differ only where the first layout has its zeros. -/
structure Entry.Counterparts (one two : Entry) : Prop where
  layouts : one.version = .v1 ∧ two.version = .v2
  family : ∃ f, one.family = .ok f ∧ two.family = .ok f
  address : ∃ a, one.address = .ok a ∧ two.address = .ok a
  metric : ∃ n, one.metric = .ok n ∧ two.metric = .ok n
  whole : one.octets.length = 20 ∧ two.octets.length = 20
  octets : ∀ k < 20, one.octets[k]? = if Entry.Reserved .v1 k then some 0 else two.octets[k]?

/-- Packets of the two versions with the same command, and with entries that agree pair by pair. -/
structure Packet.Counterparts (one two : Packet) : Prop where
  formats : one.format = some (Format.ofVersion .v1) ∧ two.format = some (Format.ofVersion .v2)
  command : ∃ c, one.command = .ok c ∧ two.command = .ok c
  count : one.entries.length = two.entries.length
  entries : List.Forall₂ Entry.Counterparts one.entries two.entries
  wholeTable : ∃ whole, one.isWholeTableRequest = .ok whole ∧ two.isWholeTableRequest = .ok whole

/-! ### Refused in one version, refused in the other -/

/-- No check looks at the version again once it is known. -/
theorem Refusal.of_version {code v w : UInt8} {rest : Bytes} {error : CodecError}
    (hv : v = 1 ∨ v = 2) (hw : w = 1 ∨ w = 2) (h : Refusal (code :: v :: rest) error) :
    Refusal (code :: w :: rest) error := by
  have hknown : CodeAt (code :: v :: rest) 1 := by simpa [CodeAt] using hv
  have hversion : CodeAt (code :: w :: rest) 1 := by simpa [CodeAt] using hw
  have hfield (k : Nat) : Bytes.field (4 + 20 * k) 2 (code :: v :: rest) =
      Bytes.field (4 + 20 * k) 2 (code :: w :: rest) := by
    have hposition : 4 + 20 * k = 2 + (2 + 20 * k) := by omega
    rw [hposition]
    exact (Bytes.field_append_right [code, v] rest (2 + 20 * k) 2).trans
      (Bytes.field_append_right [code, w] rest (2 + 20 * k) 2).symm
  cases h with
  | tooShort short => exact .tooShort short
  | command long found unknown => exact .command long found unknown
  | version long command found unknown => exact (unknown hknown).elim
  | stray long command version partly => exact .stray long command hversion partly
  | overfull command version whole many => exact .overfull command hversion whole many
  | family command version whole fits member before unknown =>
      rw [hfield]
      refine .family command hversion whole fits member ?_ ?_
      · intro j hj
        rw [FamilyAt, ← hfield]
        exact before j hj
      · rw [FamilyAt, ← hfield]
        exact unknown

/-! ### Read in one version, read in the other -/

theorem Framed.of_version {code v : UInt8} {rest : Bytes} {command : Command} {version : Version}
    {records : List Bytes} (h : Framed (code :: v :: rest) command version records)
    (other : Version) :
    Framed (code :: UInt8.ofNat other.code :: rest) command other records := by
  obtain ⟨first, second, hparts⟩ := h.parts
  cases hparts
  exact ⟨⟨first, second, rfl⟩, h.whole, h.known, h.fits⟩

theorem Entry.ofRecord_counterparts {record : Bytes} (hw : record.length = size)
    (hk : ∃ f : Family, record.field 0 2 = Field.family f) :
    (ofRecord .v1 record).Counterparts (ofRecord .v2 record) := by
  have hone : (ofRecord .v1 record).WellFormed := wellFormed_ofRecord hw hk
  have htwo : (ofRecord .v2 record).WellFormed := wellFormed_ofRecord hw hk
  obtain ⟨f, a, mask, hop, hreads⟩ := hone.exists_reads
  constructor
  case layouts => exact ⟨rfl, rfl⟩
  case family =>
    refine ⟨f, hreads.family, family_ok_iff.mpr ?_⟩
    exact (field_family_canonical .v1 hw).symm.trans hreads.family_octets
  case address =>
    have hfield : (ofRecord .v1 record).octets.field 4 4 = (ofRecord .v2 record).octets.field 4 4 :=
      field_address_canonical .v1 hw
    have heq : (ofRecord .v1 record).address = (ofRecord .v2 record).address := by
      simp only [address, addressAt, hfield]
    exact ⟨a, hreads.address, heq.symm.trans hreads.address⟩
  case metric =>
    have hfield : (ofRecord .v1 record).octets.field 16 4 =
        (ofRecord .v2 record).octets.field 16 4 := field_metric_canonical .v1 hw
    have heq : (ofRecord .v1 record).metric = (ofRecord .v2 record).metric := by
      simp only [metric, numberAt, hfield]
    exact ⟨_, hreads.metric, heq.symm.trans hreads.metric⟩
  case whole => exact ⟨hone.whole, htwo.whole⟩
  case octets => exact fun k hk => getElem?_canonical .v1 hw hk

namespace Packet

/-- Whether the whole table is requested hangs on the command, and on family and metric of the
entries. -/
theorem isWholeTableRequest_congr {one two : Packet} {command : Command}
    (hone : one.command = .ok command) (htwo : two.command = .ok command)
    (hentries : List.Forall₂ (fun e other => e.family = other.family ∧ e.metric = other.metric)
      one.entries two.entries) :
    one.isWholeTableRequest = two.isWholeTableRequest := by
  unfold isWholeTableRequest
  rw [hone, htwo]
  cases command with
  | response => rfl
  | request =>
      match one.entries, two.entries, hentries with
      | [], [], .nil => rfl
      | [e], [other], .cons hfirst .nil => simp only [bind, Except.bind, hfirst.1, hfirst.2]
      | _ :: _ :: _, _ :: _ :: _, .cons _ (.cons _ _) => rfl

theorem ofRecords_counterparts {command : Command} {records : List Bytes}
    (hw : ∀ record ∈ records, record.length = Entry.size)
    (hk : ∀ record ∈ records, ∃ f : Family, record.field 0 2 = Field.family f)
    {whole : Bool} (hwhole : (ofRecords command .v1 records).isWholeTableRequest = .ok whole) :
    (ofRecords command .v1 records).Counterparts (ofRecords command .v2 records) := by
  have hcommand (version : Version) : (ofRecords command version records).command = .ok command :=
    Header.command_ofCodes command version
  have hpairs : List.Forall₂ Entry.Counterparts (ofRecords command .v1 records).entries
      (ofRecords command .v2 records).entries := by
    rw [ofRecords, ofRecords, carrying, carrying, List.forall₂_map_left_iff,
      List.forall₂_map_right_iff, List.forall₂_same]
    exact fun record hm => Entry.ofRecord_counterparts (hw record hm) (hk record hm)
  have hsame : (ofRecords command .v1 records).isWholeTableRequest =
      (ofRecords command .v2 records).isWholeTableRequest := by
    refine isWholeTableRequest_congr (hcommand .v1) (hcommand .v2) ?_
    refine hpairs.imp fun e other hpair => ?_
    obtain ⟨f, hf, hother⟩ := hpair.family
    obtain ⟨n, hn, hothern⟩ := hpair.metric
    exact ⟨hf.trans hother.symm, hn.trans hothern.symm⟩
  exact ⟨⟨rfl, rfl⟩, ⟨command, hcommand .v1, hcommand .v2⟩, hpairs.length_eq, hpairs,
    ⟨whole, hwhole, hsame.symm.trans hwhole⟩⟩

/-- A datagram is read alike under the codes of both versions: as packets that agree in what the
layouts share, or not at all and with one and the same error. -/
theorem read_in_both_versions (code : UInt8) (rest : Bytes) :
    (∃ one two, read (code :: 1 :: rest) = .ok one ∧ read (code :: 2 :: rest) = .ok two ∧
        one.Counterparts two) ∨
      ∃ error, read (code :: 1 :: rest) = .error (.codec error) ∧
        read (code :: 2 :: rest) = .error (.codec error) := by
  rcases Refusal.grammatical_or_refused (code :: 1 :: rest) with ⟨count, hgrammar⟩ | ⟨error, h⟩
  · left
    obtain ⟨command, version, records, hframed⟩ := hgrammar.framed
    have hone := read_of_framed (hframed.of_version .v1)
    have htwo := read_of_framed (hframed.of_version .v2)
    obtain ⟨layout, hwellFormed⟩ := read_wellFormed hone
    obtain ⟨whole, hwhole⟩ := hwellFormed.sound.wholeTable
    exact ⟨_, _, hone, htwo, ofRecords_counterparts hframed.whole hframed.known hwhole⟩
  · right
    exact ⟨error, h.read_eq, (h.of_version (.inl rfl) (.inr rfl)).read_eq⟩

end Packet

end RipWire
