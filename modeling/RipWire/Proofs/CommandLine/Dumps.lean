import RipWire.Proofs.CommandLine.Layouts
import RipWire.Proofs.CommandLine.Piping
import RipWire.Proofs.Octets.Pieces

/-!
# Dumps

A line of the log shows octets behind a title and their number, as upper case digits in
groups of two octets that are counted from the left. Nothing is lost in it: the groups
are a layout of the octets, and a decode run takes them for the datagram that was dumped.
-/

namespace RipWire

/-- A number in a column that it is at the right end of, unless it outgrows the column. -/
structure Text.RightAligned (width n : Nat) (t : Text) : Prop where
  blanks : ∃ count, t = List.replicate count 32 ++ Text.ofNat n
  size : t.length = max width (Text.ofNat n).length

theorem Text.rightAligned_padLeft (width n : Nat) :
    RightAligned width n (padLeft width (ofNat n)) := by
  refine ⟨⟨_, rfl⟩, ?_⟩
  rw [padLeft, List.length_append, List.length_replicate]
  omega

namespace Hex

def upperOctet (b : UInt8) : Text :=
  [upperDigit (b.toNat / 16), upperDigit (b.toNat % 16)]

/-- Octets in groups of two from the left. When their number is odd the last one is alone. -/
structure PairedFromLeft (octets : Bytes) (groups : List Bytes) : Prop where
  whole : groups.flatten = octets
  full : ∀ group ∈ groups.dropLast, group.length = 2
  last : ∀ group ∈ groups.getLast?, group.length = if octets.length % 2 = 0 then 2 else 1

/-- The digits of groups, with a space between two groups. -/
def shownInGroups (groups : List Bytes) : Text :=
  Text.join [32] (groups.map fun group => group.flatMap upperOctet)

theorem upper_encode (octets : Bytes) : Text.upper (encode octets) = octets.flatMap upperOctet := by
  rw [encode, Text.upper, List.map_flatMap]
  congr 1
  funext b
  have hlt := b.toNat_lt
  rw [octet, upperOctet, List.map_cons, List.map_cons, List.map_nil,
    upperOne_hexDigit _ (by omega), upperOne_hexDigit _ (by omega)]

theorem upper_groups (octets : Bytes) :
    Text.upper (groups 2 octets) = shownInGroups (chunks 2 octets) := by
  rw [groups, Text.upper_join, List.map_map, shownInGroups]
  congr 2
  funext group
  exact upper_encode group

theorem pairedFromLeft_iff {octets : Bytes} {groups : List Bytes} :
    PairedFromLeft octets groups ↔ groups = chunks 2 octets := by
  constructor
  · intro h
    refine (eq_chunks_iff (by decide)).mpr ⟨h.whole, h.full, ?_⟩
    intro group hm
    rw [h.last group hm]
    split <;> decide
  · intro h
    obtain ⟨hwhole, hfull, hpiece⟩ := (eq_chunks_iff (by decide)).mp h
    refine ⟨hwhole, hfull, ?_⟩
    intro group hm
    rw [h] at hm
    have hne : octets ≠ [] := by
      intro hnil
      rw [hnil, chunks_nil] at hm
      cases hm
    have hpos := List.length_pos_iff.mpr hne
    rw [length_last_piece (by decide) octets group hm]
    split <;> omega

theorem layout_shownInGroups (groups : List Bytes) :
    Payload.Layout groups.flatten (shownInGroups groups) := by
  have hspace : ∀ c ∈ ([32] : Text), Payload.isSeparator c = true := by decide
  have hlayout := Payload.layout_join hspace groups
  simp only [upper_encode] at hlayout
  exact hlayout

theorem oneLine_shownInGroups (groups : List Bytes) : (shownInGroups groups).OneLine := by
  refine Text.oneLine_join (by decide) ?_
  intro piece hm
  obtain ⟨group, -, hgroup⟩ := List.mem_map.mp hm
  rw [← hgroup, ← upper_encode]
  exact oneLine_of_spells (spells_upper_encode group)

end Hex

namespace CommandLine.Invocation

/-- A decode run that has a text as its operand, or alone on the line of its input. -/
def DecodesPasted (i : Invocation) (switches : List Switch) (pasted : Text) : Prop :=
  parse i.arguments = .request ⟨.decode, switches, some pasted⟩ ∨
    (parse i.arguments = .request ⟨.decode, switches, none⟩ ∧ i.input = some (pasted ++ [10]))

theorem DecodesPasted.run_of_accepts {i : Invocation} {switches : List Switch} {pasted : Text}
    (h : i.DecodesPasted switches pasted) (hone : 10 ∉ pasted) (hready : i.Ready switches)
    (ht : i.TakesAscii) {octets : Bytes} {p : Packet} (hd : Payload.Denotes pasted octets)
    (hread : Packet.read octets = .ok p) :
    ∃ document, p.toJson = .ok document ∧
      i.run.outlets.printed =
        document.write (if .indent ∈ switches then Json.indented else Json.oneLine) ++ [10] ∧
      i.run.status = .ok 0 := by
  obtain ⟨version, hwell⟩ := Packet.read_wellFormed hread
  obtain ⟨document, hdocument, -⟩ := hwell.document
  have hrun : ∃ payload, Decode.Accepts payload p ∧
      i.run = i.configured switches (decoding switches [payload]) := by
    cases h with
    | inl hoperand =>
        refine ⟨pasted, ⟨octets, hd, hread⟩, ?_⟩
        simp only [run, hoperand, runRequest, runDecode]
        rfl
    | inr hline =>
        have hpayloads : Decode.payloads (pasted ++ [10]) = [pasted.trim] :=
          Decode.payloads_line hone (Decode.trim_ne_nil_of_denotes hd) (by
            intro c hc
            exact (Option.some_inj.mp hc).symm)
        refine ⟨pasted.trim, ⟨octets, Decode.denotes_trim hd, hread⟩, ?_⟩
        simp only [run, hline.1, runRequest, runDecode, hline.2, hpayloads]
        rfl
  obtain ⟨payload, haccepts, hrun⟩ := hrun
  obtain ⟨hprinted, hstatus⟩ := decoding_of_accepts (hready.quiet _) ht
    (.cons haccepts .nil) (.cons ⟨⟨version, hwell⟩, hdocument⟩ .nil)
  rw [← hrun] at hprinted hstatus
  refine ⟨document, hdocument, ?_, hstatus⟩
  rw [hprinted]
  simp [Decode.shownAs, text]

end CommandLine.Invocation

/-- The line that dumps octets has the title, their number in parentheses and in a column of four,
and the octets in pairs. The part with the octets, if there are any, passes for hexadecimal and
gives them back, so that a decode run into which it is pasted prints the document of the packet
that was dumped. -/
theorem Log.Message.dump_lossless (title : Text) (octets : Bytes) :
    ∃ size groups,
      (dump title octets).spell =
          .ok (title ++ text " (" ++ size ++ text ") " ++ Hex.shownInGroups groups) ∧
        Text.RightAligned 4 octets.length size ∧ Hex.PairedFromLeft octets groups ∧
        (octets ≠ [] →
          (Payload.isHex (Payload.normalise (Hex.shownInGroups groups)) = true ∧
            Hex.decode (Payload.normalise (Hex.shownInGroups groups)) = .ok octets) ∧
          ∀ (i : CommandLine.Invocation) (switches : List CommandLine.Switch) (p : Packet),
            i.DecodesPasted switches (Hex.shownInGroups groups) → i.Ready switches →
            i.TakesAscii → Packet.read octets = .ok p →
            ∃ document, p.toJson = .ok document ∧
              i.run.outlets.printed = document.write
                (if .indent ∈ switches then Json.indented else Json.oneLine) ++ [10] ∧
              i.run.status = .ok 0) := by
  have hpaired : Hex.PairedFromLeft octets (chunks 2 octets) := Hex.pairedFromLeft_iff.mpr rfl
  refine ⟨Text.padLeft 4 (Text.ofNat octets.length), chunks 2 octets, ?_,
    Text.rightAligned_padLeft _ _, hpaired, ?_⟩
  · rw [spell, dumped, Hex.upper_groups]
  · intro hne
    have hlayout := Hex.layout_shownInGroups (chunks 2 octets)
    rw [hpaired.whole] at hlayout
    have hdenotes := Payload.denotes_iff_layout.mpr ⟨hne, hlayout⟩
    refine ⟨⟨Payload.isHex_of_spells hne hdenotes.2, Hex.decodeFrom_ok_iff.mpr hdenotes.2⟩, ?_⟩
    intro i switches p hpasted hready ht hread
    exact hpasted.run_of_accepts (Hex.oneLine_shownInGroups _).1 hready ht hdenotes hread

/-- A header that was received, pasted on a line. -/
theorem Log.Message.dump_lossless_received :
    let octets : Bytes := [2, 2, 0, 0]
    let i := CommandLine.Invocation.unconfigured (text "0202 0000\n")
    (dump (text "received RIP") octets).spell = .ok (text "received RIP (   4) 0202 0000") ∧
      i.DecodesPasted [] (text "0202 0000") ∧ i.Ready [] ∧
      ∃ p document, Packet.read octets = .ok p ∧ p.toJson = .ok document ∧
        i.run.outlets.printed = document.write Json.oneLine ++ [10] ∧ i.run.status = .ok 0 := by
  intro octets i
  have hready : i.Ready [] := CommandLine.Invocation.ready_unconfigured _
  have hpasted : i.DecodesPasted [] (text "0202 0000") := .inr ⟨rfl, rfl⟩
  have hspell : (dump (text "received RIP") [2, 2, 0, 0]).spell =
      .ok (text "received RIP (   4) 0202 0000") := rfl
  obtain ⟨p, hread⟩ : ∃ p, Packet.read [2, 2, 0, 0] = .ok p := ⟨_, rfl⟩
  obtain ⟨size, groups, -, -, hpaired, hback⟩ := dump_lossless (text "received RIP") octets
  have hshown : Hex.shownInGroups groups = text "0202 0000" := by
    rw [Hex.pairedFromLeft_iff.mp hpaired]
    decide
  rw [hshown] at hback
  obtain ⟨-, hrun⟩ := hback (by decide)
  obtain ⟨document, hjson, hprinted, hstatus⟩ :=
    hrun i [] p hpasted hready (CommandLine.Invocation.takesAscii_of_utf8 rfl) hread
  exact ⟨hspell, hpasted, hready, p, document, hread, hjson, hprinted, hstatus⟩

example : (Log.Message.dump (text "sending RIP") [2, 2, 0, 0, 171]).spell =
    .ok (text "sending RIP (   5) 0202 0000 AB") := rfl

end RipWire
