import RipWire.Proofs.CommandLine.Isolation
import RipWire.Proofs.Octets.Layouts
import RipWire.Proofs.Text.Lines

/-!
# Payloads in any layout

What a decode run makes of a payload depends on the octets that it denotes, and not on
how their digits are laid out. A payload on the command line, or on a line of standard
input among others, can be replaced by the plain hexadecimal of its octets, and the
run stays the same in all that it writes and in how it ends.
-/

namespace RipWire.CommandLine

open Payload (Denotes Layout)

namespace Decode

theorem decodePayload_congr (options : DecodeOptions) {payload other : Text} {octets : Bytes}
    (h : Denotes payload octets) (ho : Denotes other octets) :
    decodePayload options payload = decodePayload options other := by
  rw [decodePayload_of_denotes options h, decodePayload_of_denotes options ho]

theorem decode_around (options : DecodeOptions) (front back : List Text) {payload other : Text}
    {octets : Bytes} (h : Denotes payload octets) (ho : Denotes other octets) :
    decode options (front ++ payload :: back) = decode options (front ++ other :: back) := by
  have hall : decodeAll options (front ++ payload :: back) =
      decodeAll options (front ++ other :: back) := by
    induction front with
    | nil =>
        rw [List.nil_append, List.nil_append, decodeAll, decodeAll,
          decodePayload_congr options h ho]
    | cons first front ih => rw [List.cons_append, List.cons_append, decodeAll, decodeAll, ih]
  rw [decode, decode, hall]

theorem payloads_append {before : Text} (hbefore : before.EndsLine) (rest : Text) :
    payloads (before ++ rest) = payloads before ++ payloads rest := by
  rw [payloads, Text.fileLines_append_of_endsLine hbefore, List.map_append, List.filter_append]
  rfl

theorem payloads_line {line behind : Text} (hone : 10 ∉ line) (hsolid : line.trim ≠ [])
    (hbehind : behind.StartsBreak) :
    payloads (line ++ behind) = line.trim :: payloads behind := by
  have hline : line ≠ [] := by
    intro hnil
    rw [hnil] at hsolid
    exact hsolid rfl
  cases behind with
  | nil =>
      rw [payloads, payloads, List.append_nil, Text.fileLines_of_not_mem hone hline]
      simp [Text.fileLines, hsolid]
  | cons c more =>
      have hfirst : c = 10 := hbehind c rfl
      have hcut : Text.cutAt 10 line = [line] := by
        rw [Text.cutAt_eq_splitOn, List.splitOn_eq_singleton hone]
      have hfeed : Text.trim (line ++ [10]) = line.trim := Text.trimBy_concat rfl line
      have hblank : Text.trim [10] = [] := rfl
      rw [payloads, payloads, hfirst, Text.fileLines_append, hcut, Text.fileLines, if_pos rfl]
      simp [hfeed, hblank, hsolid]

theorem payloads_around {before line behind : Text} (hbefore : before.EndsLine)
    (hone : 10 ∉ line) (hsolid : line.trim ≠ []) (hbehind : behind.StartsBreak) :
    payloads (before ++ line ++ behind) =
      payloads before ++ line.trim :: payloads behind := by
  rw [List.append_assoc, payloads_append hbefore, payloads_line hone hsolid hbehind]

theorem trim_ne_nil_of_denotes {payload : Text} {octets : Bytes} (h : Denotes payload octets) :
    payload.trim ≠ [] := by
  intro hnil
  have hspells := h.2
  rw [← Payload.normalise_trim, hnil] at hspells
  exact h.1 (Hex.spells_nil_iff.mp hspells)

theorem denotes_trim {payload : Text} {octets : Bytes} (h : Denotes payload octets) :
    Denotes payload.trim octets :=
  ⟨h.1, by rw [Payload.normalise_trim]; exact h.2⟩

end Decode

namespace Invocation

theorem configured_with (i : Invocation) (arguments : List Text) (input : Option Text)
    (switches : List Switch) (course : Settings → Course) :
    { i with arguments, input }.configured switches course = i.configured switches course :=
  rfl

/-- The layout of a payload does not matter. It passes for hexadecimal and gives the octets that it
is a layout of. As the operand of a decode run, or alone on a line of its input, which a line feed
ends and nothing else, it does exactly what their plain hexadecimal does there. -/
theorem run_of_layout {payload : Text} {octets : Bytes} (hne : octets ≠ [])
    (h : Layout octets payload) (i : Invocation) (switches : List Switch) :
    (Payload.isHex (Payload.normalise payload) = true ∧
        Hex.decode (Payload.normalise payload) = .ok octets) ∧
      (∀ plain, parse i.arguments = .request ⟨.decode, switches, some payload⟩ →
        parse plain = .request ⟨.decode, switches, some (Hex.encode octets)⟩ →
        i.run = { i with arguments := plain }.run) ∧
      (∀ before behind : Text, parse i.arguments = .request ⟨.decode, switches, none⟩ →
        10 ∉ payload → before.EndsLine → behind.StartsBreak →
        { i with input := some (before ++ payload ++ behind) }.run =
          { i with input := some (before ++ Hex.encode octets ++ behind) }.run) := by
  have hdenotes : Denotes payload octets := Payload.denotes_iff_layout.mpr ⟨hne, h⟩
  have hplain : Denotes (Hex.encode octets) octets :=
    Payload.denotes_iff_layout.mpr ⟨hne, Payload.layout_encode octets⟩
  refine ⟨⟨Payload.isHex_of_spells hne hdenotes.2, Hex.decodeFrom_ok_iff.mpr hdenotes.2⟩, ?_, ?_⟩
  · intro plain hpayload hother
    simp only [run, hpayload, hother, runRequest, runDecode, configured_with]
    congr 1
    funext settings
    exact Decode.decode_around _ [] [] hdenotes hplain
  · intro before behind hparse hone hbefore hbehind
    have honeplain : 10 ∉ Hex.encode octets := (Hex.oneLine_of_spells (Hex.spells_encode octets)).1
    simp only [run, hparse, runRequest, runDecode, configured_with]
    rw [Decode.payloads_around hbefore hone (Decode.trim_ne_nil_of_denotes hdenotes) hbehind,
      Decode.payloads_around hbefore honeplain (Decode.trim_ne_nil_of_denotes hplain) hbehind]
    congr 1
    funext settings
    exact Decode.decode_around _ _ _ (Decode.denotes_trim hdenotes) (Decode.denotes_trim hplain)

/-- Two octets behind a mark that is torn apart itself, as an operand and on the second of three
lines, with a carriage return at either end of it. -/
theorem run_of_layout_torn_apart :
    let payload : Text := text "\r\t0 X:0\u30002a:\u00a0 B\u2028\r"
    let octets : Bytes := [2, 171]
    let i := unconfigured []
    Layout octets payload ∧
      { i with arguments := [text "decode", text "-i", payload] }.run =
        { i with arguments := [text "decode", text "-i", text "02ab"] }.run ∧
      { i with input := some (text "02010000\r\n" ++ payload ++ text "\nrip") }.run =
        { i with input := some (text "02010000\r\n" ++ text "02ab" ++ text "\nrip") }.run := by
  intro payload octets i
  have hkept : payload.filter (!Payload.isSeparator ·) = text "0X" ++ text "02aB" := by decide
  have hspread := Payload.spread_filter payload
  rw [hkept] at hspread
  have hlayout : Layout octets payload :=
    .intro (text "0X") (by decide)
      (.cons (.inl rfl) (.cons (.inl rfl) (.cons (.inl rfl) (.cons (.inr rfl) .nil)))) hspread
  obtain ⟨-, hoperand, -⟩ := run_of_layout (by decide) hlayout
    { i with arguments := [text "decode", text "-i", payload] } [.indent]
  obtain ⟨-, -, hline⟩ := run_of_layout (by decide) hlayout i []
  refine ⟨hlayout, hoperand _ rfl rfl, hline _ _ rfl (by decide) ?_ ?_⟩
  · intro c hc
    exact (Option.some_inj.mp hc).symm
  · intro c hc
    exact (Option.some_inj.mp hc).symm

end Invocation

end RipWire.CommandLine
