import RipWire.Proofs.Datagram.FirstCheck
import RipWire.Proofs.Fault.Wording

/-!
# Why a document is refused

Every fault that a document can be refused with is one of a value or of a kind of
value, so that it is complained about and the next document is taken up. The
complaints quote what they name, but for an unknown command, family or version.
-/

namespace RipWire

open Fault (Reported reported_of_not_mem)

namespace Document

theorem reported_missingField {name : Text} (hn : 10 ∉ name) : (Fault.missingField name).Reported :=
  reported_of_not_mem nofun rfl (List.not_mem_append (by decide) hn)

theorem not_mem_around_kind {front behind : Text} (hfront : 10 ∉ front) (hbehind : 10 ∉ behind)
    (value : Json) : 10 ∉ front ++ value.kind ++ behind :=
  List.not_mem_append (List.not_mem_append hfront (Json.not_mem_kind value)) hbehind

theorem ItemCheck.Raises.reported {check : ItemCheck} {fault : Fault} (h : check.Raises fault) :
    fault.Reported := by
  cases h with
  | familyName name => exact Fault.reported_unknownFamily name
  | familyCode value code => exact Fault.reported_invalidFamily code
  | hasAddress => exact reported_missingField (by decide)
  | hasMetric => exact reported_missingField (by decide)
  | address fault => exact Fault.reported_address fault
  | addressKind value =>
      exact reported_of_not_mem nofun rfl (not_mem_around_kind (by decide) (by decide) value)
  | metric value =>
      exact reported_of_not_mem nofun rfl (List.not_mem_append (by decide) (Text.not_mem_ofInt _))
  | routeTag value =>
      exact reported_of_not_mem nofun rfl (List.not_mem_append (by decide) (Text.not_mem_ofInt _))
  | object value =>
      exact reported_of_not_mem nofun rfl (List.not_mem_append (by decide) (Json.not_mem_kind _))
  | metricKind value =>
      exact reported_of_not_mem nofun rfl (List.not_mem_append (by decide) (Json.not_mem_kind _))
  | routeTagKind value =>
      exact reported_of_not_mem nofun rfl (List.not_mem_append (by decide) (Json.not_mem_kind _))

theorem Check.Raises.reported {check : Check} {fault : Fault} (h : check.Raises fault) :
    fault.Reported := by
  cases h with
  | object value =>
      exact reported_of_not_mem nofun rfl (List.not_mem_append (by decide) (Json.not_mem_kind _))
  | hasVersion => exact reported_missingField (by decide)
  | version value => exact Fault.reported_unknownVersion value
  | versionKind value =>
      exact reported_of_not_mem nofun rfl (not_mem_around_kind (by decide) (by decide) value)
  | hasCommand => exact reported_missingField (by decide)
  | commandName name => exact Fault.reported_unknownCommand name
  | commandCode value code => exact Fault.reported_invalidCommand code
  | commandKind value =>
      exact reported_of_not_mem nofun rfl (not_mem_around_kind (by decide) (by decide) value)
  | iterable value =>
      exact reported_of_not_mem nofun rfl (not_mem_around_kind (by decide) (by decide) value)
  | item h => exact h.reported
  | fits count => exact Fault.reported_overfull count

end Document

theorem Packet.reported_ofJson {document : Json} {fault : Fault}
    (h : ofJson document = .error fault) : fault.Reported := by
  obtain ⟨check, -, hraises⟩ := exists_fails_of_ofJson h
  exact hraises.reported

end RipWire
