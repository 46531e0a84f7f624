import RipWire.Argument.Display

/-!
# Wording of faults
-/

namespace RipWire

namespace CodecError

/-- The message without the position. -/
def wording : CodecError → Text
  | .general message _ | .tooShort message _ | .malformedEntryData message _
  | .versionMismatch message _ => message
  | .invalidCommand value _ => text "invalid command " ++ value.display
  | .invalidVersion value _ => text "invalid version " ++ value.display
  | .tooManyEntries count _ =>
    count.display ++ text " entries, a packet can only carry up to 25"
  | .invalidAddressFamily value _ =>
    text "invalid address family identifier " ++ value.display

def message (error : CodecError) : Text :=
  match error.offset with
  | none => error.wording
  | some offset => error.wording ++ text " (at byte " ++ Text.ofInt offset ++ text ")"

def spelled (error : CodecError) : Text :=
  let offset : Text := match error.offset with
    | none => "None"
    | some offset => Text.ofInt offset
  error.name ++ text "(" ++ error.wording.quoted ++ text ", offset=" ++ offset ++ text ")"

end CodecError

def Fault.message : Fault → Text
  | .codec error => error.message
  | .address fault => fault.message
  | .unknownCommand name => text "unknown command " ++ name
  | .unknownFamily name => text "unknown address family " ++ name
  | .unknownVersion value => text "unknown RIP version " ++ value.display
  | .metricRange value => text "metric value out of range: " ++ value.display
  | .routeTagRange value => text "route tag value out of range: " ++ value.display
  | .familySize got => text "AFI data too short: need 2 bytes, got " ++ Text.ofNat got
  | .entrySize got => text "a RIP entry is 20 bytes, got " ++ Text.ofNat got
  | .octetRange => "bytes must be in range(0, 256)"
  | .missingField name => text "missing field " ++ name
  | .zeroStep => "range() arg 3 must not be zero"
  | .hexDigit position =>
    text "non-hexadecimal number found in fromhex() arg at position " ++ Text.ofNat position
  | .invalid message => message
  | .notAddress kind => text "can not use " ++ kind ++ text " as an IPv4 address"
  | .notMetric kind => text "metric must be an integer, not " ++ kind
  | .notRouteTag kind => text "route tag must be an integer, not " ++ kind
  | .notHeader kind => text "header must be a Header, not " ++ kind
  | .notEntry index layout kind =>
    text "entry " ++ Text.ofNat index ++ text " must be an " ++ Entry.kind ⟨layout, []⟩ ++
      text ", not " ++ kind
  | .notPacketObject kind => text "a packet must be a JSON object, not " ++ kind
  | .notEntryObject kind => text "an entry must be a JSON object, not " ++ kind
  | .notIterable kind => text "'" ++ kind ++ text "' object is not iterable"
  | .unhashable kind => text "unhashable type: '" ++ kind ++ text "'"
  | .notSerializable kind => text "can not serialize " ++ kind
  | .otherPacket expected kind => text "expected a " ++ expected ++ text ", got " ++ kind
  | .noText kind => text "'" ++ kind ++ text "' object has no attribute 'lower'"
  | .fieldSize => []
  | .indexRange => "index out of range"
  | .abstractEntry => "unpack_entry not implemented in subclass"
  | .versionTaken => "only one class can be registered per version"
  | .versionFree version => text "no packet format registered for version " ++ version.display

end RipWire
