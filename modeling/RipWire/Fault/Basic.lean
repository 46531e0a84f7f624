import RipWire.Argument.Basic

/-!
# Faults of the codec

What can go wrong between octets, values and packets. The errors of the codec
proper name a position in the datagram where they have one.
-/

namespace RipWire

inductive CodecError where
  | general (message : Text) (offset : Option Int)
  | tooShort (message : Text) (offset : Option Int)
  | invalidCommand (value : Argument) (offset : Option Int)
  | invalidVersion (value : Argument) (offset : Option Int)
  | malformedEntryData (message : Text) (offset : Option Int)
  | tooManyEntries (count : Argument) (offset : Option Int)
  | invalidAddressFamily (value : Argument) (offset : Option Int)
  | versionMismatch (message : Text) (offset : Option Int)

inductive Fault where
  | codec (error : CodecError)
  | address (fault : AddressFault)
  | unknownCommand (name : Text)
  | unknownFamily (name : Text)
  | unknownVersion (value : Argument)
  | metricRange (value : Argument)
  | routeTagRange (value : Argument)
  | familySize (got : Nat)
  | entrySize (got : Nat)
  | octetRange
  | missingField (name : Text)
  | zeroStep
  | hexDigit (position : Nat)
  | invalid (message : Text)
  | notAddress (kind : Text)
  | notMetric (kind : Text)
  | notRouteTag (kind : Text)
  | notHeader (kind : Text)
  | notEntry (index : Nat) (layout : Version) (kind : Text)
  | notPacketObject (kind : Text)
  | notEntryObject (kind : Text)
  | notIterable (kind : Text)
  | unhashable (kind : Text)
  | notSerializable (kind : Text)
  | otherPacket (expected kind : Text)
  | noText (kind : Text)
  | fieldSize
  | indexRange
  | abstractEntry
  | versionTaken
  | versionFree (version : Argument)

namespace CodecError

def shortHeader (got : Nat) : CodecError :=
  .tooShort (text "a RIP header needs 4 bytes, got " ++ Text.ofNat got) (some got)

/-- The octets behind the header are no whole number of entries. The position is where the
incomplete one starts. -/
def strayOctets (remainder : Nat) : CodecError :=
  .malformedEntryData
    (Text.ofNat remainder ++ text " bytes follow the header, not a multiple of 20")
    (some (Header.size + remainder - remainder % Entry.size : Nat))

def overfull (count : Nat) (offset : Option Int) : CodecError :=
  .tooManyEntries (.int count) offset

def headerMismatch (packet header : Text) : CodecError :=
  .versionMismatch
    (text "a " ++ packet ++ text " packet can not use a " ++ header ++ text " header") none

def entryMismatch (index : Nat) (entry packet : Text) : CodecError :=
  .versionMismatch
    (text "entry " ++ Text.ofNat index ++ text " is a " ++ entry ++
      text " entry, the packet is " ++ packet) none

def offset : CodecError → Option Int
  | .general _ offset | .tooShort _ offset | .invalidCommand _ offset | .invalidVersion _ offset
  | .malformedEntryData _ offset | .tooManyEntries _ offset | .invalidAddressFamily _ offset
  | .versionMismatch _ offset => offset

def name : CodecError → Text
  | .general .. => "RIPError"
  | .tooShort .. => "TooShort"
  | .invalidCommand .. => "InvalidCommand"
  | .invalidVersion .. => "InvalidVersion"
  | .malformedEntryData .. => "MalformedEntryData"
  | .tooManyEntries .. => "TooManyEntries"
  | .invalidAddressFamily .. => "InvalidAddressFamily"
  | .versionMismatch .. => "VersionMismatch"

def description : CodecError → Text
  | .general .. => "RIP codec error"
  | .tooShort .. => "not enough data for a RIP header"
  | .invalidCommand .. => "unknown RIP command"
  | .invalidVersion .. => "unknown RIP version"
  | .malformedEntryData .. => "the entries are not a sequence of 20 bytes records"
  | .tooManyEntries .. => "more than 25 entries in one packet"
  | .invalidAddressFamily .. => "unsupported address family identifier"
  | .versionMismatch .. => "the header version does not match the entries"

/-- A packet with too many entries counts as one whose entries are malformed. -/
def isMalformedEntryData : CodecError → Bool
  | .malformedEntryData .. => true
  | .tooManyEntries .. => true
  | _ => false

/-- The value that an error carries, and its name. -/
def carried? : CodecError → Option (Text × Argument)
  | .invalidCommand value _ => some (text "command", value)
  | .invalidVersion value _ => some (text "version", value)
  | .tooManyEntries count _ => some (text "count", count)
  | .invalidAddressFamily value _ => some (text "afi", value)
  | _ => none

end CodecError

/-- Whether a fault is one that a caller provokes by a wrong value or a wrong kind of value. -/
inductive FaultClass where
  | value
  | kind
  | other
deriving DecidableEq

namespace Fault

def faultClass : Fault → FaultClass
  | .notAddress _ | .notMetric _ | .notRouteTag _ | .notHeader _ | .notEntry .. => .kind
  | .notPacketObject _ | .notEntryObject _ | .notIterable _ | .unhashable _ => .kind
  | .notSerializable _ | .otherPacket .. => .kind
  | .noText _ | .fieldSize | .indexRange | .abstractEntry | .versionTaken | .versionFree _ => .other
  | _ => .value

/-- The name by which a fault is reported. -/
def name : Fault → Text
  | .codec error => error.name
  | .address _ => "AddressValueError"
  | .noText _ => "AttributeError"
  | .fieldSize => "struct.error"
  | .indexRange => "IndexError"
  | .abstractEntry => "NotImplementedError"
  | .versionTaken | .versionFree _ => "RuntimeError"
  | fault =>
    match fault.faultClass with
    | .kind => "TypeError"
    | _ => "ValueError"

end Fault

end RipWire
