import RipWire.Field.Address
import RipWire.Field.Code

/-!
# Headers, entries and packets

Headers and entries are kept as the octets that are sent. The types admit any
octets; which ones are right is checked where they are built.
-/

namespace RipWire

/-- The layout is a command, a version and two octets that must be zero. -/
structure Header where
  octets : Bytes
deriving DecidableEq

/-- A route, in the layout of a version. -/
structure Entry where
  version : Version
  octets : Bytes
deriving DecidableEq

/-- A format of packets: the version that its headers carry, and the layout of its entries. -/
structure Format where
  name : Text
  version : Int
  layout : Version
deriving DecidableEq

def Format.ofVersion : Version → Format
  | .v1 => ⟨text "PacketV1", 1, .v1⟩
  | .v2 => ⟨text "PacketV2", 2, .v2⟩

/-- A packet of a format, or of none. -/
structure Packet where
  format : Option Format
  header : Header
  entries : List Entry
deriving DecidableEq

def Header.size : Nat := 4

def Header.reserved : Bytes := [0, 0]

def Entry.size : Nat := 20

/-- The most entries that one packet carries. -/
def Packet.capacity : Nat := 25

def Packet.highestSize : Nat := Header.size + Packet.capacity * Entry.size

def Entry.kind (e : Entry) : Text :=
  match e.version with
  | .v1 => "EntryV1"
  | .v2 => "EntryV2"

def Packet.kind (p : Packet) : Text :=
  match p.format with
  | none => "Packet"
  | some f => f.name

end RipWire
