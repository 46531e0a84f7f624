import RipWire.Datagram.Registry
import RipWire.Log.Message

/-!
# Datagrams

Reading a packet from the octets of a datagram, and writing it back. The header
comes first and its version selects the layout of every entry behind it. The
first fault met decides the error. The log is told about both.
-/

namespace RipWire

namespace Entry

/-- The entries in records that follow each other from an offset on. -/
def readAll (layout : Version) : Nat → List Bytes → Except Fault (List Entry)
  | _, [] => .ok []
  | offset, record :: rest => do
    let entry ← unpack layout record offset
    let entries ← readAll layout (offset + size) rest
    .ok (entry :: entries)

end Entry

namespace Packet

def readWith (registry : Registry) (octets : Bytes) : Except Fault Packet := do
  let header ← Header.unpack octets
  let remainder := octets.length - Header.size
  if remainder % Entry.size ≠ 0 then .error (.codec (.strayOctets remainder))
  else if capacity < remainder / Entry.size then
    .error (.codec (.overfull (remainder / Entry.size) (some highestSize)))
  else
    let version ← header.version
    let chosen ← registry.classOf (.number .version version.code)
    let entries ← Entry.readAll chosen.layout Header.size
      (chunks Entry.size (octets.drop Header.size))
    assemble chosen.format header (entries.map .entry)

def read (octets : Bytes) : Except Fault Packet :=
  readWith .initial octets

def octets (p : Packet) : Bytes :=
  p.header.octets ++ p.entries.flatMap Entry.octets

/-- Whether a packet has the format of a version. -/
def isOf (version : Version) (p : Packet) : Bool :=
  p.format = some (Format.ofVersion version)

/-- The octets of a packet of a version. A packet without a readable command and version has no
description for the log, and is not written either. -/
def writeAs (version : Version) (packet : Argument) : Except Fault Bytes :=
  match packet with
  | .packet p =>
    if !p.isOf version then .error (.otherPacket (Format.ofVersion version).name p.kind)
    else if capacity < p.entries.length then
      .error (.codec (.overfull p.entries.length none))
    else do
      let _ ← p.command
      let _ ← p.version
      .ok p.octets
  | _ => .error (.otherPacket (Format.ofVersion version).name packet.kind)

def write (packet : Argument) : Except Fault Bytes :=
  match packet with
  | .packet p =>
    if p.isOf .v1 then writeAs .v1 packet
    else if p.isOf .v2 then writeAs .v2 packet
    else .error (.notSerializable packet.kind)
  | _ => .error (.notSerializable packet.kind)

/-! ### Notes on datagrams -/

/-- The command, the version and the number of entries, for a template. -/
def places (command : Command) (version : Version) (count : Nat) : List (Text × Argument) :=
  [(text "command", .number .command command.code), (text "version", .number .version version.code),
    (text "count", .int count)]

def summary (verb : Text) (command : Command) (version : Version) (count : Nat) : Log.Message :=
  .template (verb ++ text " {command} {version} with {count} entries")
    (places command version count)

def received (octets : Bytes) : Log.Note :=
  ⟨.debug, .wire, .dump (text "received RIP") octets⟩

def refused (fault : Fault) : List Log.Note :=
  match fault with
  | .codec _ => [⟨.debug, .parser, .ofFault (text "invalid RIP packet,") fault⟩]
  | _ => []

def decoded (p : Packet) : List Log.Note :=
  match p.command, p.version with
  | .ok command, .ok version =>
    [⟨.debug, .parser, summary (text "decoded") command version p.entries.length⟩]
  | _, _ => []

def readNotes (octets : Bytes) : List Log.Note :=
  received octets ::
    match read octets with
    | .ok p => decoded p
    | .error fault => refused fault

/-- A packet that is not written leaves no note. -/
def writeNotes (packet : Argument) : List Log.Note :=
  match packet, write packet with
  | .packet p, .ok octets =>
    match p.command, p.version with
    | .ok command, .ok version => [
        ⟨.debug, .serializer, summary (text "encoded") command version p.entries.length⟩,
        ⟨.debug, .wire, .dump (text "sending RIP") octets⟩]
    | _, _ => []
  | _, _ => []

end Packet

end RipWire
