import RipWire.Datagram.Wire

/-!
# Packets as JSON

A packet is an object with its command, its version and its entries. In a
document the family may be left out for `ip`, the route tag for 0, the subnet
mask and the next hop for 0.0.0.0. Names that are not known are ignored.
-/

namespace RipWire

namespace Entry

def toJson (e : Entry) : Except Fault Json := do
  let family ← e.family
  match e.version with
  | .v1 =>
    let address ← e.address
    let metric ← e.metric
    .ok (.object [
      (text "address-family", .string family.name),
      (text "ip-address", .string address.render),
      (text "metric", .int metric)])
  | .v2 =>
    let tag ← e.routeTag
    let address ← e.address
    let mask ← e.subnetMask
    let hop ← e.nextHop
    let metric ← e.metric
    .ok (.object [
      (text "address-family", .string family.name),
      (text "route-tag", .int tag),
      (text "ip-address", .string address.render),
      (text "subnet-mask", .string mask.render),
      (text "next-hop", .string hop.render),
      (text "metric", .int metric)])

end Entry

def Packet.toJson (p : Packet) : Except Fault Json := do
  let command ← p.command
  let version ← p.version
  let entries ← p.entries.mapM Entry.toJson
  .ok (.object [
    (text "command", .string command.name),
    (text "version", .int version.code),
    (text "entries", .array entries)])

namespace Document

def required (name : Text) (members : List (Text × Json)) : Except Fault Argument :=
  match Json.find? name members with
  | some value => .ok (.json value)
  | none => .error (.missingField name)

def optional (name : Text) (absent : Json) (members : List (Text × Json)) : Argument :=
  .json ((Json.find? name members).getD absent)

/-- A text is a name, anything else a code. -/
def family (value : Argument) : Except Fault Family :=
  match value with
  | .json (.string _) => Family.ofName value
  | _ => Family.ofArgument value

def command (value : Argument) : Except Fault Command :=
  match value with
  | .json (.string _) => Command.ofName value
  | _ => Command.ofArgument value none

/-- The members of an item that has to be an object. -/
def entryMembers (item : Argument) : Except Fault (List (Text × Json)) :=
  match item with
  | .json (.object members) => .ok members
  | _ => .error (.notEntryObject item.kind)

def entry (layout : Version) (item : Argument) : Except Fault Entry := do
  let members ← entryMembers item
  let family ← family (optional (text "address-family") (.string (text "ip")) members)
  let address ← required (text "ip-address") members
  let metric ← required (text "metric") members
  match layout with
  | .v1 => Entry.makeV1 (.number .family family.code) address metric
  | .v2 =>
    Entry.makeV2 (.number .family family.code)
      (optional (text "route-tag") (.int 0) members)
      address
      (optional (text "subnet-mask") (.string (text "0.0.0.0")) members)
      (optional (text "next-hop") (.string (text "0.0.0.0")) members)
      metric

end Document

/-- The packet that a document describes. -/
def Packet.ofDocument (document : Argument) : Except Fault Packet :=
  match document with
  | .json (.object members) => do
    let version ← Document.required (text "version") members
    let version ← Version.known version
    let command ← Document.required (text "command") members
    let command ← Document.command command
    let items ← (Document.optional (text "entries") (.array []) members).items
    let entries ← items.mapM (Document.entry version)
    Packet.assemble (Format.ofVersion version) (Header.ofCodes command version)
      (entries.map .entry)
  | _ => .error (.notPacketObject document.kind)

def Packet.ofJson (document : Json) : Except Fault Packet :=
  Packet.ofDocument (.json document)

end RipWire
