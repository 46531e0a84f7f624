import RipWire.Datagram.Entry

/-!
# Packets

A header and its entries, what can be told from them, and where a set looks for
them.
-/

namespace RipWire

namespace Packet

def command (p : Packet) : Except Fault Command := p.header.command

def version (p : Packet) : Except Fault Version := p.header.version

def length (p : Packet) : Nat :=
  Header.size + p.entries.length * Entry.size

/-- One entry of no family at infinity requests the whole table. -/
def isWholeTableRequest (p : Packet) : Except Fault Bool := do
  let command ← p.command
  match command, p.entries with
  | .request, [entry] =>
    let family ← entry.family
    if family ≠ .unspecified then return false
    let metric ← entry.metric
    return metric = 16
  | _, _ => return false

def display (p : Packet) : Except Fault Text := do
  let header ← p.header.display
  let entries ← p.entries.mapM Entry.display
  match entries with
  | [] => .ok (text "rip " ++ header ++ text " (no entry)")
  | _ => .ok (text "rip " ++ header ++ text " " ++ Text.join (text ", ") entries)

def spelled (p : Packet) : Except Fault Text := do
  let header ← p.header.spelled
  let entries ← p.entries.mapM Entry.spelled
  .ok (p.kind ++ text "(header=" ++ header ++ text ", entries=[" ++
    Text.join (text ", ") entries ++ text "])")

end Packet

/-! ### Hashes

How numbers, octets and tuples are hashed is left open. -/

/-- The hashes of numbers and of octets, and of a tuple from the hashes of its items. -/
structure Hashing where
  number : Int → Int
  octets : Bytes → Int
  tuple : List Int → Int

variable (hashing : Hashing)

def Header.hash (h : Header) : Int :=
  hashing.octets h.octets

def Entry.hash (e : Entry) : Int :=
  hashing.tuple [hashing.number e.version.code, hashing.octets e.octets]

def Packet.hash (p : Packet) : Int :=
  hashing.tuple [p.header.hash hashing, hashing.tuple (p.entries.map (Entry.hash hashing))]

end RipWire
