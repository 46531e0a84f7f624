import RipWire.Argument.Items
import RipWire.Datagram.Field
import RipWire.Octets.Basic

/-!
# Construction

Headers, entries and packets from arguments, everything checked. The checks
come in the order of the octets, and the first that fails decides the fault.
-/

namespace RipWire

def Header.make (command version : Argument) : Except Fault Header := do
  let command ← Command.ofArgument command none
  let version ← Version.ofArgument version none
  .ok (Header.ofCodes command version)

namespace Entry

def makeV1 (family address metric : Argument) : Except Fault Entry := do
  let family ← Family.ofArgument family
  let address ← Field.address address
  let metric ← Field.metric metric
  .ok ⟨.v1, Field.family family ++ reserved 2 ++ address ++ reserved 8 ++ metric⟩

def makeV2 (family tag address mask hop metric : Argument) : Except Fault Entry := do
  let family ← Family.ofArgument family
  let tag ← Field.routeTag tag
  let address ← Field.address address
  let mask ← Field.address mask
  let hop ← Field.address hop
  let metric ← Field.metric metric
  .ok ⟨.v2, Field.family family ++ tag ++ address ++ mask ++ hop ++ metric⟩

/-- The item at an index as an entry of a format. -/
def ofItem (format : Format) (index : Nat) (item : Argument) : Except Fault Entry :=
  match item with
  | .entry e =>
    if e.version = format.layout then .ok e
    else
      .error (.codec (.entryMismatch index (Version.name e.version) (Version.nameOf format.version)))
  | _ => .error (.notEntry index format.layout item.kind)

def ofItems (format : Format) : Nat → List Argument → Except Fault (List Entry)
  | _, [] => .ok []
  | index, item :: rest => do
    let entry ← ofItem format index item
    let entries ← ofItems format (index + 1) rest
    .ok (entry :: entries)

end Entry

namespace Packet

/-- A packet of a format, with no more entries than fit, and all of its version. -/
def assemble (format : Format) (header : Header) (items : List Argument) :
    Except Fault Packet := do
  if capacity < items.length then .error (.codec (.overfull items.length none))
  else
    let version ← header.version
    if (version.code : Int) ≠ format.version then
      .error (.codec (.headerMismatch (Version.nameOf format.version) version.name))
    else
      let entries ← Entry.ofItems format 0 items
      .ok ⟨some format, header, entries⟩

def ofParts (format : Format) (header : Argument) (items : List Argument) :
    Except Fault Packet :=
  match header with
  | .header h => assemble format h items
  | _ => .error (.notHeader header.kind)

def make (format : Format) (header entries : Argument) : Except Fault Packet :=
  match header with
  | .header h => do
    let items ← entries.items
    assemble format h items
  | _ => .error (.notHeader header.kind)

/-- As many packets as it takes to carry the items, one at least. -/
def splitItems (format : Format) (header : Argument) (items : List Argument) :
    Except Fault (List Packet) :=
  match items with
  | [] => do
    let packet ← ofParts format header []
    .ok [packet]
  | _ => (chunks capacity items).mapM (ofParts format header)

def split (format : Format) (header entries : Argument) : Except Fault (List Packet) := do
  let items ← entries.items
  splitItems format header items

end Packet

end RipWire
