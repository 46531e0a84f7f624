import RipWire.CommandLine.Decode
import RipWire.Json.Reader

/-!
# Encoding documents

Every document gives a line of hexadecimal or one complaint, and the next is
taken up whatever became of it. A text that holds no documents gives a single
complaint.
-/

namespace RipWire.CommandLine

structure EncodeOptions where
  spaced : Bool
  traced : Bool

namespace Encode

def shown (spaced : Bool) (octets : Bytes) : Text :=
  Text.upper (if spaced then Hex.groups 1 octets else Hex.encode octets) ++ text "\n"

/-- The packet of a document, and its octets. -/
def packed (document : Json) : Except Fault (Packet × Bytes) := do
  let packet ← Packet.ofJson document
  let octets ← Packet.write (.packet packet)
  .ok (packet, octets)

/-- Wrong values and wrong kinds of values are complained about, and other faults are not
handled. -/
def encodeDocument (options : EncodeOptions) (document : Json) : List Event × Except Fault Bool :=
  match packed document with
  | .ok (packet, octets) =>
    ((Packet.writeNotes (.packet packet)).map Event.note ++ [.print (shown options.spaced octets)],
      .ok false)
  | .error fault =>
    match fault.faultClass with
    | .other => ([], .error fault)
    | _ =>
      (Decode.complaint (text "could not encode") (text "invalid packet") options.traced fault,
        .ok true)

def encodeAll (options : EncodeOptions) : List Json → List Event × Except Fault Bool
  | [] => ([], .ok false)
  | document :: rest =>
    match encodeDocument options document with
    | (events, .error fault) => (events, .error fault)
    | (events, .ok refused) =>
      let (more, result) := encodeAll options rest
      (events ++ more, result.map (refused || ·))

end Encode

def encode (options : EncodeOptions) (input : Text) : Course :=
  match Json.documents input with
  | .error reason => ⟨[.print (text "invalid JSON: " ++ reason.message ++ text "\n")], .ok 1⟩
  | .ok documents =>
    let (events, result) := Encode.encodeAll options documents
    ⟨events, result.map statusOf⟩

end RipWire.CommandLine
