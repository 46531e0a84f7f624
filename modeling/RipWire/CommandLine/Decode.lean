import RipWire.Datagram.Document
import RipWire.Json.Writer
import RipWire.Log.Basic
import RipWire.Octets.Hex

/-!
# Decoding payloads

Every payload gives one document or one complaint, and the next is taken up
whatever became of it. A payload whose digits start with a second radix mark is
the exception: it ends the command.
-/

namespace RipWire.CommandLine

/-! ### Events

What a command does, in order: it prints, tells the log, or shows the trace of a fault. Whether a
note appears anywhere is for the log to decide, so that the events of a command do not depend on
it. The first text that standard output can not take ends the command. -/

inductive Event where
  | print (content : Text)
  | note (note : Log.Note)
  | trace (name : Text)

/-- The events of a command, and how it ends: with a status, or with a fault that it does not
handle. -/
structure Course where
  events : List Event
  status : Except Fault Nat

namespace Event

def traced (name : Text) : Text :=
  text "TRACEBACK " ++ name ++ text "\n"

/-- Performs events in order, up to the first text that can not be printed. -/
def performAll (stamp : Log.Stamp) (log : Log) :
    List Event → Log.Outlets → Log.Outlets × Option Log.WriteFault
  | [], outlets => (outlets, none)
  | .print content :: rest, outlets =>
    match outlets.outside.refusal .stdout content with
    | some fault => (outlets, some fault)
    | none => performAll stamp log rest (outlets.print content)
  | .note entry :: rest, outlets => performAll stamp log rest (log.emit stamp entry outlets).1
  | .trace name :: rest, outlets => performAll stamp log rest (outlets.printError (traced name))

end Event

/-! ### Payloads -/

structure DecodeOptions where
  indented : Bool
  traced : Bool

namespace Decode

/-- The payloads of standard input are its lines, without the blank ones. -/
def payloads (input : Text) : List Text :=
  ((Text.fileLines input).map Text.trim).filter fun line => !line.isEmpty

def invalidHexadecimal (payload : Text) : Event :=
  .print (text "invalid hexadecimal: " ++ payload.take 50 ++ text "\n")

/-- The complaint about a fault: to the log, on the output, and its trace if that is wanted. -/
def complaint (title heading : Text) (traced : Bool) (fault : Fault) : List Event :=
  [.note ⟨.error, .cli, .ofFault title fault⟩,
    .print (heading ++ text ": " ++ fault.message ++ text "\n")] ++
    if traced then [.trace fault.name] else []

def document (indented : Bool) (p : Packet) : Except Fault Text :=
  p.toJson.map fun json =>
    json.write (if indented then Json.indented else Json.oneLine) ++ text "\n"

/-- The events for the octets of a payload, and whether it was refused. -/
def decodeOctets (options : DecodeOptions) (octets : Bytes) : List Event × Except Fault Bool :=
  let notes := (Packet.readNotes octets).map Event.note
  match Packet.read octets with
  | .ok p =>
    match document options.indented p with
    | .ok shown => (notes ++ [.print shown], .ok false)
    | .error fault => (notes, .error fault)
  | .error (.codec error) =>
    (notes ++ complaint (text "could not decode") (text "invalid payload") options.traced
      (.codec error), .ok true)
  | .error fault => (notes, .error fault)

def decodePayload (options : DecodeOptions) (payload : Text) : List Event × Except Fault Bool :=
  let digits := Payload.normalise payload
  if !Payload.isHex digits then ([invalidHexadecimal payload], .ok true)
  else match Hex.decode digits with
    | .error position => ([], .error (.hexDigit position))
    | .ok octets => decodeOctets options octets

/-- Whether any payload was refused. -/
def decodeAll (options : DecodeOptions) : List Text → List Event × Except Fault Bool
  | [] => ([], .ok false)
  | payload :: rest =>
    match decodePayload options payload with
    | (events, .error fault) => (events, .error fault)
    | (events, .ok refused) =>
      let (more, result) := decodeAll options rest
      (events ++ more, result.map (refused || ·))

end Decode

def statusOf (failed : Bool) : Nat :=
  if failed then 1 else 0

def decode (options : DecodeOptions) (payloads : List Text) : Course :=
  let (events, result) := Decode.decodeAll options payloads
  ⟨events, result.map statusOf⟩

end RipWire.CommandLine
