import RipWire.Fault.Message
import RipWire.Log.Level
import RipWire.Octets.Hex

/-!
# Messages

A message is described first and spelled only when it is going to be written:
a text, a template with named places, a dump of octets or a fault.
-/

namespace RipWire.Log

inductive Message where
  | plain (content : Text)
  | template (pattern : Text) (places : List (Text × Argument))
  | dump (title : Text) (bytes : Bytes)
  | fault (title name wording : Text)

inductive TemplateFault where
  | unknownPlace (name : Text)
  | loneOpening
  | loneClosing
  | unclosed
  | unspelled (fault : Fault)

def TemplateFault.name : TemplateFault → Text
  | .unknownPlace _ => "KeyError"
  | .unspelled fault => fault.name
  | _ => "ValueError"

def TemplateFault.message : TemplateFault → Text
  | .unknownPlace name => name.quoted
  | .loneOpening => "Single '\x7b' encountered in format string"
  | .loneClosing => "Single '\x7d' encountered in format string"
  | .unclosed => "expected '\x7d' before end of string"
  | .unspelled fault => fault.message

/-- The text for a place in a template. -/
def placeText (places : List (Text × Argument)) (name : Text) : Except TemplateFault Text :=
  match places.find? fun place => place.1 = name with
  | some (_, value) => value.displayed.mapError .unspelled
  | none => .error (.unknownPlace name)

mutual

/-- A name between braces is a place to fill; a doubled brace stands for itself. The first fault
from the left decides. -/
def filled (places : List (Text × Argument)) : Text → Except TemplateFault Text
  | [] => .ok []
  | 123 :: 123 :: rest => (filled places rest).map (123 :: ·)
  | 125 :: 125 :: rest => (filled places rest).map (125 :: ·)
  | [123] => .error .loneOpening
  | c :: rest =>
    if c = 123 then filledPlace places [] rest
    else if c = 125 then .error .loneClosing
    else (filled places rest).map (c :: ·)

/-- Goes on behind an opening brace; the name read so far is reversed. -/
def filledPlace (places : List (Text × Argument)) (name : Text) : Text → Except TemplateFault Text
  | [] => .error .unclosed
  | c :: rest =>
    if c = 125 then
      match placeText places name.reverse with
      | .error fault => .error fault
      | .ok shown => (filled places rest).map (shown ++ ·)
    else filledPlace places (c :: name) rest

end

namespace Message

/-- The size of the dump takes four columns, its octets stand in pairs from the left. -/
def dumped (title : Text) (bytes : Bytes) : Text :=
  title ++ text " (" ++ Text.padLeft 4 (Text.ofNat bytes.length) ++ text ") " ++
    Text.upper (Hex.groups 2 bytes)

def spell : Message → Except TemplateFault Text
  | .plain content => .ok content
  | .template pattern places => filled places pattern
  | .dump title bytes => .ok (dumped title bytes)
  | .fault title name wording => .ok (title ++ text " " ++ name ++ text ": " ++ wording)

def ofFault (title : Text) (fault : Fault) : Message :=
  .fault title fault.name fault.message

end Message

/-- A message on its way to the log. -/
structure Note where
  level : Level
  source : Source
  message : Message

end RipWire.Log
