import RipWire.Datagram.Basic
import RipWire.Json.Basic

/-!
# Arguments

What a caller may hand to a constructor: a JSON value, octets, an address, a
number taken from a field, an object of the codec, or a sequence of these.
-/

namespace RipWire

inductive FieldKind where
  | command
  | version
  | family
  | metric
deriving DecidableEq

inductive Argument where
  | json (value : Json)
  | octets (bytes : Bytes)
  | address (address : Address)
  | number (field : FieldKind) (value : Int)
  | header (header : Header)
  | entry (entry : Entry)
  | packet (packet : Packet)
  | sequence (fixed : Bool) (items : List Argument)

namespace FieldKind

def kind : FieldKind → Text
  | .command => "Command"
  | .version => "Version"
  | .family => "AFI"
  | .metric => "Metric"

def display : FieldKind → Int → Text
  | .command, n => Command.nameOf n
  | .version, n => Version.nameOf n
  | .family, n => Family.nameOf n
  | .metric, n => Text.ofInt n

end FieldKind

namespace Argument

def int (n : Int) : Argument := .json (.int n)

def string (t : Text) : Argument := .json (.string t)

def kind : Argument → Text
  | .json value => value.kind
  | .octets _ => "bytes"
  | .address _ => "IPv4Address"
  | .number field _ => field.kind
  | .header _ => "Header"
  | .entry e => e.kind
  | .packet p => p.kind
  | .sequence fixed _ => if fixed then text "tuple" else text "list"

/-- The integer that an argument equals as a number. -/
def toInt? : Argument → Option Int
  | .json value => value.toInt?
  | .number _ n => some n
  | _ => none

/-- The integer that an argument is; neither a truth value nor a floating point number is one. -/
def integer? : Argument → Option Int
  | .json (.int n) => some n
  | .number _ n => some n
  | _ => none

end Argument

end RipWire
