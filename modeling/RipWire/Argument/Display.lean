import RipWire.Datagram.Packet
import RipWire.Json.Writer

/-!
# Arguments in messages

The spelling of an argument inside a message. An object of the codec that was
built without a check may have none.
-/

namespace RipWire.Argument

mutual

/-- The spelling inside a list. -/
def spelled : Argument → Except Fault Text
  | .json value => .ok value.spelled
  | .octets bytes => .ok (Text.quotedOctets bytes)
  | .address a => .ok (text "IPv4Address('" ++ a.render ++ text "')")
  | .number field n => .ok (field.display n)
  | .header h => h.spelled
  | .entry e => e.spelled
  | .packet p => p.spelled
  | .sequence true [item] => do
    let item ← spelled item
    .ok (text "(" ++ item ++ text ",)")
  | .sequence fixed items => do
    let items ← spelledItems items
    .ok (if fixed then text "(" ++ items ++ text ")" else text "[" ++ items ++ text "]")

def spelledItems : List Argument → Except Fault Text
  | [] => .ok []
  | [item] => spelled item
  | item :: next :: rest => do
    let item ← spelled item
    let rest ← spelledItems (next :: rest)
    .ok (item ++ text ", " ++ rest)

end

/-- The spelling at the top. -/
def displayed : Argument → Except Fault Text
  | .json value => .ok value.display
  | .address a => .ok a.render
  | .header h => h.display
  | .entry e => e.display
  | .packet p => p.display
  | argument => argument.spelled

/-- The spelling of an argument that has one. -/
def display (argument : Argument) : Text :=
  match argument.displayed with
  | .ok shown => shown
  | .error _ => []

/-- The error that names an argument, or the one met in spelling it. -/
def refused {α : Type} (argument : Argument) (fault : Fault) : Except Fault α := do
  let _ ← argument.displayed
  .error fault

end RipWire.Argument
