import RipWire.Argument.Key
import RipWire.Fault.Basic
import RipWire.Json.Basic
import RipWire.Octets.Basic

/-!
# Items of arguments

What iterating an argument gives, the consecutive slices that it is cut into,
and which arguments are equal: headers when their octets are, entries when
their layout is the same too, packets when format, header and entries are.
Numbers are equal by value. A set keeps one of the arguments that equal each
other.
-/

namespace RipWire.Argument

def jsonItems? : Json → Option (List Json)
  | .array items => some items
  | .string t => some (t.map fun c => .string [c])
  | .object members => some (members.map fun member => .string member.1)
  | _ => none

def items (argument : Argument) : Except Fault (List Argument) :=
  match argument with
  | .sequence _ items => .ok items
  | .octets bytes => .ok (bytes.map fun octet => int octet.toNat)
  | .json value =>
    match jsonItems? value with
    | some items => .ok (items.map .json)
    | none => .error (.notIterable argument.kind)
  | _ => .error (.notIterable argument.kind)

/-! ### Slices -/

/-- The parts of an argument that can be cut, and how a run of them is put together. -/
def pieces (size : Nat) (argument : Argument) : Except Fault (List Argument) :=
  match argument with
  | .json (.string t) => .ok ((chunks size t).map string)
  | .json (.array items) => .ok ((chunks size items).map fun piece => .json (.array piece))
  | .octets bytes => .ok ((chunks size bytes).map .octets)
  | .sequence fixed items => .ok ((chunks size items).map (.sequence fixed))
  | _ => .error (.notIterable argument.kind)

def slices (step : Int) (argument : Argument) : Except Fault (List Argument) :=
  if step = 0 then .error .zeroStep
  else if step < 0 then .ok []
  else pieces step.toNat argument

/-! ### Equality and sets -/

/-- The value of an argument among the JSON values. -/
def json? : Argument → Option Json
  | .json value => some value
  | .number _ n => some (.int n)
  | _ => none

mutual

def same : Argument → Argument → Bool
  | .octets a, .octets b => a = b
  | .address a, .address b => a = b
  | .header a, .header b => a = b
  | .entry a, .entry b => a = b
  | .packet a, .packet b => a = b
  | .sequence fixed items, .sequence otherFixed others =>
    fixed = otherFixed && sameItems items others
  | a, b => match a.json?, b.json? with
    | some v, some w => v.same w
    | _, _ => false

def sameItems : List Argument → List Argument → Bool
  | [], [] => true
  | item :: rest, other :: others => same item other && sameItems rest others
  | _, _ => false

end

def differs (a b : Argument) : Bool := !a.same b

/-- Why no set can hold all of the arguments, if there is a reason. -/
def unhashable? (arguments : List Argument) : Option Fault :=
  arguments.findSome? fun argument =>
    match argument.key with
    | .ok _ => none
    | .error fault => some fault

/-- How many arguments remain when only the first of equal ones is kept. -/
def distinctCount (arguments : List Argument) : Nat :=
  (arguments.foldl
    (fun kept argument => if kept.any (same · argument) then kept else argument :: kept) []).length

/-- The size of the set of the items. -/
def distinct (argument : Argument) : Except Fault Nat := do
  let items ← argument.items
  match unhashable? items with
  | some fault => .error fault
  | none => .ok (distinctCount items)

end RipWire.Argument
