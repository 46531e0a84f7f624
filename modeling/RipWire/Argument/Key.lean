import RipWire.Fault.Basic

/-!
# Keys

What an argument is found by in a table. Arguments that are equal have the same
key: numbers of one value whatever their form, and tuples of such items. A list
and a JSON object are found by nothing.
-/

namespace RipWire

/-- A tuple is its first item and the tuple of the others. -/
inductive Key where
  | null
  | integer (value : Int)
  | real (value : Binary64)
  | string (value : Text)
  | octets (bytes : Bytes)
  | address (address : Address)
  | header (header : Header)
  | entry (entry : Entry)
  | packet (packet : Packet)
  | empty
  | tuple (first rest : Key)
deriving DecidableEq

def Key.toInt? : Key → Option Int
  | .integer n => some n
  | _ => none

theorem Key.toInt?_eq_some_iff {key : Key} {n : Int} : key.toInt? = some n ↔ key = .integer n := by
  cases key <;> simp [toInt?]

def Json.key (value : Json) : Except Fault Key :=
  match value with
  | .null => .ok .null
  | .bool b => .ok (.integer (if b then 1 else 0))
  | .int n => .ok (.integer n)
  | .float f =>
    match f.toInt? with
    | some n => .ok (.integer n)
    | none => .ok (.real f)
  | .string t => .ok (.string t)
  | .array _ | .object _ => .error (.unhashable value.kind)

namespace Argument

mutual

def key : Argument → Except Fault Key
  | .json value => value.key
  | .octets bytes => .ok (.octets bytes)
  | .address a => .ok (.address a)
  | .number _ n => .ok (.integer n)
  | .header h => .ok (.header h)
  | .entry e => .ok (.entry e)
  | .packet p => .ok (.packet p)
  | .sequence true items => keyOfItems items
  | .sequence false items => .error (.unhashable (kind (.sequence false items)))

def keyOfItems : List Argument → Except Fault Key
  | [] => .ok .empty
  | item :: rest => do
    let first ← key item
    let rest ← keyOfItems rest
    .ok (.tuple first rest)

end

end Argument

/-- A value is put under the integer that it equals. -/
theorem Json.key_eq_integer_iff {value : Json} {n : Int} :
    value.key = .ok (.integer n) ↔ value.toInt? = some n := by
  cases value with
  | float f =>
      unfold Json.key
      cases hf : f.toInt? with
      | none => simp [Json.toInt?, hf]
      | some m => simp [Json.toInt?, hf]
  | _ => simp [Json.key, Json.toInt?]

end RipWire
