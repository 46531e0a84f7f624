import RipWire.Number.Binary64
import RipWire.Text.Basic

/-!
# JSON values

Integers are unbounded and kept apart from floating point numbers. An object is
the list of its members in the order in which their names first appeared.
-/

namespace RipWire

inductive Json where
  | null
  | bool (value : Bool)
  | int (value : Int)
  | float (value : Binary64)
  | string (value : Text)
  | array (items : List Json)
  | object (members : List (Text × Json))

namespace Json

instance : Coe Text Json := ⟨.string⟩

/-- A later value of a name takes the place of an earlier one. -/
def insert (name : Text) (value : Json) : List (Text × Json) → List (Text × Json)
  | [] => [(name, value)]
  | member :: rest =>
    if member.1 = name then (name, value) :: rest else member :: insert name value rest

def find? (name : Text) : List (Text × Json) → Option Json
  | [] => none
  | member :: rest => if member.1 = name then some member.2 else find? name rest

/-- The integer that a value equals as a number; a truth value counts as one or zero. -/
def toInt? : Json → Option Int
  | .int n => some n
  | .bool b => some (if b then 1 else 0)
  | .float f => f.toInt?
  | _ => none

/-- The name by which messages call the kind of a value. -/
def kind : Json → Text
  | .null => "NoneType"
  | .bool _ => "bool"
  | .int _ => "int"
  | .float _ => "float"
  | .string _ => "str"
  | .array _ => "list"
  | .object _ => "dict"

/-! ### Equality

Numbers are equal when they have the same value, whatever their form, and objects when they have
the same members in any order. -/

def sameFloat : Binary64 → Binary64 → Bool
  | .nan, _ => false
  | _, .nan => false
  | a, b => match a.toInt?, b.toInt? with
    | some m, some n => m = n
    | none, none => a = b
    | _, _ => false

/-- Equality of two values that are not composed of others. -/
def sameLeaf : Json → Json → Bool
  | .null, .null => true
  | .string a, .string b => a = b
  | .float a, .float b => sameFloat a b
  | a, b => match a.toInt?, b.toInt? with
    | some m, some n => m = n
    | _, _ => false

mutual

def same : Json → Json → Bool
  | .array items, .array others => sameItems items others
  | .object members, .object others =>
    members.length = others.length && sameMembers members others
  | a, b => sameLeaf a b

def sameItems : List Json → List Json → Bool
  | [], [] => true
  | item :: rest, other :: others => same item other && sameItems rest others
  | _, _ => false

/-- Every member of the first is one of the second. -/
def sameMembers : List (Text × Json) → List (Text × Json) → Bool
  | [], _ => true
  | member :: rest, others =>
    (match find? member.1 others with
      | some other => same member.2 other
      | none => false) && sameMembers rest others

end

end Json

end RipWire
