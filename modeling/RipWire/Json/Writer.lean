import RipWire.Json.Basic
import RipWire.Number.Shortest
import RipWire.Text.Quoted

/-!
# Writing JSON

ASCII documents, on one line or indented by two spaces for each level, and the
spelling that a value has inside a message.
-/

namespace RipWire.Json

def escapedUnit (unit : Nat) : Text :=
  text "\\u" ++ Text.hexPadded 4 unit

/-- A code point beyond the sixteen bits of an escape is written as two surrogates. -/
def escapedPoint (c : CodePoint) : Text :=
  if c = 34 then "\\\""
  else if c = 92 then "\\\\"
  else if c = 10 then "\\n"
  else if c = 13 then "\\r"
  else if c = 9 then "\\t"
  else if c = 12 then "\\f"
  else if c = 8 then "\\b"
  else if 32 ≤ c && c ≤ 126 then [c]
  else if c < 0x10000 then escapedUnit c
  else
    escapedUnit (0xd800 + (c - 0x10000) / 0x400) ++ escapedUnit (0xdc00 + (c - 0x10000) % 0x400)

def writtenText (t : Text) : Text :=
  34 :: t.flatMap escapedPoint ++ [34]

def writtenFloat : Binary64 → Text
  | .nan => "NaN"
  | .infinity negative => if negative then "-Infinity" else "Infinity"
  | f => f.render

/-- What stands around and between the parts of a document at some depth. -/
structure Layout where
  opening : Nat → Text
  between : Nat → Text
  closing : Nat → Text

def oneLine : Layout where
  opening := fun _ => []
  between := fun _ => text ", "
  closing := fun _ => []

def newLine (depth : Nat) : Text :=
  10 :: List.replicate (2 * depth) 32

def indented : Layout where
  opening := newLine
  between := fun depth => 44 :: newLine depth
  closing := fun depth => newLine (depth - 1)

mutual

def written (layout : Layout) (depth : Nat) : Json → Text
  | .null => "null"
  | .bool b => if b then text "true" else text "false"
  | .int n => Text.ofInt n
  | .float f => writtenFloat f
  | .string t => writtenText t
  | .array [] => "[]"
  | .array (item :: items) =>
    91 :: layout.opening (depth + 1) ++ written layout (depth + 1) item ++
      writtenItems layout (depth + 1) items ++ layout.closing (depth + 1) ++ [93]
  | .object [] => "\x7b\x7d"
  | .object (member :: members) =>
    123 :: layout.opening (depth + 1) ++ writtenText member.1 ++ text ": " ++
      written layout (depth + 1) member.2 ++
      writtenMembers layout (depth + 1) members ++ layout.closing (depth + 1) ++ [125]

/-- The items after the first. -/
def writtenItems (layout : Layout) (depth : Nat) : List Json → Text
  | [] => []
  | item :: items =>
    layout.between depth ++ written layout depth item ++ writtenItems layout depth items

/-- The members after the first. -/
def writtenMembers (layout : Layout) (depth : Nat) : List (Text × Json) → Text
  | [] => []
  | member :: members =>
    layout.between depth ++ writtenText member.1 ++ text ": " ++
      written layout depth member.2 ++ writtenMembers layout depth members

end

def write (layout : Layout) (value : Json) : Text :=
  written layout 0 value

/-! ### Values in messages

Constants by name, text as it is at the top and quoted further in. -/

mutual

def spelled : Json → Text
  | .null => "None"
  | .bool b => if b then text "True" else text "False"
  | .int n => Text.ofInt n
  | .float f => f.render
  | .string t => t.quoted
  | .array items => text "[" ++ spelledItems items ++ text "]"
  | .object members => text "\x7b" ++ spelledMembers members ++ text "\x7d"

def spelledItems : List Json → Text
  | [] => []
  | [item] => spelled item
  | item :: next :: rest => spelled item ++ text ", " ++ spelledItems (next :: rest)

def spelledMembers : List (Text × Json) → Text
  | [] => []
  | [member] => member.1.quoted ++ text ": " ++ spelled member.2
  | member :: next :: rest =>
    member.1.quoted ++ text ": " ++ spelled member.2 ++ text ", " ++ spelledMembers (next :: rest)

end

def display : Json → Text
  | .string t => t
  | value => value.spelled

end RipWire.Json
