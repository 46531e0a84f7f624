import RipWire.CommandLine.Grammar

/-!
# Help

The usage line of each scope, and its help: the descriptions stand in one
column, two places behind the longest name, and at place twenty-four at most.
-/

namespace RipWire.CommandLine

def usage (scope : Scope) : Text :=
  let switches := scope.switches.flatMap fun s => text " [" ++ s.shortName ++ text "]"
  let rest := match scope with
    | .main => text " " ++ verbChoice ++ text " ..."
    | .inside verb => match verb.operand? with
      | some (name, _) => text " [" ++ name ++ text "]"
      | none => []
  text "usage: " ++ scope.program ++ switches ++ rest ++ text "\n"

/-- A name with its description, at an indentation. -/
structure HelpItem where
  indent : Nat
  name : Text
  description : Text

namespace HelpItem

def width (item : HelpItem) : Nat :=
  item.indent + item.name.length

def render (column : Nat) (item : HelpItem) : Text :=
  let name := List.replicate item.indent 32 ++ item.name
  if item.description.isEmpty then name ++ text "\n"
  else Text.padRight column name ++ item.description ++ text "\n"

end HelpItem

def highestColumn : Nat := 24

def operandItems (scope : Scope) : List HelpItem :=
  match scope with
  | .main =>
    ⟨2, verbChoice, []⟩ :: Verb.every.map fun verb => ⟨4, verb.name, verb.summary⟩
  | .inside verb => match verb.operand? with
    | some (name, description) => [⟨2, name, description⟩]
    | none => []

def switchItems (scope : Scope) : List HelpItem :=
  scope.switches.map fun s => ⟨2, s.shortName ++ text ", " ++ s.longName, s.explanation⟩

/-- A titled block of items, which is left out when it has none. -/
def block (title : Text) (column : Nat) (items : List HelpItem) : Text :=
  if items.isEmpty then []
  else text "\n" ++ title ++ text ":\n" ++ items.flatMap (HelpItem.render column)

def help (scope : Scope) : Text :=
  let operands := operandItems scope
  let switches := switchItems scope
  let longest := ((operands ++ switches).map HelpItem.width).foldl max 0
  let column := min (longest + 2) highestColumn
  usage scope ++ text "\n" ++ scope.description ++ text "\n" ++
    block (text "positional arguments") column operands ++
    block (text "options") column switches

end RipWire.CommandLine
