import RipWire.CommandLine.Grammar
import RipWire.Text.Decimal
import RipWire.Text.Quoted

/-!
# Tokens of the command line

What each argument is taken for before any of them has an effect: an operand, a
switch, an unknown option, or the divider behind which everything is an operand.
Long spellings may be cut short as long as they fit one switch only, and short
ones joined. Negative numbers and arguments with a space are operands unless a
switch fits them.
-/

namespace RipWire.CommandLine

/-- What an argument says behind the name of a switch, and whether an equals sign sets it off. -/
structure Attached where
  marked : Bool
  content : Text
deriving DecidableEq

inductive Token where
  | operand
  | divider
  | unknown
  | switch (s : Switch) (long : Bool) (attached : Option Attached)
deriving DecidableEq

/-- Every spelling of the switches of a scope. -/
def spellings (scope : Scope) : List (Text × Switch × Bool) :=
  scope.switches.flatMap fun s => [(s.shortName, s, false), (s.longName, s, true)]

def spelled? (scope : Scope) (name : Text) : Option (Switch × Bool) :=
  ((spellings scope).find? fun spelling => spelling.1 = name).map (·.2)

/-- The text in front of the first equals sign and the one behind it. -/
def cutAtEquals (t : Text) : Text × Option Text :=
  match t.dropWhile (· ≠ 61) with
  | [] => (t, none)
  | _ :: rest => (t.takeWhile (· ≠ 61), some rest)

def attachedTo (rest : Option Text) : Option Attached :=
  rest.map fun content => ⟨true, content⟩

/-- The switches that an argument may be cut short from, or starts with. -/
def candidates (scope : Scope) (argument : Text) : List (Text × Token) :=
  match argument with
  | 45 :: 45 :: _ =>
    let (name, rest) := cutAtEquals argument
    (scope.switches.filter fun s => name.isPrefixOf s.longName).map fun s =>
      (s.longName, .switch s true (attachedTo rest))
  | 45 :: c :: rest =>
    (scope.switches.filter fun s => s.letter = c).map fun s =>
      (s.shortName, .switch s false (some ⟨false, rest⟩))
  | _ => []

def isDigits (t : Text) : Bool :=
  !t.isEmpty && t.all Text.isDecimalDigit

/-- A sign and digits, with a point in front of the last of them at most. -/
def isNegativeNumber (argument : Text) : Bool :=
  match argument with
  | 45 :: rest =>
    let number := if rest.getLast? = some 10 then rest.dropLast else rest
    let whole := number.takeWhile Text.isDecimalDigit
    match number.drop whole.length with
    | [] => !whole.isEmpty
    | c :: fraction => c = 46 && isDigits fraction
  | _ => false

def ambiguity (argument : Text) (found : List (Text × Token)) : Text :=
  text "ambiguous option: " ++ argument ++ text " could match " ++
    Text.join (text ", ") (found.map (·.1))

/-- What an argument in front of a divider is taken for, or why it can not be told. -/
def token (scope : Scope) (argument : Text) : Except Text Token :=
  match argument with
  | [] => .ok .operand
  | [_] => .ok .operand
  | c :: _ =>
    if c ≠ 45 then .ok .operand
    else match spelled? scope argument with
      | some (s, long) => .ok (.switch s long none)
      | none =>
        let (name, rest) := cutAtEquals argument
        match rest, spelled? scope name with
        | some content, some (s, long) => .ok (.switch s long (some ⟨true, content⟩))
        | _, _ =>
          match candidates scope argument with
          | [] =>
            if isNegativeNumber argument || argument.contains 32 then .ok .operand
            else .ok .unknown
          | [(_, found)] => .ok found
          | found => .error (ambiguity argument found)

def tokens (scope : Scope) : List Text → Except Text (List (Text × Token))
  | [] => .ok []
  | argument :: rest =>
    if argument = text "--" then
      .ok ((argument, .divider) :: rest.map fun argument => (argument, .operand))
    else
      match token scope argument with
      | .error reason => .error reason
      | .ok found => (tokens scope rest).map ((argument, found) :: ·)

end RipWire.CommandLine
