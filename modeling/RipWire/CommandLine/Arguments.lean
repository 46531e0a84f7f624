import RipWire.CommandLine.Token

/-!
# Reading the command line

The tokens take effect from the left. A call for help ends the reading at once,
and so does a fault. The first operand in front of the command is the command,
and all behind it is read with its switches. What no one takes is reported at
the end, as one fault.
-/

namespace RipWire.CommandLine

/-- A command that is to be carried out. -/
structure Request where
  verb : Verb
  switches : List Switch
  operand : Option Text
deriving DecidableEq

inductive Parsed where
  | help (scope : Scope)
  | refused (scope : Scope) (reason : Text)
  | bare
  | request (request : Request)
deriving DecidableEq

/-- Why the reading ends early. -/
inductive Stop where
  | help (scope : Scope)
  | refused (scope : Scope) (reason : Text)
deriving DecidableEq

def Stop.parsed : Stop → Parsed
  | .help scope => .help scope
  | .refused scope reason => .refused scope reason

def ignored (s : Switch) (content : Text) : Text :=
  text "argument " ++ s.title ++ text ": ignored explicit argument " ++ content.quoted

/-- The switches joined behind a short one, and what is left from the first letter on that is
none. -/
def joined (scope : Scope) (s : Switch) : Text → Except Text (List Switch × Option Text)
  | [] => .ok ([s], none)
  | c :: rest =>
    if c = 45 then .error (ignored s (c :: rest))
    else match scope.switches.find? fun next => next.letter = c with
      | none => .ok ([s], some (45 :: c :: rest))
      | some next =>
        match rest with
        | 61 :: content => .error (ignored next content)
        | _ => (joined scope next rest).map fun (switches, left) => (s :: switches, left)

/-- No switch takes a value. -/
def effect (scope : Scope) (s : Switch) (attached : Option Attached) :
    Except Text (List Switch × Option Text) :=
  match attached with
  | none => .ok ([s], none)
  | some ⟨true, content⟩ => .error (ignored s content)
  | some ⟨false, content⟩ => joined scope s content

/-- What has been read behind a command, and whether an operand may still come. -/
structure Progress where
  switches : List Switch
  operand : Option Text
  awaits : Bool
  extras : List Text
deriving DecidableEq

namespace Progress

def extra (p : Progress) (argument : Text) : Progress :=
  { p with extras := p.extras ++ [argument] }

def taken (p : Progress) (argument : Text) : Progress :=
  { p with operand := some argument, awaits := false }

def turned (p : Progress) (switches : List Switch) (left : Option Text) : Progress :=
  { p with switches := p.switches ++ switches, extras := p.extras ++ left.toList }

end Progress

/-- A divider in front of the operand or right behind it is dropped. -/
def follow (scope : Scope) : List (Text × Token) → Progress → Except Stop Progress
  | [], p => .ok p
  | (argument, .unknown) :: rest, p => follow scope rest (p.extra argument)
  | (_, .switch s _ attached) :: rest, p =>
    match effect scope s attached with
    | .error reason => .error (.refused scope reason)
    | .ok (switches, left) =>
      if .help ∈ switches then .error (.help scope) else follow scope rest (p.turned switches left)
  | (argument, .divider) :: rest, p =>
    if p.awaits then follow scope rest p else follow scope rest (p.extra argument)
  | (argument, .operand) :: (divider, .divider) :: rest, p =>
    if p.awaits then follow scope rest (p.taken argument)
    else follow scope rest ((p.extra argument).extra divider)
  | (argument, .operand) :: rest, p =>
    if p.awaits then follow scope rest (p.taken argument)
    else follow scope rest (p.extra argument)

def unrecognized (extras : List Text) : Text :=
  text "unrecognized arguments: " ++ Text.join (text " ") extras

def invalidChoice (argument : Text) : Text :=
  text "argument " ++ verbChoice ++ text ": invalid choice: " ++ argument.quoted ++
    text " (choose from " ++
    Text.join (text ", ") (Verb.every.map fun verb => Text.quoted verb.name) ++ text ")"

/-- The whole of a command line, with the arguments that nothing in front of the command took. -/
def finished (extras : List Text) (parsed : Parsed) : Parsed :=
  if extras.isEmpty then parsed else .refused .main (unrecognized extras)

def parseVerb (verb : Verb) (arguments extras : List Text) : Parsed :=
  match tokens (.inside verb) arguments with
  | .error reason => .refused (.inside verb) reason
  | .ok found =>
    match follow (.inside verb) found ⟨[], none, verb.operand?.isSome, []⟩ with
    | .error stop => stop.parsed
    | .ok p => finished (extras ++ p.extras) (.request ⟨verb, p.switches, p.operand⟩)

def parseMain : List (Text × Token) → List Text → Parsed
  | [], extras => finished extras .bare
  | (argument, .unknown) :: rest, extras => parseMain rest (extras ++ [argument])
  | (_, .switch s _ attached) :: rest, extras =>
    match effect .main s attached with
    | .error reason => .refused .main reason
    | .ok (switches, left) =>
      if .help ∈ switches then .help .main else parseMain rest (extras ++ left.toList)
  | [(argument, .divider)], extras => finished (extras ++ [argument]) .bare
  | (argument, .divider) :: _, _ => .refused .main (invalidChoice argument)
  | (argument, .operand) :: rest, extras =>
    match Verb.ofName? argument with
    | none => .refused .main (invalidChoice argument)
    | some verb => parseVerb verb (rest.map (·.1)) extras

def parse (arguments : List Text) : Parsed :=
  match tokens .main arguments with
  | .error reason => .refused .main reason
  | .ok found => parseMain found []

end RipWire.CommandLine
