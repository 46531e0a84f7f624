import RipWire.Text.Basic
import RipWire.Text.LetterCase
import RipWire.Text.Quoted

/-!
# Configuration files

A file is a sequence of sections with options in them. A line that is indented
more than the one that opened an option continues its value. Comments take a
whole line and start with `#` or `;`. A section and an option within it appear
once; the section `DEFAULT` alone may be opened again, and its options hold in
every other section too. Lines that are none of these are collected and
reported together.
-/

namespace RipWire.Ini

inductive Fault where
  | missingHeader (number : Nat) (line : Text)
  | repeatedSection (number : Nat) (name : Text)
  | repeatedOption (number : Nat) (heading name : Text)
  | stray (lines : List (Nat × Text))
deriving DecidableEq

def Fault.name : Fault → Text
  | .missingHeader .. => "MissingSectionHeaderError"
  | .repeatedSection .. => "DuplicateSectionError"
  | .repeatedOption .. => "DuplicateOptionError"
  | .stray _ => "ParsingError"

def lineNumber (number : Nat) : Text :=
  text "[line " ++ Text.padLeft 2 (Text.ofNat number) ++ text "]"

def Fault.message (file : Text) : Fault → Text
  | .missingHeader number line =>
    text "File contains no section headers.\nfile: " ++ file.quoted ++ text ", line: " ++
      Text.ofNat number ++ text "\n" ++ line.quoted
  | .repeatedSection number name =>
    text "While reading from " ++ file.quoted ++ text " " ++ lineNumber number ++
      text ": section " ++ name.quoted ++ text " already exists"
  | .repeatedOption number heading name =>
    text "While reading from " ++ file.quoted ++ text " " ++ lineNumber number ++
      text ": option " ++ name.quoted ++ text " in section " ++ heading.quoted ++
      text " already exists"
  | .stray lines =>
    text "Source contains parsing errors: " ++ file.quoted ++
      lines.flatMap fun (number, line) =>
        text "\n\t" ++ lineNumber number ++ text ": " ++ line.quoted

/-- An option with the lines of its value, the last first. -/
structure Entry where
  heading : Text
  name : Text
  lines : List Text
deriving DecidableEq

/-- What has been read so far, the latest first. -/
structure Progress where
  headings : List Text
  entries : List Entry
  heading : Option Text
  continues : Bool
  indent : Nat
  stray : List (Nat × Text)
deriving DecidableEq

def start : Progress where
  headings := []
  entries := []
  heading := none
  continues := false
  indent := 0
  stray := []

def shared : Text := "DEFAULT"

def isComment (content : Text) : Bool :=
  match content with
  | c :: _ => c = 35 || c = 59
  | [] => false

/-- The name between the first bracket of a line and its last. -/
def heading? (content : Text) : Option Text :=
  match content with
  | 91 :: rest =>
    match rest.reverse.dropWhile (· ≠ 93) with
    | 93 :: c :: name => some (c :: name).reverse
    | _ => none
  | _ => none

def isDelimiter (c : CodePoint) : Bool :=
  c = 61 || c = 58

/-- The name and the value around the first delimiter of a line. -/
def option? (content : Text) : Option (Text × Text) :=
  match content.dropWhile fun c => !isDelimiter c with
  | [] => none
  | _ :: value => some (Text.trimRight (content.takeWhile fun c => !isDelimiter c), Text.trim value)

/-- One more line for the option that was read last. -/
def Progress.extend (p : Progress) (line : Text) : Progress :=
  match p.continues, p.entries with
  | true, entry :: rest => { p with entries := { entry with lines := line :: entry.lines } :: rest }
  | _, _ => p

def Progress.opened (p : Progress) (number : Nat) (name : Text) : Except Fault Progress :=
  if name = shared then .ok { p with heading := some name, continues := false }
  else if name ∈ p.headings then .error (.repeatedSection number name)
  else .ok { p with headings := name :: p.headings, heading := some name, continues := false }

/-- An option without a name is kept, to be found again when it is repeated, and reported. -/
def Progress.added (p : Progress) (number : Nat) (line heading name value : Text) :
    Except Fault Progress :=
  if p.entries.any fun entry => entry.heading = heading && entry.name = name.lower then
    .error (.repeatedOption number heading name.lower)
  else .ok { p with
    entries := ⟨heading, name.lower, [value]⟩ :: p.entries
    continues := !name.isEmpty
    stray := if name.isEmpty then (number, line) :: p.stray else p.stray }

def Progress.step (p : Progress) (number : Nat) (line : Text) : Except Fault Progress :=
  let content := line.trim
  if isComment content then .ok p
  else if content.isEmpty then .ok (p.extend [])
  else
    let indent := (line.takeWhile Text.isBlank).length
    if p.continues && p.indent < indent then .ok (p.extend content)
    else
      let p := { p with indent }
      match heading? content with
      | some name => p.opened number name
      | none =>
        match p.heading with
        | none => .error (.missingHeader number line)
        | some heading =>
          match option? content with
          | none => .ok { p with stray := (number, line) :: p.stray }
          | some (name, value) => p.added number line heading name value

def steps : Nat → Progress → List Text → Except Fault Progress
  | _, p, [] => .ok p
  | number, p, line :: rest =>
    match p.step number line with
    | .error fault => .error fault
    | .ok p => steps (number + 1) p rest

end RipWire.Ini

namespace RipWire

/-- The sections of a file, and the options in them. -/
structure Ini where
  headings : List Text
  entries : List Ini.Entry
deriving DecidableEq

namespace Ini

def empty : Ini := ⟨[], []⟩

def read (content : Text) : Except Fault Ini :=
  match steps 1 start (Text.fileLines content.unixNewlines) with
  | .error fault => .error fault
  | .ok p => if p.stray.isEmpty then .ok ⟨p.headings, p.entries⟩ else .error (.stray p.stray.reverse)

def Entry.value (entry : Entry) : Text :=
  (Text.join (text "\n") entry.lines.reverse).trimRight

def own? (ini : Ini) (heading name : Text) : Option Text :=
  (ini.entries.find? fun entry => entry.heading = heading && entry.name = name).map Entry.value

/-- The value of an option in a section that the file has. -/
def find? (ini : Ini) (heading name : Text) : Option Text :=
  if heading ∈ ini.headings then ini.own? heading name <|> ini.own? shared name else none

end Ini

end RipWire
