import RipWire.Text.Decimal

/-!
# Log files

Files by their names. A log file that a line would bring to its highest size is
set aside under a numbered name, where three old files are kept, and the line
opens a new one.
-/

namespace RipWire.Log

/-- The lines of a file, the last first, and its size in octets of UTF-8. -/
structure File where
  lines : List Text
  size : Nat

abbrev Files := List (Text × File)

namespace File

def empty : File := ⟨[], 0⟩

def append (file : File) (line : Text) : File :=
  ⟨line :: file.lines, file.size + line.utf8Size⟩

def content (file : File) : Text :=
  file.lines.reverse.flatten

def highestSize : Nat := 1048576

/-- The file is measured in octets, the line in characters. -/
def isFullFor (file : File) (line : Text) : Bool :=
  highestSize ≤ file.size + line.length

end File

namespace Files

def get? (files : Files) (name : Text) : Option File :=
  (files.find? fun entry => entry.1 = name).map (·.2)

def remove (files : Files) (name : Text) : Files :=
  files.filter fun entry => entry.1 ≠ name

def put (files : Files) (name : Text) (file : File) : Files :=
  (name, file) :: files.remove name

/-- Opening a file for appending creates it. -/
def opened (files : Files) (name : Text) : Files :=
  match files.get? name with
  | some _ => files
  | none => files.put name File.empty

/-- A file takes the place of another, if there is one to take it. -/
def renamed (files : Files) (old new : Text) : Files :=
  match files.get? old with
  | some file => (files.remove old).put new file
  | none => files

def numbered (name : Text) (number : Nat) : Text :=
  name ++ text "." ++ Text.ofNat number

def rotated (files : Files) (name : Text) : Files :=
  (((files.renamed (numbered name 2) (numbered name 3)).renamed
    (numbered name 1) (numbered name 2)).renamed name (numbered name 1)).put name File.empty

/-- The file of a name, which is empty as long as there is none. -/
def fileAt (files : Files) (name : Text) : File :=
  (files.get? name).getD File.empty

/-- Opens a file, and sets it aside when it is full for a line. -/
def withRoom (files : Files) (name line : Text) : Files :=
  if ((files.opened name).fileAt name).isFullFor line then (files.opened name).rotated name
  else files.opened name

def write (files : Files) (name line : Text) : Files :=
  (files.withRoom name line).put name (((files.withRoom name line).fileAt name).append line)

theorem get?_put (files : Files) (name : Text) (file : File) :
    (files.put name file).get? name = some file := by
  simp [put, get?]

end Files

end RipWire.Log
