import RipWire.Log.File
import RipWire.Log.Level
import RipWire.Text.Quoted

/-!
# Handlers

Where the lines of the log go, and in which form. Which file a path leads to, and
what can be written where, is up to what a process finds outside.
-/

namespace RipWire.Log

/-- One of the standard streams, or a file by the name that it is opened under and set aside. -/
inductive Destination where
  | stdout
  | stderr
  | file (name : Text)
deriving DecidableEq

/-- Why a text is not written: nobody reads it any more, or it has no encoding. -/
inductive WriteFault where
  | broken
  | encoding (reason : Text)

/-- What a process finds outside. -/
structure Outside where
  /-- What a path opens as for appending, if it can be opened. Two files have two names, and the
  path of a device may lead to one of the standard streams. -/
  opens : Text → Option Destination
  /-- What keeps a text from being written. -/
  refusal : Destination → Text → Option WriteFault
  /-- What standard error shows in place of a line of the log that can not be written. -/
  report : Destination → Text → Text

def withoutFileMark (destination : Text) : Text :=
  if (text "file:").isPrefixOf destination then destination.drop 5 else destination

/-- The path that a destination names, unless it is a standard stream. -/
def Destination.path? (destination : Text) : Option Text :=
  if destination = text "stdout" ∨ destination = text "stderr" then none
  else some (withoutFileMark destination)

/-- Anything that is no standard stream names a file. -/
def Destination.ofText? (opens : Text → Option Destination) (destination : Text) :
    Option Destination :=
  if destination = text "stdout" then some .stdout
  else if destination = text "stderr" then some .stderr
  else opens (withoutFileMark destination)

/-! ### UTF-8 -/

def isSurrogate (c : CodePoint) : Bool :=
  0xd800 ≤ c && c ≤ 0xdfff

/-- Surrogates have no encoding. The fault names the first of them, or those that stand together
with it. -/
def utf8Fault? (t : Text) : Option WriteFault :=
  let start := (t.takeWhile (!isSurrogate ·)).length
  match (t.drop start).takeWhile isSurrogate with
  | [] => none
  | [c] => some (.encoding (text "'utf-8' codec can't encode character '\\u" ++
      Text.hexPadded 4 c ++ text "' in position " ++ Text.ofNat start ++
      text ": surrogates not allowed"))
  | several => some (.encoding (text "'utf-8' codec can't encode characters in position " ++
      Text.ofNat start ++ text "-" ++ Text.ofNat (start + several.length - 1) ++
      text ": surrogates not allowed"))

/-- Outlets in UTF-8. Standard error escapes what has no encoding, and so takes every text. Of the
report on a line that is not taken, only the heading is kept. -/
def Outside.utf8 (opens : Text → Option Destination) : Outside where
  opens
  refusal
    | .stderr, _ => none
    | _, t => utf8Fault? t
  report _ _ := text "--- Logging error ---\n"

/-- The time and the process that long lines show. -/
structure Stamp where
  clock : Text
  process : Text

structure Handler where
  destination : Destination
  short : Bool

/-- A short line shows its source only. -/
def Handler.line (stamp : Stamp) (handler : Handler) (level : Level) (source : Source)
    (content : Text) : Text :=
  let tail := Text.padRight 10 source.name ++ text " " ++ content ++ text "\n"
  if handler.short then tail
  else
    stamp.clock ++ text " " ++ Text.padRight 6 stamp.process ++ text " " ++
      Text.padRight 8 level.name ++ text " " ++ tail

/-- What has been written to the standard streams, the latest first, and the files. -/
structure Outlets where
  stdout : List Text
  stderr : List Text
  files : Files
  outside : Outside

namespace Outlets

def print (outlets : Outlets) (content : Text) : Outlets :=
  { outlets with stdout := content :: outlets.stdout }

def printError (outlets : Outlets) (content : Text) : Outlets :=
  { outlets with stderr := content :: outlets.stderr }

/-- Sends a line of the log. A file makes room for a line before it turns out that the line can
not be written. -/
def send (outlets : Outlets) (destination : Destination) (line : Text) : Outlets :=
  match outlets.outside.refusal destination line, destination with
  | none, .stdout => outlets.print line
  | none, .stderr => outlets.printError line
  | none, .file name => { outlets with files := outlets.files.write name line }
  | some _, .file name =>
    { outlets with files := outlets.files.withRoom name line }.printError
      (outlets.outside.report destination line)
  | some _, _ => outlets.printError (outlets.outside.report destination line)

def printed (outlets : Outlets) : Text :=
  outlets.stdout.reverse.flatten

def printedErrors (outlets : Outlets) : Text :=
  outlets.stderr.reverse.flatten

end Outlets

end RipWire.Log
