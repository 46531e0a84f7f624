import RipWire.CommandLine.Run

/-!
# The program

Gathers what a run needs from the outside, and carries out what it gives.
-/

namespace RipWire.Program

def rendered (t : Text) : String :=
  String.ofList (t.map Char.ofNat)

/-- The path of a file, relative to the working directory unless it is absolute. -/
def readIfThere (path : String) : IO (Option Text) := do
  let place := (← IO.currentDir) / path
  if ← place.pathExists then
    return some (text (← IO.FS.readFile place))
  else return none

partial def readAll (stream : IO.FS.Stream) (bytes : ByteArray) : IO ByteArray := do
  let more ← stream.read 65536
  if more.isEmpty then return bytes else readAll stream (bytes ++ more)

def readInput (needed : Bool) : IO (Option Text) := do
  let stdin ← IO.getStdin
  if !needed || (← stdin.isTty) then return none
  match String.fromUTF8? (← readAll stdin ByteArray.empty) with
  | some content => return some (text content)
  | none => throw (IO.userError "standard input is not UTF-8")

def readVariables : IO (List (Text × Text)) := do
  let names := Setting.every.flatMap fun s => [s.dottedName, s.plainName]
  names.filterMapM fun name => do
    return (← IO.getEnv (rendered name)).map fun value => (name, text value)

def configurationFile : IO String := do
  let root := (← IO.getEnv "RIPCODEC_ROOT").getD "/usr"
  return root ++ "/etc/ripcodec/ripcodec.env"

def twoDigits (n : Nat) : Text :=
  (List.replicate (2 - (Text.ofNat n).length) 48) ++ Text.ofNat n

/-- The time of day at which the process was started, and its number. -/
def readStamp : IO Log.Stamp := do
  let place := (← IO.currentDir) / "/proc/self/stat"
  let second := ((← place.metadata).modified.sec % 86400).toNat
  let process := (text (← IO.FS.readFile place)).takeWhile Text.isAsciiDigit
  let clock := Text.join (text ":") [twoDigits (second / 3600), twoDigits (second / 60 % 60),
    twoDigits (second % 60)]
  return ⟨clock, process⟩

def readHost : IO CommandLine.Host := do
  let parts ← ["ostype", "hostname", "osrelease", "version"].mapM fun name => do
    return ((← readIfThere ("/proc/sys/kernel/" ++ name)).getD []).trim
  return ⟨text "native", Text.join (text " ") parts, text (← IO.appDir).toString⟩

/-- What a path opens as for appending. Links are followed to tell the standard streams. -/
def opened (path : String) : IO (Option Log.Destination) := do
  let place := (← IO.currentDir) / path
  if ← place.pathExists then
    if ← place.isDir then return none
    let real ← IO.FS.realPath place
    if real = (← IO.FS.realPath "/proc/self/fd/1") then return some .stdout
    if real = (← IO.FS.realPath "/proc/self/fd/2") then return some .stderr
  else
    let some directory := place.parent | return none
    if !(← directory.isDir) then return none
  return some (.file (text place.toString))

/-- Outlets in UTF-8, and what the one path that a run may open leads to. -/
def readOutside (path? : Option Text) : IO Log.Outside := do
  match path? with
  | none => return .utf8 fun _ => none
  | some path =>
    let destination ← opened (rendered path)
    return .utf8 fun asked => if asked = path then destination else none

/-- The log files that a run may touch. -/
def readFiles (outside : Log.Outside) (path? : Option Text) : IO Log.Files :=
  match path?.bind outside.opens with
  | some (.file name) =>
    (name :: [1, 2, 3].map (Log.Files.numbered name)).filterMapM fun name => do
      return (← readIfThere (rendered name)).map fun content =>
        (name, Log.File.empty.append content)
  | _ => return []

/-- The files of the run take the place of those that were there before. -/
def writeFiles (before after : Log.Files) : IO Unit := do
  for (name, file) in after do
    let known := (before.get? name).map Log.File.content
    if known ≠ some file.content then
      IO.FS.writeFile (rendered name) (rendered file.content)

def carryOut (file : Text) (before : Log.Files) (ending : CommandLine.Ending) : IO UInt32 := do
  writeFiles before ending.outlets.files
  (← IO.getStderr).putStr (rendered ending.outlets.printedErrors)
  let stdout ← IO.getStdout
  stdout.putStr (rendered ending.outlets.printed)
  stdout.flush
  match ending.status with
  | .ok status => return status.toUInt32
  | .error reason =>
    (← IO.getStderr).putStr (rendered (reason.name ++ text ": " ++ reason.message file ++ text "\n"))
    return 1

end RipWire.Program

open RipWire Program in
def main (arguments : List String) : IO UInt32 := do
  let arguments := arguments.map text
  let file ← configurationFile
  let sources : Sources := ⟨← readVariables, ← readIfThere file⟩
  let path? := CommandLine.logPath? sources
  let outside ← readOutside path?
  let files ← readFiles outside path?
  let invocation : CommandLine.Invocation := {
    arguments, sources, files, outside
    input := ← readInput (CommandLine.needsInput arguments)
    stamp := ← readStamp
    host := ← readHost }
  try carryOut (text file) files invocation.run.asProgram
  catch _ => return 1
