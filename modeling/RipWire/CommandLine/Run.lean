import RipWire.CommandLine.Arguments
import RipWire.CommandLine.Encode
import RipWire.CommandLine.Help
import RipWire.Settings.Configuration

/-!
# Running the program

A run takes the arguments, the standard input if it is not a terminal, the
sources of the configuration and what is found outside. It gives what is
written, and a status or the reason why there is none. The configuration is
loaded and the log started only when a command needs them, and after its input
has been read.
-/

namespace RipWire.CommandLine

/-- What the report on versions tells about the machine. -/
structure Host where
  interpreter : Text
  system : Text
  location : Text

structure Invocation where
  arguments : List Text
  input : Option Text
  sources : Sources
  /-- The log files that are there before the run. -/
  files : Log.Files
  outside : Log.Outside
  stamp : Log.Stamp
  host : Host

/-- What a run does not handle. -/
inductive Escape where
  | load (fault : LoadFault)
  | log (fault : Log.ConfigureFault)
  | fault (fault : Fault)
  | output (fault : Log.WriteFault)

namespace Escape

def name : Escape → Text
  | .load reason => reason.name
  | .log _ => "ValueError"
  | .fault reason => reason.name
  | .output .broken => "BrokenPipeError"
  | .output (.encoding _) => "UnicodeEncodeError"

def message (file : Text) : Escape → Text
  | .load reason => reason.message file
  | .log reason => reason.message
  | .fault reason => reason.message
  | .output .broken => "[Errno 32] Broken pipe"
  | .output (.encoding reason) => reason

end Escape

structure Ending where
  outlets : Log.Outlets
  status : Except Escape Nat

def release : Text := "1.0.0"

def versionReport (host : Host) : Text :=
  text "ripcodec : " ++ release ++ text "\nPython   : " ++ host.interpreter ++
    text "\nUname    : " ++ host.system ++ text "\nFrom     : " ++ host.location ++ text "\n"

def decodeUsage : Text :=
  text "usage: ripcodec decode <hex>\n" ++
  text "       ripcodec decode < file-with-one-packet-per-line\n\n" ++
  text "the packet is written in hexadecimal, spaces, colons and a 0x prefix are ignored\n"

def encodeUsage : Text :=
  text "usage: ripcodec encode '\x7b\"command\": \"response\", \"version\": 2, " ++
  text "\"entries\": [...]\x7d'\n" ++
  text "       ripcodec decode <hex> | ripcodec encode\n"

/-- The default values, as they follow the help of a bare command line. -/
def defaultsReport : List Text :=
  text "\nEnvironment values are:\n" ::
    Settings.described.map fun line => text "    " ++ line ++ text "\n"

def printAll (contents : List Text) : List Event :=
  contents.map Event.print

/-- The outlets before anything has been written. -/
def Invocation.outlets (i : Invocation) : Log.Outlets where
  stdout := []
  stderr := []
  files := i.files
  outside := i.outside

/-- Performs a course with a log. -/
def Invocation.perform (i : Invocation) (log : Log) (outlets : Log.Outlets) (course : Course) :
    Ending :=
  match Event.performAll i.stamp log course.events outlets with
  | (outlets, some fault) => ⟨outlets, .error (.output fault)⟩
  | (outlets, none) => ⟨outlets, course.status.mapError .fault⟩

/-- A course that tells the log nothing. -/
def Invocation.report (i : Invocation) (contents : List Text) (status : Nat) : Ending :=
  i.perform .silent i.outlets ⟨printAll contents, .ok status⟩

/-- The switches of the command line win over what has been loaded. -/
def overridden (switches : List Switch) (settings : Settings) : Settings :=
  let debugged :=
    if .debug ∈ switches then
      (settings.assign .all (.switch true)).assign .level (.phrase (text "DEBUG"))
    else settings
  if .traceback ∈ switches then debugged.assign .traceback (.switch true) else debugged

/-- The configuration and the log that a command works with. -/
def Invocation.configured (i : Invocation) (switches : List Switch)
    (course : Settings → Course) : Ending :=
  match Configuration.initial.load i.sources with
  | (_, .error fault) => ⟨i.outlets, .error (.load fault)⟩
  | (configuration, .ok _) =>
    let settings := overridden switches configuration.settings
    match Log.silent.start settings i.outlets with
    | (_, outlets, .error fault) => ⟨outlets, .error (.log fault)⟩
    | (log, outlets, .ok _) => i.perform log outlets (course settings)

def Invocation.runDecode (i : Invocation) (request : Request) : Ending :=
  let work (payloads : List Text) : Ending :=
    i.configured request.switches fun settings =>
      decode ⟨.indent ∈ request.switches, (settings .traceback).isOn⟩ payloads
  match request.operand, i.input with
  | some payload, _ => work [payload]
  | none, some input => work (Decode.payloads input)
  | none, none => i.report [decodeUsage] 1

def Invocation.runEncode (i : Invocation) (request : Request) : Ending :=
  let work (input : Text) : Ending :=
    i.configured request.switches fun settings =>
      encode ⟨.spaced ∈ request.switches, (settings .traceback).isOn⟩ input
  match request.operand, i.input with
  | some input, _ => work input
  | none, some input => work input
  | none, none => i.report [encodeUsage] 1

def Invocation.runEnv (i : Invocation) (request : Request) : Ending :=
  match Configuration.initial.load i.sources with
  | (_, .error fault) => ⟨i.outlets, .error (.load fault)⟩
  | (configuration, .ok _) =>
    let onlyChanged := .diff ∈ request.switches
    let lines :=
      if .env ∈ request.switches then configuration.settings.asVariables onlyChanged
      else configuration.settings.asIni onlyChanged
    i.report (lines.map fun line => line ++ text "\n") 0

def Invocation.runRequest (i : Invocation) (request : Request) : Ending :=
  match request.verb with
  | .version => i.report [versionReport i.host] 0
  | .env => i.runEnv request
  | .decode => i.runDecode request
  | .encode => i.runEncode request

/-- Shows help, and goes on behind it. Help is lost on a broken output, without a fault. -/
def Invocation.withHelp (i : Invocation) (scope : Scope) (goesOn : Log.Outlets → Ending) :
    Ending :=
  match i.outside.refusal .stdout (help scope) with
  | none => goesOn (i.outlets.print (help scope))
  | some .broken => goesOn i.outlets
  | some fault => ⟨i.outlets, .error (.output fault)⟩

def Invocation.run (i : Invocation) : Ending :=
  match parse i.arguments with
  | .help scope => i.withHelp scope fun outlets => ⟨outlets, .ok 0⟩
  | .refused scope reason =>
    ⟨i.outlets.printError (usage scope ++ scope.program ++ text ": error: " ++ reason ++
      text "\n"), .ok 2⟩
  | .bare =>
    i.withHelp .main fun outlets => i.perform .silent outlets ⟨printAll defaultsReport, .ok 1⟩
  | .request request => i.runRequest request

/-- Whether a command line makes the program read its standard input. -/
def needsInput (arguments : List Text) : Bool :=
  match parse arguments with
  | .request request => request.verb.operand?.isSome && request.operand.isNone
  | _ => false

/-- The path of the log file that sources name, if they name one. -/
def logPath? (sources : Sources) : Option Text :=
  Log.Destination.path?
    ((Configuration.initial.load sources).1.settings .destination).display

/-- Run as a program of its own, a broken output is a plain failure. -/
def Ending.asProgram (ending : Ending) : Ending :=
  match ending.status with
  | .error (.output .broken) => { ending with status := .ok 1 }
  | _ => ending

end RipWire.CommandLine
