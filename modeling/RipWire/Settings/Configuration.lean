import RipWire.Settings.Basic
import RipWire.Settings.Ini
import RipWire.Text.LetterCase

/-!
# Configuration

The settings of a run, and whether they have been loaded. A setting takes the
first value found: the environment variable named with points, the one named
with underscores, the option in the configuration file. They are loaded once,
one after the other, and loading stops at the first value that is refused.
-/

namespace RipWire

/-! ### The values of settings

Switches and levels are read in any letter case, destinations as they are. -/

/-- The words of the values that are refused. -/
inductive ChoiceFault where
  | notBoolean (value : Text)
  | notLevel (value : Text)
  | notDestination (value : Text)
deriving DecidableEq

def ChoiceFault.message : ChoiceFault → Text
  | .notBoolean value => text "not a boolean: " ++ value
  | .notLevel value => text "not a log level: " ++ value
  | .notDestination value => text "not a log destination: " ++ value

namespace Choice

def trueWords : List Text :=
  [text "1", text "true", text "yes", text "on", text "enable"]

def falseWords : List Text :=
  [text "0", text "false", text "no", text "off", text "disable"]

def levels : List Text :=
  [text "CRITICAL", text "ERROR", text "WARNING", text "INFO", text "DEBUG"]

def fileMark : Text := "file:"

def readBoolean (value : Text) : Except ChoiceFault Bool :=
  if value.lower ∈ trueWords then .ok true
  else if value.lower ∈ falseWords then .ok false
  else .error (.notBoolean value)

def readLevel (value : Text) : Except ChoiceFault Text :=
  if value.upper ∈ levels then .ok value.upper else .error (.notLevel value)

/-- A file needs a path of at least one character. -/
def readDestination (value : Text) : Except ChoiceFault Text :=
  if value = text "stdout" ∨ value = text "stderr" then .ok value
  else if fileMark.isPrefixOf value ∧ fileMark.length < value.length then .ok value
  else .error (.notDestination value)

end Choice

/-- The value that a text gives a setting. -/
def Setting.read (s : Setting) (value : Text) : Except ChoiceFault Choice :=
  match s with
  | .level => (Choice.readLevel value).map .phrase
  | .destination => (Choice.readDestination value).map .phrase
  | _ => (Choice.readBoolean value).map .switch

/-! ### Loading -/

/-- Where values come from: the environment, and the configuration file if there is one. -/
structure Sources where
  environment : List (Text × Text)
  file : Option Text

structure Configuration where
  settings : Settings
  loaded : Bool

inductive LoadFault where
  | file (fault : Ini.Fault)
  | setting (s : Setting) (value : Text) (reason : ChoiceFault)
deriving DecidableEq

def LoadFault.name : LoadFault → Text
  | .file fault => fault.name
  | .setting .. => "ValueError"

def LoadFault.message (file : Text) : LoadFault → Text
  | .file fault => fault.message file
  | .setting s value reason =>
    text "invalid value for " ++ s.group ++ text "." ++ s.option ++ text " : " ++
      value ++ text " (" ++ reason.message ++ text ")"

namespace Sources

def given? (sources : Sources) (name : Text) : Option Text :=
  (sources.environment.find? fun entry => entry.1 = name).map (·.2)

def ini (sources : Sources) : Except Ini.Fault Ini :=
  match sources.file with
  | none => .ok Ini.empty
  | some content => Ini.read content

/-- The text given for a setting, from the first source that has one. -/
def value? (sources : Sources) (ini : Ini) (s : Setting) : Option Text :=
  sources.given? s.dottedName <|> sources.given? s.plainName <|>
    ini.find? s.heading s.option

end Sources

namespace Configuration

def initial : Configuration := ⟨Settings.preset, false⟩

/-- Settings are assigned in turn. Those before a refused value stay assigned. -/
def loadAll (sources : Sources) (ini : Ini) :
    List Setting → Settings → Settings × Except LoadFault Unit
  | [], settings => (settings, .ok ())
  | s :: rest, settings =>
    match sources.value? ini s with
    | none => loadAll sources ini rest settings
    | some value =>
      match s.read value.unquoted with
      | .error reason => (settings, .error (.setting s value reason))
      | .ok choice => loadAll sources ini rest (settings.assign s choice)

def load (sources : Sources) (c : Configuration) : Configuration × Except LoadFault Unit :=
  if c.loaded then (c, .ok ())
  else match sources.ini with
    | .error fault => ({ c with loaded := true }, .error (.file fault))
    | .ok ini =>
      let (settings, result) := loadAll sources ini Setting.every c.settings
      (⟨settings, true⟩, result)

def set (c : Configuration) (s : Setting) (choice : Choice) : Configuration :=
  { c with settings := c.settings.assign s choice }

end Configuration

end RipWire
