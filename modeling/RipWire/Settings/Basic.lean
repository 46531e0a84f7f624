import RipWire.Text.Basic

/-!
# Settings

The options of the program, their default values, and assignments of a value to
every option.
-/

namespace RipWire

inductive Setting where
  | enable
  | level
  | destination
  | all
  | packets
  | parser
  | serializer
  | short
  | traceback
deriving DecidableEq

/-- A switch, or a phrase such as the name of a level. -/
inductive Choice where
  | switch (on : Bool)
  | phrase (value : Text)
deriving DecidableEq

namespace Choice

/-- Any phrase but the empty one turns a switch on. -/
def isOn : Choice → Bool
  | .switch on => on
  | .phrase value => !value.isEmpty

def display : Choice → Text
  | .switch on => if on then text "true" else text "false"
  | .phrase value => value

end Choice

namespace Setting

/-- Every setting, in the order in which they are read and listed. -/
def every : List Setting :=
  [.enable, .level, .destination, .all, .packets, .parser, .serializer, .short, .traceback]

def group : Setting → Text
  | .traceback => "debug"
  | _ => "log"

def option : Setting → Text
  | .enable => "enable"
  | .level => "level"
  | .destination => "destination"
  | .all => "all"
  | .packets => "packets"
  | .parser => "parser"
  | .serializer => "serializer"
  | .short => "short"
  | .traceback => "traceback"

def preset : Setting → Choice
  | .enable => .switch true
  | .level => .phrase (text "INFO")
  | .destination => .phrase (text "stderr")
  | .short => .switch true
  | _ => .switch false

def help : Setting → Text
  | .enable => "enable logging"
  | .level => "lowest level reported (CRITICAL, ERROR, WARNING, INFO or DEBUG)"
  | .destination => "stdout, stderr or file:<path>"
  | .all => "report everything"
  | .packets => "hex dump the packets decoded and encoded"
  | .parser => "report decoding decisions"
  | .serializer => "report encoding decisions"
  | .short => "do not prefix lines with time, pid and level"
  | .traceback => "print the python traceback of failed packets"

def application : Text := "ripcodec"

/-- The section of a configuration file that holds the setting. -/
def heading (s : Setting) : Text :=
  application ++ text "." ++ s.group

/-- The name of the environment variable that holds the setting. -/
def dottedName (s : Setting) : Text :=
  s.heading ++ text "." ++ s.option

/-- The name of the variable with underscores for the points. -/
def plainName (s : Setting) : Text :=
  s.dottedName.map fun c => if c = 46 then 95 else c

theorem mem_every (s : Setting) : s ∈ every := by cases s <;> decide

end Setting

/-- A value for every setting. -/
abbrev Settings := Setting → Choice

namespace Settings

def preset : Settings := Setting.preset

def assign (settings : Settings) (s : Setting) (choice : Choice) : Settings :=
  fun other => if other = s then choice else settings other

theorem assign_self (settings : Settings) (s : Setting) (choice : Choice) :
    settings.assign s choice s = choice := by
  simp [assign]

theorem assign_of_ne {s other : Setting} (settings : Settings) (choice : Choice)
    (different : other ≠ s) : settings.assign s choice other = settings other := by
  simp [assign, different]

/-! ### Listings

The lines of a configuration file, the environment variables, and a description with the
default values. A listing may leave out what has its default value. -/

def listed (settings : Settings) (onlyChanged : Bool) : List Setting :=
  Setting.every.filter fun s => !(onlyChanged && settings s = s.preset)

/-- The heading of a section stands in front of its first setting. -/
def iniLines (settings : Settings) : Text → List Setting → List Text
  | _, [] => []
  | heading, s :: rest =>
    let line := s.option ++ text " = " ++ (settings s).display
    if s.heading = heading then line :: iniLines settings heading rest
    else
      (text "[" ++ s.heading ++ text "]") :: line :: iniLines settings s.heading rest

def asIni (settings : Settings) (onlyChanged : Bool) : List Text :=
  iniLines settings [] (settings.listed onlyChanged)

def asVariables (settings : Settings) (onlyChanged : Bool) : List Text :=
  (settings.listed onlyChanged).map fun s =>
    s.dottedName ++ text "=" ++ (settings s).display

def described : List Text :=
  Setting.every.map fun s =>
    s.heading ++ text "." ++ Text.padRight 12 s.option ++ text " " ++ s.help ++
      text ", default (" ++ s.preset.display ++ text ")"

end Settings

end RipWire
