import RipWire.Text.Basic

/-!
# The commands and their options

Every command has its switches, each with a short and a long spelling, and two
of them take one operand.
-/

namespace RipWire.CommandLine

inductive Switch where
  | help
  | debug
  | traceback
  | indent
  | spaced
  | diff
  | env
deriving DecidableEq

inductive Verb where
  | version
  | env
  | decode
  | encode
deriving DecidableEq

namespace Switch

def letter : Switch → CodePoint
  | .help => 104
  | .debug => 100
  | .traceback => 116
  | .indent => 105
  | .spaced => 115
  | .diff => 100
  | .env => 101

def word : Switch → Text
  | .help => "help"
  | .debug => "debug"
  | .traceback => "traceback"
  | .indent => "indent"
  | .spaced => "spaced"
  | .diff => "diff"
  | .env => "env"

def shortName (s : Switch) : Text :=
  [45, s.letter]

def longName (s : Switch) : Text :=
  45 :: 45 :: s.word

/-- Both spellings, as errors name a switch. -/
def title (s : Switch) : Text :=
  s.shortName ++ text "/" ++ s.longName

def explanation : Switch → Text
  | .help => "show this help message and exit"
  | .debug => "log everything at debug level"
  | .traceback => "show the python traceback of failures"
  | .indent => "indent the JSON output"
  | .spaced => "separate every byte with a space"
  | .diff => "only show the values which are not the default"
  | .env => "use the environment variable syntax"

end Switch

namespace Verb

def every : List Verb := [.version, .env, .decode, .encode]

def name : Verb → Text
  | .version => "version"
  | .env => "env"
  | .decode => "decode"
  | .encode => "encode"

def ofName? (t : Text) : Option Verb :=
  every.find? fun verb => verb.name = t

def switches : Verb → List Switch
  | .version => [.help]
  | .env => [.help, .diff, .env]
  | .decode => [.help, .debug, .traceback, .indent]
  | .encode => [.help, .debug, .traceback, .spaced]

/-- The name of the operand and its description. -/
def operand? : Verb → Option (Text × Text)
  | .decode =>
    some (text "payload", text "RIP packet in hexadecimal (default: one per line on stdin)")
  | .encode => some (text "packet", text "JSON packet or list of packets (default: stdin)")
  | _ => none

def summary : Verb → Text
  | .version => "report the ripcodec version"
  | .env => "show the ripcodec configuration"
  | .decode => "decode hexadecimal RIP packets into JSON"
  | .encode => "encode JSON RIP packets into hexadecimal"

def description : Verb → Text
  | .version => "print the ripcodec, python and system versions"
  | .env => "print the ripcodec configuration, as an INI file or as environment variables"
  | .decode => "decode hexadecimal RIP packets, printing one JSON document per packet"
  | .encode => "encode RIP packets described in JSON, printing their hexadecimal wire format"

theorem ofName?_name (verb : Verb) : ofName? verb.name = some verb := by
  cases verb <;> decide

end Verb

/-- The part of the command line that is read with one set of switches: what stands in front of
the command, or what follows it. -/
inductive Scope where
  | main
  | inside (verb : Verb)
deriving DecidableEq

namespace Scope

def application : Text := "ripcodec"

def program : Scope → Text
  | .main => application
  | .inside verb => application ++ text " " ++ verb.name

def switches : Scope → List Switch
  | .main => [.help]
  | .inside verb => verb.switches

def description : Scope → Text
  | .main => "RIP version 1 and 2 packet encoder and decoder"
  | .inside verb => verb.description

end Scope

/-- The commands between braces. -/
def verbChoice : Text :=
  text "\x7b" ++ Text.join (text ",") (Verb.every.map Verb.name) ++ text "\x7d"

end RipWire.CommandLine
