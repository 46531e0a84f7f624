import RipWire.Settings.Configuration

/-!
# Sessions

What happens to a configuration while a process runs. Variables are set and
unset, the configuration file is written, settings are assigned unchecked, and
the configuration is loaded or goes back to the default values.
-/

namespace RipWire

namespace Sources

def unsetVariable (sources : Sources) (name : Text) : Sources :=
  { sources with environment := sources.environment.filter fun entry => entry.1 ≠ name }

def setVariable (sources : Sources) (name value : Text) : Sources :=
  { sources with environment := (name, value) :: (sources.unsetVariable name).environment }

/-- Another content of the configuration file, or none at all. -/
def writeFile (sources : Sources) (content : Option Text) : Sources :=
  { sources with file := content }

end Sources

structure Session where
  sources : Sources
  configuration : Configuration

namespace Session

inductive Step where
  | setVariable (name value : Text)
  | unsetVariable (name : Text)
  | writeFile (content : Option Text)
  | assign (s : Setting) (choice : Choice)
  | setup
  | getenv
  | reset
deriving DecidableEq

def initial : Session := ⟨⟨[], none⟩, .initial⟩

def load (session : Session) : Session × Except LoadFault Unit :=
  let (configuration, result) := session.configuration.load session.sources
  ({ session with configuration }, result)

/-- Only a load can fail. The configuration is loaded by `getenv` as by `setup`. -/
def step (session : Session) : Step → Session × Except LoadFault Unit
  | .setVariable name value =>
    ({ session with sources := session.sources.setVariable name value }, .ok ())
  | .unsetVariable name =>
    ({ session with sources := session.sources.unsetVariable name }, .ok ())
  | .writeFile content => ({ session with sources := session.sources.writeFile content }, .ok ())
  | .assign s choice =>
    ({ session with configuration := session.configuration.set s choice }, .ok ())
  | .setup => session.load
  | .getenv => session.load
  | .reset => ({ session with configuration := .initial }, .ok ())

/-- A session goes on behind a step that has failed. -/
def run : Session → List Step → Session
  | session, [] => session
  | session, step :: rest => run (session.step step).1 rest

end Session

end RipWire
