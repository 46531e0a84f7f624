import RipWire.Text.Basic

/-!
# Levels and sources

How severe a line of the log is, and which part of the program it comes from.
-/

namespace RipWire.Log

inductive Level where
  | debug
  | info
  | warning
  | error
  | critical
deriving DecidableEq

namespace Level

def severity : Level → Nat
  | .debug => 10
  | .info => 20
  | .warning => 30
  | .error => 40
  | .critical => 50

def name : Level → Text
  | .debug => "DEBUG"
  | .info => "INFO"
  | .warning => "WARNING"
  | .error => "ERROR"
  | .critical => "CRITICAL"

/-- The lowest severity that passes, by the name of a level. Without a level of its own a log
passes warnings. -/
def threshold? (t : Text) : Option Nat :=
  if t = text "DEBUG" then some 10
  else if t = text "INFO" then some 20
  else if t = text "WARNING" ∨ t = text "WARN" ∨ t = text "NOTSET" then some 30
  else if t = text "ERROR" then some 40
  else if t = text "CRITICAL" ∨ t = text "FATAL" then some 50
  else none

theorem threshold?_name (level : Level) : threshold? level.name = some level.severity := by
  cases level <;> decide

end Level

inductive Source where
  | parser
  | serializer
  | wire
  | cli
deriving DecidableEq

namespace Source

def every : List Source := [.parser, .serializer, .wire, .cli]

def name : Source → Text
  | .parser => "parser"
  | .serializer => "serializer"
  | .wire => "wire"
  | .cli => "cli"

def ofName? (t : Text) : Option Source :=
  every.find? fun source => source.name = t

theorem ofName?_name (source : Source) : ofName? source.name = some source := by
  cases source <;> decide

end Source

end RipWire.Log
