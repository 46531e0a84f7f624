import RipWire.Log.Handler
import RipWire.Log.Message
import RipWire.Settings.Basic

/-!
# The log

The log is silent until it is started. Starting it selects the sources that are
heard and configures a handler; when that fails, the handler in force stays the
one before. A note is spelled only if it is going to be written, and each of its
lines becomes a line of the log.
-/

namespace RipWire

/-- The handler in force and the lowest severity that passes. -/
structure Log.Logger where
  threshold : Nat
  handler : Option Log.Handler

structure Log where
  active : Bool
  enabled : Log.Source → Bool
  logger : Log.Logger

namespace Log

inductive ConfigureFault where
  | destination
  | level
deriving DecidableEq

def ConfigureFault.message : ConfigureFault → Text
  | .destination => "Unable to configure handler 'ripcodec'"
  | .level => "Unable to configure logger 'ripcodec'"

def silent : Log where
  active := false
  enabled := fun _ => false
  logger := ⟨30, none⟩

/-- The outlets once a destination has been opened. -/
def Outlets.opening (outlets : Outlets) : Destination → Outlets
  | .file name => { outlets with files := outlets.files.opened name }
  | _ => outlets

/-- The file of a destination is opened before the level is looked at. -/
def Logger.configure (logger : Logger) (destination level : Text) (short : Bool)
    (outlets : Outlets) : Logger × Outlets × Except ConfigureFault Unit :=
  match Destination.ofText? outlets.outside.opens destination with
  | none => (logger, outlets, .error .destination)
  | some destination =>
    match Level.threshold? level with
    | none => (logger, outlets.opening destination, .error .level)
    | some threshold =>
      (⟨threshold, some ⟨destination, short⟩⟩, outlets.opening destination, .ok ())

def configure (log : Log) (destination level : Text) (short : Bool) (outlets : Outlets) :
    Log × Outlets × Except ConfigureFault Unit :=
  let (logger, outlets, result) := log.logger.configure destination level short outlets
  ({ log with logger }, outlets, result)

def disable (log : Log) : Log :=
  { log with active := false, enabled := fun _ => false }

def hears (settings : Settings) : Source → Bool
  | .parser => (settings .all).isOn || (settings .parser).isOn
  | .serializer => (settings .all).isOn || (settings .serializer).isOn
  | .wire => (settings .all).isOn || (settings .packets).isOn
  | .cli => true

def start (log : Log) (settings : Settings) (outlets : Outlets) :
    Log × Outlets × Except ConfigureFault Unit :=
  if (settings .enable).isOn then
    let (configured, outlets, result) := log.configure (settings .destination).display
      (settings .level).display (settings .short).isOn outlets
    let active := match result with
      | .ok _ => true
      | .error _ => log.active
    ({ configured with active, enabled := hears settings }, outlets, result)
  else (log.disable, outlets, .ok ())

/-- Whether a note is going to be written. -/
def passes (log : Log) (level : Level) (source : Source) : Bool :=
  log.active && log.enabled source && log.logger.threshold ≤ level.severity

def writeLines (stamp : Stamp) (handler : Handler) (level : Level) (source : Source) :
    List Text → Outlets → Outlets
  | [], outlets => outlets
  | line :: rest, outlets =>
    writeLines stamp handler level source rest
      (outlets.send handler.destination (handler.line stamp level source line))

/-- A note is written when it is handed to the handler, whatever its destination makes of it. -/
inductive Emission where
  | unheard
  | written
  | failed (fault : TemplateFault)

def emit (stamp : Stamp) (log : Log) (note : Note) (outlets : Outlets) : Outlets × Emission :=
  if !log.passes note.level note.source then (outlets, .unheard)
  else match note.message.spell with
    | .error fault => (outlets, .failed fault)
    | .ok content =>
      match log.logger.handler with
      | none => (outlets, .written)
      | some handler =>
        (writeLines stamp handler note.level note.source (content.cutAt 10) outlets, .written)

end Log

end RipWire
