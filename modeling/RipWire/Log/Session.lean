import RipWire.Log.Basic

/-!
# The log in a process

What happens to the log while a process runs. Settings change, the log is started with
the settings at hand, or disabled, and it is told messages. A start reads the settings
once: changing them later needs another start. A process finds the same outside all along.
-/

namespace RipWire.Log

structure Session where
  settings : Settings
  log : Log
  outlets : Outlets

namespace Session

/-- A source is given by its name, which may be that of none. -/
inductive Step where
  | adjust (settings : Settings)
  | start
  | disable
  | tell (stamp : Stamp) (level : Level) (source : Text) (message : Message)

inductive Answer where
  | done
  | refused (fault : ConfigureFault)
  | told (emission : Emission)

/-- Before the first start. There may be log files of earlier processes. -/
def initial (settings : Settings) (outlets : Outlets) : Session :=
  ⟨settings, silent, outlets⟩

def step (session : Session) : Step → Session × Answer
  | .adjust settings => ({ session with settings }, .done)
  | .start =>
    match session.log.start session.settings session.outlets with
    | (log, outlets, .ok _) => ({ session with log, outlets }, .done)
    | (log, outlets, .error fault) => ({ session with log, outlets }, .refused fault)
  | .disable => ({ session with log := session.log.disable }, .done)
  | .tell stamp level source message =>
    match Source.ofName? source with
    | none => (session, .told .unheard)
    | some source =>
      let (outlets, emission) := session.log.emit stamp ⟨level, source, message⟩ session.outlets
      ({ session with outlets }, .told emission)

/-- A process goes on behind a start that is refused. -/
def run : Session → List Step → Session
  | session, [] => session
  | session, step :: rest => run (session.step step).1 rest

def answers : Session → List Step → List Answer
  | _, [] => []
  | session, step :: rest => (session.step step).2 :: answers (session.step step).1 rest

end Session

end RipWire.Log
