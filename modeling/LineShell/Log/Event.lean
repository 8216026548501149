import LineShell.Duration
import LineShell.Fault
import LineShell.Pipeline.Parser

/-!
# Event — what a session reports while it works

Each kind of event has a level, a message and fields. The texts in the fields are already in the
form in which the policy lets them appear.

- `Log.Event`  : what is reported
- `Log.Record` : an event, with its place among what the error output of the process has taken
-/

namespace LineShell

/-- How a stage of a pipeline ended. -/
inductive Outcome where
  /-- It ran to its end with a status. -/
  | finished (code : Int)
  /-- It asked the session to end. -/
  | exited (code : Int)
  /-- It could not start, and the pipeline stops. -/
  | aborted (code : Int)
  deriving DecidableEq, Repr

def Outcome.render : Outcome → String
  | .finished code => s!"Finished({code})"
  | .exited code => s!"ExitShell({code})"
  | .aborted code => s!"Aborted({code})"

namespace Log

/-- How much an event matters. -/
inductive Level where
  | trace
  | debug
  | warn
  deriving DecidableEq, Repr

def Level.render : Level → String
  | .trace => "TRACE"
  | .debug => "DEBUG"
  | .warn => "WARN"

/-- What a session reports. -/
inductive Event where
  | executingLine (line : String)
  | reading (step : ReadingNote)
  | stageStarting (stage stages : Nat)
  | stageFinished (stage : Nat) (outcome : Outcome)
  | runningCommand (command : String) (args redirects : Nat)
  | openedRedirection (role : Role) (path : String) (append : Bool)
  | descriptorNotConnected (digits : String)
  | expandedVariable (name value : String)
  | spawning (program : String) (args : Nat)
  | spawnFailed (program : String) (fault : Fault)
  | feedEndedEarly (fault : Fault)
  | killedAfterTimeout (program : String) (limit : Duration)
  | exited (program : String) (code : Int)
  | changingDirectory (origin goal : String)
  | unsetVariable (name : String)
  | loadedDotenvFile (path : String) (count : Nat)
  | unreadableDotenvFile (path : String) (fault : Fault)
  | dotenvLoaded (path : String) (loaded : Nat)
  | lineFailed (error : String)
  deriving DecidableEq, Repr

namespace Event

def level : Event → Level
  | .reading _ | .expandedVariable .. | .feedEndedEarly _ | .unsetVariable _ => .trace
  | .descriptorNotConnected _ | .unreadableDotenvFile .. => .warn
  | _ => .debug

/-- The message of an event. -/
def message : Event → String
  | .executingLine _ => "executing line"
  | .reading (.lexed ..) => "lexed tokens"
  | .reading (.parsed _) => "parsed pipeline"
  | .stageStarting .. => "stage starting"
  | .stageFinished .. => "stage finished"
  | .runningCommand .. => "running command"
  | .openedRedirection .. => "opened redirection"
  | .descriptorNotConnected _ => "descriptor redirection is opened but not connected"
  | .expandedVariable .. => "expanded variable"
  | .spawning .. => "spawning"
  | .spawnFailed .. => "spawn failed"
  | .feedEndedEarly _ => "stdin feed ended early"
  | .killedAfterTimeout .. => "killed after timeout"
  | .exited .. => "exited"
  | .changingDirectory .. => "changing directory"
  | .unsetVariable _ => "unset variable"
  | .loadedDotenvFile .. => "loaded dotenv file"
  | .unreadableDotenvFile .. => "ignoring unreadable dotenv file"
  | .dotenvLoaded .. => "dotenv loaded"
  | .lineFailed _ => "line failed"

/-- The fields of an event: their names and texts. -/
def fields : Event → List (String × String)
  | .executingLine line => [("line", line)]
  | .reading (.lexed count depth) => [("count", count.repr), ("depth", depth.repr)]
  | .reading (.parsed stages) => [("stages", stages.repr)]
  | .stageStarting stage stages => [("stage", stage.repr), ("stages", stages.repr)]
  | .stageFinished stage outcome => [("stage", stage.repr), ("outcome", outcome.render)]
  | .runningCommand command args redirects =>
      [("command", command), ("args", args.repr), ("redirects", redirects.repr)]
  | .openedRedirection role path append =>
      [("role", role.render), ("path", path), ("append", if append then "true" else "false")]
  | .descriptorNotConnected digits => [("fd", digits)]
  | .expandedVariable name value => [("name", name), ("value", value)]
  | .spawning program args => [("program", program), ("args", args.repr)]
  | .spawnFailed program fault => [("program", program), ("error", fault.message)]
  | .feedEndedEarly fault => [("error", fault.message)]
  | .killedAfterTimeout program limit => [("program", program), ("limit", limit.render)]
  | .exited program code => [("program", program), ("code", toString code)]
  | .changingDirectory origin goal => [("from", origin), ("to", goal)]
  | .unsetVariable name => [("name", name)]
  | .loadedDotenvFile path count => [("path", path), ("count", count.repr)]
  | .unreadableDotenvFile path fault => [("path", path), ("error", fault.message)]
  | .dotenvLoaded path loaded => [("path", path), ("loaded", loaded.repr)]
  | .lineFailed error => [("error", error)]

end Event

/-- An event that was recorded. -/
structure Record where
  event : Event
  /-- The number of bytes that the error output of the process had taken by then. -/
  told : Nat
  deriving DecidableEq, Repr

end Log
end LineShell
