import LineShell.Environment
import LineShell.Error
import LineShell.Host
import LineShell.Log.Event

/-!
# Builtin — commands that run inside the shell

A builtin gets its arguments and, if there is any, its input. It may change the variables, the
working directory and the disk, and it writes to two sinks without knowing what they are. It reports
its own failures; an error that it throws is one that it cannot report itself.

- `Scene`      : what a command sees and may change
- `Desk`       : a scene together with the two sinks of a command
- `Action`     : a computation at a desk that may fail
- `Completion` : how a builtin ended
- `Builtin`    : a command
-/

namespace LineShell

/-- What a command sees and may change. -/
structure Scene where
  env : Environment := {}
  /-- The working directory, as an absolute path. -/
  cwd : String := "/"
  host : Host := {}
  /-- What was reported so far. -/
  records : List Log.Record := []

namespace Scene

def journal (s : Scene) : List Log.Event :=
  s.records.map Log.Record.event

def noting (s : Scene) (event : Log.Event) : Scene :=
  { s with records := s.records ++ [⟨event, s.host.stderr.written.length⟩] }

/-- Noting an event puts it behind what the scene has recorded. -/
@[simp] theorem journal_noting (s : Scene) (event : Log.Event) :
    (s.noting event).journal = s.journal ++ [event] :=
  List.map_append

end Scene

/-- The home directory: that of the session if it is set and not empty, else that of the process. -/
def Scene.home (s : Scene) : Option String :=
  match s.env.get? "HOME" with
  | some home => if home.isEmpty then s.host.home else some home
  | none => s.host.home

/-- The path that an operand stands for: a leading tilde is the home directory, and the rest is seen
from the working directory. -/
def Scene.pathOf (s : Scene) (operand : String) : String :=
  Path.resolve s.cwd (Path.expandHome s.home operand)

/-- A scene and the sinks of a command. -/
structure Desk where
  scene : Scene
  out : Sink
  err : Sink

/-- A computation at a desk. What it did before an error stays done. -/
abbrev Action := ExceptT Error (StateM Desk)

namespace Action

/-- Writes bytes to the output. -/
def print (bs : Bytes) : Action Unit := do
  let d ← get
  let (out, host, result) := d.out.write bs d.scene.host
  set { d with out, scene := { d.scene with host } }
  match result with
  | .ok () => return
  | .error fault => throw (.stream fault)

/-- Writes bytes to the error output. -/
def report (bs : Bytes) : Action Unit := do
  let d ← get
  let (err, host, result) := d.err.write bs d.scene.host
  set { d with err, scene := { d.scene with host } }
  match result with
  | .ok () => return
  | .error fault => throw (.stream fault)

def complain (text : String) : Action Unit :=
  report (Utf8.encode (text ++ "\n"))

def note (event : Log.Event) : Action Unit :=
  modify fun d => { d with scene := d.scene.noting event }

def scene : Action Scene :=
  return (← get).scene

def modifyEnv (f : Environment → Environment) : Action Unit :=
  modify fun d => { d with scene := { d.scene with env := f d.scene.env } }

def setDisk (disk : Disk) : Action Unit :=
  modify fun d => { d with scene := { d.scene with host := { d.scene.host with disk } } }

end Action

/-- How a builtin ended. -/
inductive Completion where
  /-- With a status. -/
  | code (n : Int)
  /-- With the wish that the session end with a status. -/
  | exit (n : Int)
  deriving DecidableEq, Repr

namespace Completion

def success : Completion := .code 0
def failure : Completion := .code 1
def usage : Completion := .code 2

end Completion

abbrev Builtin := List String → Option Bytes → Action Completion

end LineShell
