import LineShell.Builtin.Table
import LineShell.Log.Policy
import LineShell.Programs

/-!
# Session — the state that lines run in

A session keeps the scene that its commands work on, its builtins, the programs that it can start,
its limits and its log policy. Two marks belong to the line that is running: how many substitutions
enclose the present command, and whether one of its expansions failed.

- `Session` : the state
- `Exec`    : a computation of the shell, which may end the line with an error
-/

namespace LineShell

/-- What a run may use. -/
structure Limits where
  /-- How deep substitutions may be nested when they run. -/
  maxDepth : Nat := 64
  /-- How long each program may run. -/
  timeout : Option Duration := none
  deriving DecidableEq, Repr

/-- The state that lines run in. -/
structure Session where
  scene : Scene := {}
  table : Builtin.Table := Builtin.standard
  programs : Programs := .bare
  /-- The number of programs that were launched so far. -/
  launches : Nat := 0
  limits : Limits := {}
  policy : Log.Policy := {}
  /-- The number of substitutions around the present command. -/
  depth : Nat := 0
  /-- Whether an expansion failed, so that the present command must not run. -/
  expansionFailed : Bool := false

namespace Session

/-- How many more substitutions may be entered. -/
def room (s : Session) : Nat :=
  s.limits.maxDepth - s.depth

def withScene (s : Session) (scene : Scene) : Session :=
  { s with scene }

def withHost (s : Session) (host : Host) : Session :=
  { s with scene := { s.scene with host } }

def enter (s : Session) : Session :=
  { s with depth := s.depth + 1 }

def leave (s : Session) : Session :=
  { s with depth := s.depth - 1 }

def noting (s : Session) (event : Log.Event) : Session :=
  { s with scene := s.scene.noting event }

def launching (s : Session) : Session :=
  { s with launches := s.launches + 1 }

end Session

/-- A computation of the shell. What it did before an error stays done. -/
abbrev Exec := ExceptT Error (StateM Session)

namespace Exec

def note (event : Log.Event) : Exec Unit :=
  modify (·.noting event)

/-- A computation whose error is a value, so that what follows it always runs. -/
def observe {α : Type} (x : Exec α) : Exec (Except Error α) := fun s =>
  let (r, s) := x s
  (.ok r, s)

/-- Writes bytes to a sink, and gives the sink after that. -/
def write (sink : Sink) (bs : Bytes) : Exec Sink := do
  let s ← get
  let (sink, host, result) := sink.write bs s.scene.host
  set (s.withHost host)
  match result with
  | .ok () => return sink
  | .error fault => throw (.stream fault)

def report (sink : Sink) (text : String) : Exec Sink :=
  write sink (Utf8.encode (text ++ "\n"))

end Exec

/-- How the streams of a pipeline are connected. -/
structure Wiring where
  /-- Whether the output of the last stage is kept for the caller. -/
  captureOutput : Bool := false
  /-- Whether the error output is kept for the caller. -/
  captureErrors : Bool := false
  /-- Whether the first stage has an empty input, and not that of the process. -/
  emptyInput : Bool := false
  deriving DecidableEq, Repr

namespace Wiring

def terminal : Wiring := {}

def captured : Wiring := ⟨true, true, true⟩

/-- The wiring of a pipeline in a word: its output is kept. -/
def nested (w : Wiring) : Wiring :=
  { w with captureOutput := true }

end Wiring

/-- What a pipeline leaves behind. -/
structure Result where
  /-- The output that was kept. -/
  stdout : String := ""
  /-- The error output that was kept. -/
  stderr : String := ""
  /-- The status of the last stage that was started. -/
  code : Int := 0
  /-- The status that the session was asked to end with. -/
  exit : Option Int := none
  deriving DecidableEq, Repr

end LineShell
