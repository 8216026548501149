import LineShell.Run.Expansion
import LineShell.Run.Opening

/-!
# Stage — running one command

A stage is expanded, then its targets are opened, and then a builtin or a program runs.

- `Input`      : what a stage reads if it has no input redirection
- `runBuiltin` : running a builtin at a desk
- `runProgram` : running a program of the system
- `runStage`   : the whole of it
-/

namespace LineShell

/-- What a stage reads if it has no input redirection. -/
inductive Input where
  /-- The input of the process. -/
  | inherited
  /-- Nothing. -/
  | empty
  /-- What the stage before it wrote. -/
  | piped (bytes : Bytes)
  deriving DecidableEq, Repr

/-- How a stage ended, and its two sinks after that. -/
structure Ended where
  outcome : Outcome
  out : Sink
  err : Sink
  deriving DecidableEq, Repr

/-! ## Sinks of a command -/

namespace Sink

/-- What a command writes to in place of a sink: in place of memory it gets an empty pipe. -/
def handedOut : Sink → Sink
  | .buffer _ => .memory
  | sink => sink

/-- A sink after a command has written to `written` in its place: what went into a pipe is added to
the memory. -/
def receive (sink written : Sink) : Sink :=
  match sink with
  | .buffer bytes => .buffer (bytes ++ written.held)
  | _ => written

end Sink

/-! ## Builtins -/

/-- What a builtin reads: the file of an input redirection, or what is piped to it. The input of the
process is not for builtins. -/
def builtinInput (file : Option Handle) (input : Input) : Exec (Option Bytes) := do
  match file, input with
  | some handle, _ =>
      match (← get).scene.host.disk.readAll handle with
      | .ok bytes => return some bytes
      | .error fault => throw (.stream fault)
  | none, .piped bytes => return some bytes
  | none, _ => return none

/-- Runs a builtin. An error that it throws is reported under its name and makes it fail. -/
def runBuiltin (builtin : Builtin) (name : String) (args : List String) (stdin : Option Bytes)
    (out err : Sink) : Exec Ended := do
  let s ← get
  let (result, desk) := (builtin args stdin).run ⟨s.scene, out.handedOut, err.handedOut⟩
  set (s.withScene desk.scene)
  let out := out.receive desk.out
  let err := err.receive desk.err
  match result with
  | .ok (.code n) => return ⟨.finished n, out, err⟩
  | .ok (.exit n) => return ⟨.exited n, out, err⟩
  | .error e =>
      let err ← Exec.report err s!"{name}: {e.message}"
      return ⟨.finished 1, out, err⟩

/-! ## Programs -/

def notStartedCode : Int := 127

def timedOutCode : Int := 124

/-- What a program reads. -/
def programInput (file : Option Handle) (input : Input) : Feed :=
  match file, input with
  | some handle, _ => .file handle
  | none, .piped bytes => .bytes bytes
  | none, .inherited => .inherited
  | none, .empty => .bytes []

def startMessage : Fault → String
  | .notFound => "command not found"
  | fault => fault.describe

/-- The sink of a program that was stopped: what it had written to a pipe is lost. -/
def Sink.afterStop (before after : Sink) : Sink :=
  match before with
  | .buffer _ => before
  | _ => after

/-- The status of a program that was not stopped: its code, or one if a signal ended it. -/
def Ending.status : Ending → Int
  | .code n => n
  | _ => 1

/-- Records that handing over the bytes that were piped to a program broke off. -/
def noteUnread (input : Feed) (unread : Option Int) : Exec Unit :=
  match input, unread with
  | .bytes _, some code => Exec.note (.feedEndedEarly (.os code))
  | _, _ => pure ()

def Session.launch (s : Session) (name : String) (args : List String) : Launch :=
  ⟨name, args, s.scene.env.pairs, s.scene.cwd, s.limits.timeout⟩

def Session.start (s : Session) (name : String) (args : List String) (input : Feed)
    (out err : Sink) :
    Except StartFault Departure :=
  s.programs.start s.launches (s.launch name args) s.scene.host input out.handedOut err.handedOut

/-- Runs a program of the system. That it cannot be started or takes too long is reported, and shows
in its status. -/
def runProgram (name : String) (args : List String) (input : Feed) (out err : Sink) :
    Exec Ended := do
  let s ← get
  Exec.note (.spawning name args.length)
  modify Session.launching
  match s.start name args input out err with
  | .error fault =>
      Exec.note (.spawnFailed name fault.toFault)
      let err ← Exec.report err s!"minsh: {name}: {startMessage fault.toFault}"
      return ⟨.finished notStartedCode, out, err⟩
  | .ok left =>
      modify (·.withHost (s.scene.host.after left))
      noteUnread input left.unread
      match left.ending, s.limits.timeout with
      | .overtime, some limit =>
          Exec.note (.killedAfterTimeout name limit)
          let err ← Exec.report (err.afterStop (err.after left.err)) s!"minsh: {name}: timed out"
          return ⟨.finished timedOutCode, out.afterStop (out.after left.out), err⟩
      | ending, _ =>
          Exec.note (.exited name ending.status)
          return ⟨.finished ending.status, out.after left.out, err.after left.err⟩

/-! ## Stages -/

/-- Runs the command of a stage once its words are texts and its files are open. -/
def runCommand (stage : Stage String) (files : StageFiles) (input : Input) (out err : Sink) :
    Exec Ended := do
  let s ← get
  let fileOut := (files.stdout.map Sink.file).getD out
  let fileErr := (files.stderr.map Sink.file).getD err
  let ended ← match s.table.lookup stage.name with
    | some builtin => do
        let stdin ← builtinInput files.stdin input
        runBuiltin builtin stage.name stage.args stdin fileOut fileErr
    | none => runProgram stage.name stage.args (programInput files.stdin input) fileOut fileErr
  return ⟨ended.outcome,
    if files.stdout.isSome then out else ended.out,
    if files.stderr.isSome then err else ended.err⟩

/-- Runs a stage. A failed expansion and a target that cannot be opened keep its command from
running, and an empty name stands for no command. -/
def runStage (sub : Substitution) (wiring : Wiring) (command : Command) (input : Input)
    (out err : Sink) : Exec Ended := do
  let (stage, err) ← expandStage sub wiring err command
  if (← get).expansionFailed then
    modify fun s => { s with expansionFailed := false }
    return ⟨.finished 1, out, err⟩
  match ← openAll {} stage.redirections with
  | .error failure =>
      let e := Error.redirect failure.target failure.fault
      let err ← Exec.report err s!"minsh: {e.message}"
      return ⟨.aborted 1, out, err⟩
  | .ok files =>
      if stage.name.isEmpty then return ⟨.finished 0, out, err⟩
      Exec.note (.runningCommand (Log.sanitize stage.name) stage.args.length
        stage.redirections.length)
      runCommand stage files input out err

end LineShell
