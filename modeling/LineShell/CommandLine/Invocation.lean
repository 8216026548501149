import LineShell.CommandLine.Subscriber
import LineShell.Run
import LineShell.Setup

/-!
# Invocation — the shell as a program

Lines run in order with their output going to the streams of the process. A line that fails is
reported and never stops those behind it; a line that runs `exit` is the last.

- `Invocation`  : what the shell is started with
- `Step`     : what a line leaves behind: a status to go on with, or to end with
- `runLine`, `runScript`, `prompt` : one line, many lines, and lines from a terminal
- `Invocation.finish` : the whole program
-/

namespace LineShell
namespace CommandLine

/-- What the shell is started with. -/
structure Invocation where
  args : List String
  /-- The variables of the process. -/
  env : List (Bytes × Bytes)
  cwd : String
  host : Host
  programs : Programs := .bare
  subscriber : Subscriber
  /-- Whether the input is a terminal. -/
  terminalInput : Bool := false

/-! ## Lines -/

/-- What a line leaves behind. -/
inductive Step where
  /-- A status to go on with. -/
  | next (status : Int)
  /-- A status to end with. -/
  | last (status : Int)
  deriving DecidableEq, Repr

def syntaxStatus : Int := 2

def errorStatus : Int := 1

def brokenStatus : Int := 101

/-- The status of a line that ends in an error. -/
def statusOf : Error → Int
  | .malformed _ => syntaxStatus
  | _ => errorStatus

/-- What the error output of the process is told of the error that ends a line. -/
def complaintOf (e : Error) : String :=
  s!"minsh: {e.message}"

/-- A line of text as it is written to the error output of the process. -/
def writeError (h : Host) (text : String) : Host × Except Fault Unit :=
  (Sink.stderr.write (Utf8.encode (text ++ "\n")) h).2

def warn (s : Session) (text : String) : Session :=
  s.withHost (writeError s.scene.host text).1

def showText (h : Host) (text : String) : Host :=
  (Sink.stdout.write (Utf8.encode text) h).2.1

/-- A session that records the error that ended a line, unless the line could not be read. -/
def noteFailure (s : Session) : Error → Session
  | .malformed _ => s
  | e => s.noting (.lineFailed e.message)

/-- Runs one line, and reports the error that ends it. The program breaks down if that cannot be
reported. -/
def runLine (s : Session) (line : String) : Step × Session :=
  match (Session.run line .terminal).run s with
  | (.ok result, s) =>
      match result.exit with
      | some status => (.last status, s)
      | none => (.next result.code, s)
  | (.error e, s) =>
      let s := noteFailure s e
      match (writeError s.scene.host (complaintOf e)).2 with
      | .ok () => (.next (statusOf e), warn s (complaintOf e))
      | .error _ => (.last brokenStatus, warn s (complaintOf e))

/-- Whether a line of a script is passed over: it is blank, or a comment. -/
def isPassedOver (line : String) : Bool :=
  match Text.trimStart line.toList with
  | [] => true
  | c :: _ => c == '#'

/-- Runs lines until one of them ends the session. The result is the last status. -/
def runScript (s : Session) (status : Int) : List String → Int × Session
  | [] => (status, s)
  | line :: rest =>
      if isPassedOver line then runScript s status rest
      else
        match runLine s line with
        | (.next status, s) => runScript s status rest
        | (.last status, s) => (status, s)

def dropReturn (line : List Char) : List Char :=
  match line.reverse with
  | '\r' :: rest => rest.reverse
  | _ => line

/-- The lines of a text. Each ends at a line feed, which a carriage return may come before; the last
may have no end. -/
def linesOf (text : String) : List String :=
  let pieces := Text.splitOn '\n' text.toList
  let ended := pieces.dropLast.map fun piece => String.ofList (dropReturn piece)
  match pieces.getLast? with
  | none | some [] => ended
  | some last => ended ++ [String.ofList last]

/-- A line as it was read, without the line feed at its end and the carriage return before that. -/
def withoutEnd (line : List Char) : List Char :=
  match line.reverse with
  | '\n' :: rest => dropReturn rest.reverse
  | _ => line

/-- The lines of an input. Each is read up to a line feed, and the bytes of each must be text. -/
def linesIn? (input : Bytes) : Option (List String) :=
  (Text.cutAfter 10 input).mapM fun line =>
    (Utf8.decode? line).map fun text => String.ofList (withoutEnd text.toList)

/-! ## A terminal -/

def promptText : String := "minsh> "

/-- Takes the next line from the input of the process. -/
def takeLine (h : Host) : Option String × Host :=
  if h.stdin.isEmpty then (none, h)
  else
    let line := h.stdin.takeWhile (· != 10)
    let rest := h.stdin.drop (line.length + 1)
    (some (String.ofList (dropReturn (Utf8.decodeLossy line).toList)), { h with stdin := rest })

/-- Reads lines from a terminal and runs them, at most so many, until the input or the session
ends. -/
def prompt : Nat → Session → Int → Int × Session
  | 0, s, status => (status, s)
  | turns + 1, s, status =>
      match takeLine (showText s.scene.host promptText) with
      | (none, h) => (status, s.withHost h)
      | (some line, h) =>
          let s := s.withHost h
          if (Text.trim line.toList).isEmpty then prompt turns s status
          else
            match runLine s line with
            | (.next status, s) => prompt turns s status
            | (.last status, s) => (status, s)

/-! ## The program -/

namespace Invocation

def valueOf? (i : Invocation) (name : String) : Option String :=
  (Environment.ofList (Setup.textVariables i.env)).get? name

def colors (i : Invocation) : Bool :=
  let forced := (i.valueOf? "CLICOLOR_FORCE").any (· != "0")
  let ruledOut := (i.valueOf? "NO_COLOR").isSome || i.valueOf? "CLICOLOR" == some "0"
  forced || !ruledOut

def userHome : String := "/root"

def home (i : Invocation) : String :=
  match i.valueOf? "HOME" with
  | some home => if home.isEmpty then userHome else home
  | none => userHome

/-- How the session is opened. -/
def setup (i : Invocation) (a : Arguments) : Setup :=
  { cwd := i.cwd
    inherited := some i.env
    dotenv :=
      if a.noDotenv then .none
      else
        match a.envFile with
        | some path => .file path
        | none => .standard
    programs := i.programs
    limits := { timeout := a.timeout.map Duration.ofSeconds } }

def opened (i : Invocation) (a : Arguments) : Session :=
  (i.setup a).start { i.host with colors := i.colors, home := some i.home }

/-- The status that the system sees. -/
def systemStatus (status : Int) : Nat :=
  (status % 256).toNat

def giveUp (s : Session) (what : String) (fault : Fault) : Int × Session :=
  (1, warn s s!"Error: {what}\n\nCaused by:\n    {fault.message}")

def runFile (s : Session) (path : String) : Int × Session :=
  match Setup.readText s.scene.host.disk (Path.join s.scene.cwd path) with
  | .ok text => runScript s 0 (linesOf text)
  | .error fault => giveUp s s!"Failed to read script: {path}" fault

/-- Runs the lines of the input. They are all read before the first one runs. -/
def runInput (s : Session) : Int × Session :=
  let h := s.scene.host
  match linesIn? h.stdin with
  | some lines => runScript (s.withHost { h with stdin := [] }) 0 lines
  | none => giveUp s "Failed to read stdin" .notText

/-- Does what the command line asks for. -/
def run (i : Invocation) (a : Arguments) : Int × Session :=
  let s := i.opened a
  match a.command, a.script with
  | some line, _ =>
      match runLine s line with
      | (.next status, s) => (status, s)
      | (.last status, s) => (status, s)
  | none, some path => runFile s path
  | none, none =>
      if i.terminalInput then prompt (i.host.stdin.length + 1) s 0 else runInput s

/-- The host after a session, with the records of its events on the error output, each where it was
written. -/
def hostAfter (i : Invocation) (a : Arguments) (s : Session) : Host :=
  let records := i.subscriber.records (i.valueOf? "RUST_LOG") a.debug s.scene.records
  let written := Subscriber.weave s.scene.host.stderr.written 0 records
  { s.scene.host with stderr := { s.scene.host.stderr with written } }

/-- The whole program: the status that the system sees, and the host after it. -/
def finish (i : Invocation) : Nat × Host :=
  match Arguments.read {} i.args with
  | .run a =>
      let (status, s) := i.run a
      (systemStatus status, i.hostAfter a s)
  | .version => (0, showText i.host versionText)
  | .help => (0, showText i.host helpText)
  | .usageError =>
      let h := i.host
      (2, (Sink.stderr.write (Utf8.encode "error: invalid arguments\n") h).2.1)

end Invocation

end CommandLine
end LineShell
