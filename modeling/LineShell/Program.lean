import LineShell.Environment
import LineShell.Options
import LineShell.Programs
import LineShell.Text.Quoted

/-!
# Program — a small stock of programs

A shell that runs on a disk in memory needs programs that do so as well: filters over bytes,
printing, and a small script language. A process reads its input, writes to its two sinks, takes
time, and ends with a code, by a signal, or because it took too long. Nothing that is proved about
the shell depends on these programs; they are what `LineShell.Main` is installed with.

- `Descriptors` : which of its feeds and sinks a process uses
- `Child`  : a running process
- `Work`   : a computation of a process, which may end the process
- `Program`: what a process does with its words
-/

namespace LineShell

/-- The places of the input among the feeds, and of the two outputs among the sinks. Both outputs
may stand for one sink. -/
structure Descriptors where
  input : Nat := 0
  out : Nat := 0
  err : Nat := 1
  deriving DecidableEq, Repr

/-- A running process. -/
structure Child where
  /-- The name that it was started by. -/
  name : String
  host : Host
  env : Environment
  /-- The working directory. -/
  cwd : String
  /-- The feeds and sinks that are open. -/
  feeds : List Feed
  sinks : List Sink
  descriptors : Descriptors := {}
  /-- The time that it has taken so far, in nanoseconds. -/
  elapsed : Nat := 0
  /-- The time that it may take. -/
  limit : Option Duration := none

namespace Child

def input (c : Child) : Feed :=
  c.feeds.getD c.descriptors.input (.bytes [])

def setInput (c : Child) (f : Feed) : Child :=
  { c with feeds := c.feeds.set c.descriptors.input f }

def output? (c : Child) : Option Sink :=
  c.sinks[c.descriptors.out]?

def addFeed (c : Child) (f : Feed) : Child :=
  { c with
    feeds := c.feeds ++ [f]
    descriptors := { c.descriptors with input := c.feeds.length } }

end Child

abbrev Work := ExceptT Ending (StateM Child)

abbrev Program := List String → Work Nat

namespace Work

/-! ## Time -/

def spend (nanos : Nat) : Work Unit := do
  let c ← get
  set { c with elapsed := c.elapsed + nanos }
  match c.limit with
  | some limit => if limit.nanos ≤ c.elapsed + nanos then throw .overtime
  | none => return

/-! ## Output -/

def writeTo (place : Nat) (bs : Bytes) : Work (Except Fault Unit) := do
  let c ← get
  match c.sinks[place]? with
  | none => return .ok ()
  | some sink =>
      let (sink, host, result) := sink.write bs c.host
      set { c with sinks := c.sinks.set place sink, host }
      return result

def write (bs : Bytes) : Work (Except Fault Unit) := do
  writeTo (← get).descriptors.out bs

def complain (text : String) : Work Unit := do
  let _ ← writeTo (← get).descriptors.err (Utf8.encode (text ++ "\n"))

def report (text : String) : Work Unit := do
  let c ← get
  complain s!"{c.name}: {text}"

/-- Writes to the output and ends with the given code, or reports why the output fails. -/
def finish (bs : Bytes) (code : Nat) : Work Nat := do
  match ← write bs with
  | .ok () => return code
  | .error fault =>
      report s!"write error: {fault.describe}"
      return 1

/-! ## Input -/

def readInput : Work (Except Fault Bytes) := do
  let c ← get
  match c.input with
  | .bytes bs =>
      set (c.setInput (.bytes []))
      return .ok bs
  | .inherited =>
      set { c with host := { c.host with stdin := [] } }
      return .ok c.host.stdin
  | .file handle =>
      match c.host.disk.readAll handle with
      | .error fault => return .error fault
      | .ok bs =>
          set (c.setInput (.file { handle with position := handle.position + bs.length }))
          return .ok bs

def unread (bs : Bytes) : Work Unit :=
  modify fun c =>
    match c.input with
    | .bytes rest => c.setInput (.bytes (bs ++ rest))
    | .inherited => { c with host := { c.host with stdin := bs ++ c.host.stdin } }
    | .file handle => c.setInput (.file { handle with position := handle.position - bs.length })

/-- The path of an operand as seen from the working directory. An empty operand leads nowhere. -/
def pathOf (operand : String) : Work (Except Fault String) := do
  if operand.isEmpty then return .error .notFound
  return .ok (Path.join (← get).cwd operand)

/-- Opens an operand for reading; a dash is the input, which is open only if it is a file. -/
def handleOf (operand : String) : Work (Option Handle) := do
  let c ← get
  match operand, c.input with
  | "-", .file handle => return some handle
  | "-", _ => return none
  | _, _ =>
      match ← pathOf operand with
      | .ok path => return (c.host.disk.openInput path).toOption
      | .error _ => return none

def readFile (operand : String) : Work (Except Fault Bytes) := do
  match ← pathOf operand with
  | .ok path => return (← get).host.disk.read path
  | .error fault => return .error fault

/-- The bytes of an operand; a dash is the input. -/
def readOperand (operand : String) : Work (Except Fault Bytes) :=
  if operand = "-" then readInput else readFile operand

/-! ## Words that a program does not take -/

def refuse (reason : String) (code : Nat) : Work Nat := do
  let c ← get
  report reason
  complain s!"Try '{c.name} --help' for more information."
  return code

def unknownFlag (flag : String) : String :=
  if flag.startsWith "--" then s!"unrecognized option '{flag}'"
  else
    let letter := String.ofList (flag.toList.drop 1)
    s!"invalid option -- '{letter}'"

end Work

end LineShell
