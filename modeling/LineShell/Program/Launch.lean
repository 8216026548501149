import LineShell.Program.Interpreter

/-!
# Launch — starting one of the stock programs

- `Launch.prepare` : what is to run, if it can be started
- `Launch.run`     : running it to its end
- `Programs.stock` : the stock programs as the programs of a system
-/

namespace LineShell

/-! ## All programs -/

namespace Program

def env (programs : String → Option Program) : Program
  | [] => do
      let pairs := (← get).env.pairs
      Work.finish (Utf8.encode (String.join (pairs.map fun v => v.1 ++ "=" ++ v.2 ++ "\n"))) 0
  | name :: args => do
      let c ← get
      let path := (c.env.get? "PATH").getD Script.searchPath
      match Search.alongPath c.host.disk c.cwd path name with
      | .ok found =>
          modify fun c => { c with name := found.runner.getD name }
          match programs found.program with
          | some program => program (found.words ++ args)
          | none => return 127
      | .error fault =>
          Work.report s!"{Quoted.always name}: {fault.describe}"
          return if fault = .notFound then 127 else 126

def ofName : Nat → String → Option Program
  | 0, name => plainPrograms.lookup name
  | levels + 1, name =>
      match name with
      | "sh" => some (sh (ofName levels))
      | "env" => some (env (ofName levels))
      | _ => plainPrograms.lookup name

def names : List String := "env" :: "sh" :: plainPrograms.map Prod.fst

def maxLevels : Nat := 64

end Program

/-! ## Starting one -/

namespace Launch

def assignments (l : Launch) : List String :=
  l.values.map fun v => v.1 ++ "=" ++ v.2

/-- The names and values of the assignments. A name goes up to the first equals sign, whatever it
was when it was set. -/
def received (l : Launch) : List (String × String) :=
  l.assignments.filterMap fun text =>
    (Text.cut? '=' text.toList).map fun p => (String.ofList p.1, String.ofList p.2)

def defaultSearchPath : String := "/bin:/usr/bin"

def find (l : Launch) (d : Disk) : Except Fault Found :=
  Search.alongPath d l.cwd ((l.received.lookup "PATH").getD defaultSearchPath) l.name

/-! ## Limits -/

def hasNul (s : String) : Bool := s.toList.contains '\x00'

def texts (l : Launch) : List String :=
  l.name :: l.args ++ l.values.flatMap fun v => [v.1, v.2]

def maxWord : Nat := 131071

def maxTotal : Nat := 2097152

/-- The number of bytes that words and assignments take, each with an end and a reference to it. The
path of the program is handed too, without a reference. -/
def totalSize (l : Launch) (path : String) : Nat :=
  (l.name :: l.args ++ l.assignments).foldl (fun n text => n + text.utf8ByteSize + 9)
    (path.utf8ByteSize + 1)

def isTooLarge (l : Launch) (path : String) : Bool :=
  (l.args ++ l.assignments).any (maxWord < ·.utf8ByteSize) || maxTotal < l.totalSize path

/-! ## Running -/

def directory (l : Launch) (d : Disk) : Except Fault Route := do
  let (route, e) ← d.find .entry l.cwd
  if e.isDirectory then return route else throw .notDirectory

/-- The program, how it was found, and the directory that it starts in, if it can be started. -/
def prepare (l : Launch) (d : Disk) : Except Fault (Program × Found × Route) := do
  if l.texts.any hasNul then throw .nulInProgram
  let route ← l.directory d
  let found ← l.find d
  if l.isTooLarge found.path then throw .argumentsTooLong
  match Program.ofName Program.maxLevels found.program with
  | some program => return (program, found, route)
  | none => throw .notFound

def pipeCapacity : Nat := 65536

/-- The reason that handing over the input ended in, if the program ended before it had read what
does not fit into the pipe. -/
def unreadOf (ending : Ending) (input : Feed) : Option Int :=
  match ending, input with
  | .overtime, _ => none
  | _, .bytes rest => if pipeCapacity < rest.length then some 32 else none
  | _, _ => none

def writtenTo (c : Child) (place : Nat) : Written :=
  match c.sinks[place]? with
  | some (.buffer bytes) => { bytes }
  | some (.file handle) => { position := handle.position }
  | _ => {}

def departure (c : Child) (ending : Ending) : Departure :=
  { ending
    disk := c.host.disk
    stdin := c.host.stdin, stdout := c.host.stdout, stderr := c.host.stderr
    out := writtenTo c 0, err := writtenTo c 1
    unread := unreadOf ending (c.feeds.getD 0 .inherited) }

/-- Runs the program to its end. Starting it takes a moment, so without any time it does nothing. -/
def run (l : Launch) (h : Host) (input : Feed) (out err : Sink) : Except Fault Departure := do
  let (program, found, route) ← l.prepare h.disk
  let child : Child :=
    { name := found.runner.getD l.name, host := h, env := .ofList l.received
      cwd := Path.absolute route, feeds := [input], sinks := [out, err], limit := l.limit }
  let work : Work Nat := do
    Work.spend 1
    program (found.words ++ l.args)
  match work.run child with
  | (.ok code, child) => return departure child (.code code)
  | (.error ending, child) => return departure child ending

end Launch

def Fault.toStartFault : Fault → StartFault
  | .nulInPath | .nulInProgram => .nul
  | .os code => .os code
  | _ => .os 5

def Programs.stock : Programs where
  start _ launch host input out err :=
    match launch.run host input out err with
    | .ok left => .ok left
    | .error fault => .error fault.toStartFault

end LineShell
