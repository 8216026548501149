import LineShell.Program.Script.Builtin
import LineShell.Program.Script.Expansion
import LineShell.Program.Script.Parser
import LineShell.Program.Search

/-!
# Interpreter — running scripts

The commands of a script are its builtins and the programs of the system.

- `Script.run`  : running a script
- `Program.sh`  : the program that reads a script and runs it
-/

namespace LineShell
namespace Script

/-! ## Redirections -/

def connect (descriptor place : Nat) : ScriptWork Unit :=
  modifyProcess fun c =>
    match descriptor with
    | 1 => { c with descriptors := { c.descriptors with out := place } }
    | 2 => { c with descriptors := { c.descriptors with err := place } }
    | _ => c

/-- Why a file cannot be opened, in the words of the script language: `missing` tells that there is
no such file. -/
def openReason (missing : String) (fault : Fault) : String :=
  if fault = .notFound ∨ fault = .notDirectory then missing else fault.describe

def connectFile (descriptor : Nat) (append : Bool) (operand : String) : ScriptWork Bool := do
  let c ← process
  match (← Work.pathOf operand).bind (c.host.disk.openOutput append) with
  | .ok (disk, handle) =>
      modifyProcess fun c =>
        { c with host := { c.host with disk }, sinks := c.sinks ++ [Sink.file handle] }
      connect descriptor c.sinks.length
      return true
  | .error fault =>
      let reason := openReason "Directory nonexistent" fault
      complain s!"cannot create {operand}: {reason}"
      return false

def connectInput (descriptor : Nat) (operand : String) : ScriptWork Bool := do
  let c ← process
  match (← Work.pathOf operand).bind c.host.disk.openInput with
  | .ok handle =>
      if descriptor = 0 then modifyProcess (·.addFeed (.file handle))
      return true
  | .error fault =>
      let reason := openReason "No such file" fault
      complain s!"cannot open {operand}: {reason}"
      return false

def connectSame (descriptor : Nat) (operand : String) : ScriptWork Bool := do
  let c ← process
  match operand with
  | "1" => connect descriptor c.descriptors.out
  | "2" => connect descriptor c.descriptors.err
  | "-" => connect descriptor c.sinks.length
  | _ =>
      complain s!"{operand}: Bad file descriptor"
      return false
  return true

def redirectAll : List Redirect → ScriptWork Bool
  | [] => return true
  | r :: rest => do
      let operand ← expandText r.target
      let done ← match r.sign with
        | .input => connectInput r.descriptor operand
        | .output => connectFile r.descriptor false operand
        | .append => connectFile r.descriptor true operand
        | .same => connectSame r.descriptor operand
      if done then redirectAll rest else return false

/-! ## Programs -/

def searchPath : String := "/usr/local/sbin:/usr/local/bin:/usr/sbin:/usr/bin:/sbin:/bin"

def runProgram (command : String) (args : List String) : ScriptWork Nat := do
  let c ← process
  let path := (← assignedTo? "PATH").getD searchPath
  let found : Except Fault Found := match Search.alongPath c.host.disk c.cwd path command with
    | .error .notExecutable => .ok ⟨"sh", command, none, [command]⟩
    | result => result
  match found with
  | .ok found =>
      match (← get).programs found.program with
      | some program => runApart (found.runner.getD command) (program (found.words ++ args))
      | none => return 127
  | .error fault =>
      let reason := openReason "not found" fault
      complain s!"{command}: {reason}"
      let missing := [Fault.notFound, .notDirectory, .tooManyLinks, .nameTooLong]
      return if missing.contains fault then 127 else 126

/-! ## Commands -/

def assignment? (t : Term) : Option (String × Term) :=
  match t with
  | .text s false :: rest =>
      match Text.cut? '=' s.toList with
      | some (name, value) =>
          if Parser.isName (String.ofList name) then
            some (String.ofList name, .text (String.ofList value) true :: rest)
          else none
      | none => none
  | _ => none

def splitAssignments : List Term → List (String × Term) × List Term
  | [] => ([], [])
  | t :: rest =>
      match assignment? t with
      | some a =>
          let tail := splitAssignments rest
          (a :: tail.1, tail.2)
      | none => ([], t :: rest)

def hasOutput (t : Term) : Bool :=
  t.any fun piece =>
    match piece with
    | .output .. => true
    | _ => false

def assignAll (assignments : List (String × Term)) : ScriptWork Unit :=
  assignments.forM fun a => do assign a.1 (← expandText a.2)

def runWith (assignments : List (String × Term)) (command : String) (args : List String) :
    ScriptWork Nat := do
  let s ← get
  let before ← process
  assignAll assignments
  match builtin? command args with
  | some work =>
      let status ← work
      unless specialBuiltins.contains command do
        modify fun after => { after with assigned := s.assigned }
        modifyProcess fun c => { c with env := before.env }
      return status
  | none =>
      for a in assignments do
        let value ← assignedTo? a.1
        modifyProcess fun c => { c with env := c.env.set a.1 (value.getD "") }
      let status ← runProgram command args
      modify fun after => { after with assigned := s.assigned }
      modifyProcess fun c => { c with env := before.env }
      return status

def runBetween (redirects : List Redirect) (special : Bool) (work : ScriptWork Nat) :
    ScriptWork Nat := do
  let before ← process
  let done ← redirectAll redirects
  if !done && special then throw (.code 2)
  let status ← if done then work else pure 2
  modifyProcess fun c => { c with descriptors := before.descriptors }
  return status

def runSimple (terms : List Term) (redirects : List Redirect) : ScriptWork Nat := do
  let (assignments, rest) := splitAssignments terms
  let words ← expandTerms rest
  match words with
  | [] =>
      runBetween redirects false do
        assignAll assignments
        let s ← get
        return if assignments.any (hasOutput ·.2) then s.status else 0
  | first :: args =>
      runBetween redirects (specialBuiltins.contains first) (runWith assignments first args)

def contained (work : ScriptWork Unit) : ScriptWork Unit := do
  let s ← get
  let before ← process
  let inner : ScriptWork Nat := do
    work
    return (← get).status
  let status ← try inner catch
    | .code n => pure n
    | ending => throw ending
  set { s with status }
  modifyProcess fun c => { c with env := before.env, descriptors := before.descriptors }

def asCondition (work : ScriptWork Unit) : ScriptWork Unit := do
  let before := (← get).tested
  modify fun s => { s with tested := true }
  work
  modify fun s => { s with tested := before }

/-- Runs a script. Its status is what later commands can see. -/
def run : Script → ScriptWork Unit
  | .skip => return
  | .command line terms redirects => do
      modify fun s => { s with line }
      setStatus (← runSimple terms redirects)
      checkStatus
  | .redirected body line redirects => do
      modify fun s => { s with line }
      let status ← runBetween redirects false do
        run body
        return (← get).status
      setStatus status
  | .subshell body => do
      contained (run body)
      checkStatus
  | .background body => do
      contained (run body)
      setStatus 0
  | .seq first second => do
      run first
      run second
  | .both first second => do
      asCondition (run first)
      if (← get).status = 0 then run second
  | .either first second => do
      asCondition (run first)
      if (← get).status ≠ 0 then run second
  | .pipe first second => do
      let before ← process
      let place := before.sinks.length
      modifyProcess fun c => { c with sinks := c.sinks ++ [Sink.memory] }
      connect 1 place
      contained (run first)
      let bytes := ((← process).sinks.getD place Sink.memory).held
      modifyProcess fun c => { c with descriptors := before.descriptors }
      modifyProcess (·.addFeed (.bytes bytes))
      contained (run second)
      modifyProcess fun c => { c with descriptors := before.descriptors }
      checkStatus
  | .forEach name items body => do
      setStatus 0
      for word in ← expandTerms items do
        assign name word
        run body

def runText (text : String) : ScriptWork Unit := do
  let (scripts, flaw) := parse text
  for script in scripts do
    run script
  match flaw with
  | none => return
  | some flaw =>
      modify fun s => { s with line := flaw.line }
      complain s!"Syntax error: {flaw.reason}"
      setStatus 2

end Script

/-! ## The program -/

namespace Program

/-- The working directory as a script shows it: as the variables tell it, if that is where we
are. -/
def shownDirectory (c : Child) : String :=
  match c.env.get? "PWD", c.host.disk.find .entry c.cwd with
  | some path, .ok here =>
      let there := (c.host.disk.find .entry path).toOption.map Prod.fst
      if Path.isAbsolute path && there == some here.1 then path else c.cwd
  | _, _ => c.cwd

/-- How a script is run. -/
structure ScriptFlags where
  /-- Whether the first word is the text of the script. -/
  text : Bool := false
  /-- Whether the script is on the input. -/
  input : Bool := false
  /-- Whether it ends when a command fails. -/
  strict : Bool := false
  deriving DecidableEq, Repr

namespace ScriptFlags

/-- What a letter sets; many of them change nothing here. -/
def set? (f : ScriptFlags) (letter : Char) : Option ScriptFlags :=
  match letter with
  | 'c' => some { f with text := true }
  | 's' => some { f with input := true }
  | 'e' => some { f with strict := true }
  | _ => if "abfimnpquvxCEIV".toList.contains letter then some f else none

def setAll (f : ScriptFlags) : List Char → Except Char ScriptFlags
  | [] => .ok f
  | letter :: rest =>
      match f.set? letter with
      | some f => f.setAll rest
      | none => .error letter

def read (f : ScriptFlags) : List String → Except Char (ScriptFlags × List String)
  | [] => .ok (f, [])
  | word :: rest =>
      match word.toList with
      | ['-'] | ['-', '-'] => .ok (f, rest)
      | '-' :: letters => (f.setAll letters).bind (·.read rest)
      | _ => .ok (f, word :: rest)

end ScriptFlags

def runScript (programs : String → Option Program) (strict : Bool) (name text : String)
    (args : List String) : Work Nat := do
  let directory := shownDirectory (← get)
  let (_, s) ← (Script.runText text).run { name, args, directory, programs, strict }
  return s.status

/-- Runs a script given behind `-c`, in a file, or on the input. -/
def sh (programs : String → Option Program) : Program := fun words => do
  match ScriptFlags.read {} words with
  | .error letter =>
      Work.report s!"0: Illegal option -{String.ofList [letter]}"
      return 2
  | .ok (flags, args) =>
      let c ← get
      let run := runScript programs flags.strict
      match flags.text, flags.input, args with
      | true, _, text :: rest => run (rest.head?.getD c.name) text rest.tail
      | true, _, [] =>
          Work.report "0: -c requires an argument"
          return 2
      | false, false, file :: rest =>
          match ← Work.readFile file with
          | .ok bs => run file (Utf8.decodeLossy bs) rest
          | .error .isDirectory => return 0
          | .error fault =>
              let reason := Script.openReason "No such file" fault
              Work.report s!"0: cannot open {file}: {reason}"
              return 2
      | _, _, args =>
          match ← Work.readInput with
          | .ok bs => run c.name (Utf8.decodeLossy bs) args
          | .error _ => return 0

end Program

end LineShell
