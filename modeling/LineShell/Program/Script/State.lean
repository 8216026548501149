import LineShell.Program.Plain
import LineShell.Program.Script

/-!
# State — what a running script holds

A script runs inside one process, and shares its input and its sinks with the programs that it runs.

- `ScriptState` : parameters, variables and the last status
- `ScriptWork`  : a computation of a script
- `Script.runApart` : running a program as a process of its own
-/

namespace LineShell

/-- The state of a running script. -/
structure ScriptState where
  /-- The name that the script was started by. -/
  name : String
  args : List String
  /-- The working directory, as the script shows it. -/
  directory : String
  /-- The programs of the system by name. -/
  programs : String → Option Program
  assigned : List (String × String) := []
  status : Nat := 0
  /-- The line of the command that is running. -/
  line : Nat := 1
  /-- Whether the script ends when a command fails. -/
  strict : Bool := false
  /-- Whether the status of the command that is running is a condition. -/
  tested : Bool := false

abbrev ScriptWork := StateT ScriptState Work

namespace Script

def process : ScriptWork Child := (get : Work Child)

def modifyProcess (f : Child → Child) : ScriptWork Unit := (modify f : Work Unit)

def setStatus (status : Nat) : ScriptWork Unit := modify fun s => { s with status }

def checkStatus : ScriptWork Unit := do
  let s ← get
  if s.strict && !s.tested && s.status != 0 then throw (.code s.status)

def complain (text : String) : ScriptWork Unit := do
  let s ← get
  Work.complain s!"{s.name}: {s.line}: {text}"

/-! ## Variables -/

def processNumber : String := "4242"

def assignedTo? (name : String) : ScriptWork (Option String) := do
  match (← get).assigned.lookup name with
  | some value => return some value
  | none => return (← process).env.get? name

def valueOf (name : String) : ScriptWork String := do
  let s ← get
  match name with
  | "?" => return s.status.repr
  | "$" => return processNumber
  | "#" => return s.args.length.repr
  | "0" => return s.name
  | "@" | "*" => return " ".intercalate s.args
  | "PWD" => return s.directory
  | _ =>
      match Program.number? name.toList with
      | some n => return s.args.getD (n - 1) ""
      | none => return (← assignedTo? name).getD ""

/-- Assigns a variable. The programs that the script runs see it if they saw it before. -/
def assign (name value : String) : ScriptWork Unit := do
  modify fun s => { s with assigned := (name, value) :: s.assigned.filter (·.1 != name) }
  modifyProcess fun c => if c.env.contains name then { c with env := c.env.set name value } else c

/-! ## Processes of their own -/

def signalText : Nat → Option String
  | 1 => some "Hangup"
  | 3 => some "Quit"
  | 4 => some "Illegal instruction"
  | 6 => some "Aborted"
  | 8 => some "Floating point exception"
  | 9 => some "Killed"
  | 10 => some "User defined signal 1"
  | 11 => some "Segmentation fault"
  | 12 => some "User defined signal 2"
  | 14 => some "Alarm clock"
  | 15 => some "Terminated"
  | _ => none

/-- Runs a program as a process of its own, which shares the feeds, the sinks and the time. -/
def runApart (name : String) (program : Work Nat) : ScriptWork Nat := do
  let before ← process
  modifyProcess fun c => { c with name }
  let status ← try (program : Work Nat) catch
    | .code n => pure n
    | .signal n => do
        match signalText n with
        | some text => (Work.complain text : Work Unit)
        | none => pure ()
        pure (128 + n)
    | .overtime => throw .overtime
  modifyProcess fun c =>
    { c with
      name := before.name
      env := before.env
      cwd := before.cwd
      descriptors := before.descriptors }
  return status

end Script
end LineShell
