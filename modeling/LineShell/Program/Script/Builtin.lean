import LineShell.Program.Script.State

/-!
# Builtin — commands of the script language itself

- `Script.builtin?` : the builtin of a name
- `Script.specialBuiltins` : those whose faults end the script
-/

namespace LineShell
namespace Script

/-! ## Signals -/

def signalNames : List String :=
  ["HUP", "INT", "QUIT", "ILL", "TRAP", "ABRT", "BUS", "FPE", "KILL", "USR1", "SEGV", "USR2",
    "PIPE", "ALRM", "TERM", "STKFLT", "CHLD", "CONT", "STOP", "TSTP", "TTIN", "TTOU", "URG", "XCPU",
    "XFSZ", "VTALRM", "PROF", "WINCH", "IO", "PWR", "SYS"]

/-- The signals that a process outlives: none at all, and those that only tell something. -/
def harmlessSignals : List Nat := [0, 17, 18, 23, 28]

def signal? (word : String) : Option Nat :=
  match Program.number? word.toList with
  | some n => if n ≤ 64 then some n else none
  | none => (signalNames.idxOf? (String.ofList (word.toList.map Char.toUpper))).map (· + 1)

def failBuiltin (command reason : String) : ScriptWork Nat := do
  complain s!"{command}: {reason}"
  return 2

def sendSignal (signal : Nat) : List String → ScriptWork Nat
  | [] => return 0
  | target :: rest => do
      if target = processNumber then
        if harmlessSignals.contains signal then sendSignal signal rest
        else throw (.signal signal)
      else if (Program.number? target.toList).isNone then
        failBuiltin "kill" s!"Illegal number: {target}"
      else
        complain "kill: No such process\n"
        let _ ← sendSignal signal rest
        return 1

/-- How `kill` is to be used. -/
def killUsage : String :=
  "Usage: kill [-s sigspec | -signum | -sigspec] [pid | job]... or\nkill -l [exitstatus]"

def kill : List String → ScriptWork Nat
  | [] => failBuiltin "kill" killUsage
  | ["-s"] => failBuiltin "kill" "No arg for -s option"
  | "-s" :: name :: targets =>
      match signal? name, targets with
      | none, _ => failBuiltin "kill" s!"invalid signal number or name: {name}"
      | some _, [] => failBuiltin "kill" killUsage
      | some signal, _ => sendSignal signal targets
  | word :: rest =>
      match word.toList with
      | ['-', '-'] => sendSignal 15 rest
      | '-' :: c :: cs =>
          match signal? (String.ofList (c :: cs)), rest with
          | none, _ => failBuiltin "kill" s!"Illegal option -{String.ofList [c]}"
          | some _, [] => failBuiltin "kill" killUsage
          | some signal, targets => sendSignal signal targets
      | _ => sendSignal 15 (word :: rest)

/-! ## Printing -/

def printOwn (command : String) (bs : Bytes) (status : Nat) : ScriptWork Nat := do
  match ← (Work.write bs : Work (Except Fault Unit)) with
  | .ok () => return status
  | .error _ =>
      complain s!"{command}: {command}: I/O error"
      return 1

def printf : List String → ScriptWork Nat
  | [] | ["--"] => failBuiltin "printf" "usage: printf format [arg ...]"
  | "--" :: format :: args | format :: args => do
      match format.toList with
      | '-' :: c :: _ => failBuiltin "printf" s!"Illegal option -{String.ofList [c]}"
      | _ =>
          let result := Format.print format args
          for text in result.complaints do
            complain s!"printf: {text}"
          let status := if result.failed then 2 else if result.complaints.isEmpty then 0 else 1
          printOwn "printf" result.bytes status

def pwd : List String → ScriptWork Nat := fun args => do
  match args.map String.toList with
  | ('-' :: c :: _) :: _ =>
      if ['P', 'L', '-'].contains c then printOwn "pwd" (Utf8.encode ((← get).directory ++ "\n")) 0
      else failBuiltin "pwd" s!"Illegal option -{String.ofList [c]}"
  | _ => printOwn "pwd" (Utf8.encode ((← get).directory ++ "\n")) 0

/-! ## The script itself -/

/-- The largest number that can be given to `exit`. -/
def maxExit : Nat := 2147483647

def exit : List String → ScriptWork Nat
  | [] => do throw (.code (← get).status)
  | word :: _ => do
      match (Program.number? word.toList).filter (· ≤ maxExit) with
      | some n => throw (.code (n % 256))
      | none =>
          let status ← failBuiltin "exit" s!"Illegal number: {word}"
          throw (.code status)

def shift : ScriptWork Nat := do
  if (← get).args.isEmpty then
    let status ← failBuiltin "shift" "can't shift that many"
    throw (.code status)
  modify fun s => { s with args := s.args.tail }
  return 0

def builtin? (command : String) (args : List String) : Option (ScriptWork Nat) :=
  match command with
  | "exit" => some (exit args)
  | "kill" => some (kill args)
  | ":" | "true" => some (pure 0)
  | "false" => some (pure 1)
  | "echo" => some (printOwn "echo" (Program.scriptEcho args) 0)
  | "printf" => some (printf args)
  | "pwd" => some (pwd args)
  | "shift" => some shift
  | _ => none

def specialBuiltins : List String := [":", "exit", "shift"]

end Script
end LineShell
