import LineShell.Text.Space

/-!
# CommandLine — the words that the shell is started with

The shell runs one line, a script file, or the lines of its input. This module reads the words on
its command line; `LineShell.CommandLine.Invocation` does what they ask for.

- `Arguments`  : what the words ask for
- `Request`    : to run, or to show the version or the help, or that the words are in no order
- `Arguments.read` : reading the words from left to right
-/

namespace LineShell
namespace CommandLine

/-- What the words on the command line ask for. -/
structure Arguments where
  /-- The line to run. -/
  command : Option String := none
  /-- The script file to run. -/
  script : Option String := none
  /-- The dotenv file to load. -/
  envFile : Option String := none
  noDotenv : Bool := false
  /-- The number of seconds that each program may run. -/
  timeout : Option Nat := none
  debug : Bool := false
  deriving DecidableEq, Repr

/-- What is to be done. -/
inductive Request where
  | run (arguments : Arguments)
  | version
  | help
  | usageError
  deriving DecidableEq, Repr

def maxSeconds : Nat := 18446744073709551615

/-- A number of seconds. -/
def seconds? (word : String) : Option Nat :=
  let digits := match word.toList with
    | '+' :: cs => cs
    | cs => cs
  if digits.isEmpty || !digits.all Char.isDigit then none
  else
    let n := digits.foldl (fun n c => n * 10 + (c.toNat - 48)) 0
    if n ≤ maxSeconds then some n else none

namespace Arguments

/-! ## One word -/

/-- Options that take a value. -/
inductive Key where
  | command
  | envFile
  | timeout
  deriving DecidableEq, Repr

/-- Gives an option its value. No option may be given twice, and a path may not be empty. -/
def assign? (a : Arguments) (key : Key) (value : String) : Option Arguments :=
  match key with
  | .command => if a.command.isSome then none else some { a with command := some value }
  | .envFile =>
      if a.envFile.isSome || value.isEmpty then none else some { a with envFile := some value }
  | .timeout =>
      if a.timeout.isSome then none
      else (seconds? value).map fun n => { a with timeout := some n }

/-- Takes the script file; there is only one. -/
def place? (a : Arguments) (word : String) : Option Arguments :=
  if a.script.isSome || word.isEmpty then none else some { a with script := some word }

def switch? (a : Arguments) (name : String) : Option Arguments :=
  match name with
  | "--no-dotenv" => if a.noDotenv then none else some { a with noDotenv := true }
  | "--debug" => if a.debug then none else some { a with debug := true }
  | _ => none

/-- The option with a value that a word names, and the value if it is in the word. -/
def keyed? (word : String) : Option (Key × Option String) :=
  match word.toList with
  | ['-', 'c'] => some (.command, none)
  | '-' :: 'c' :: '=' :: value => some (.command, some (String.ofList value))
  | '-' :: 'c' :: value => some (.command, some (String.ofList value))
  | '-' :: '-' :: rest =>
      let (name, value) := match Text.cut? '=' rest with
        | some (name, value) => (name, some (String.ofList value))
        | none => (rest, none)
      match String.ofList name with
      | "env-file" => some (.envFile, value)
      | "timeout" => some (.timeout, value)
      | _ => none
  | _ => none

def isValue (word : String) : Bool :=
  match word.toList with
  | '-' :: _ :: _ => false
  | _ => true

/-! ## All words -/

/-- The switches that stop the reading. -/
def stopping? (word : String) : Option Request :=
  match word.toList with
  | '-' :: 'h' :: _ => some .help
  | '-' :: 'V' :: _ => some .version
  | _ =>
      match word with
      | "--help" => some .help
      | "--version" => some .version
      | _ => none

def finish (a : Arguments) : Request :=
  if a.noDotenv && a.envFile.isSome then .usageError else .run a

/-- Takes words that can only be the script file. -/
def places (a : Arguments) : List String → Request
  | [] => a.finish
  | word :: rest =>
      match a.place? word with
      | some a => places a rest
      | none => .usageError

/-- Reads words from left to right. -/
def read (a : Arguments) : List String → Request
  | [] => a.finish
  | word :: rest =>
      if word = "--" then a.places rest
      else
        match stopping? word with
        | some request => request
        | none =>
            match keyed? word with
            | some (key, some value) =>
                match a.assign? key value with
                | some a => read a rest
                | none => .usageError
            | some (key, none) =>
                match rest with
                | value :: rest =>
                    match if isValue value then a.assign? key value else none with
                    | some a => read a rest
                    | none => .usageError
                | [] => .usageError
            | none =>
                match if isValue word then a.place? word else a.switch? word with
                | some a => read a rest
                | none => .usageError

end Arguments

/-! ## Texts -/

def versionText : String := "minsh 0.1.0\n"

/-- What is shown as the help. -/
def helpText : String :=
  "Command line front end for the minsh shell\n\n" ++
  "Usage: minsh [OPTIONS] [SCRIPT]\n\n" ++
  "Arguments:\n" ++
  "  [SCRIPT]  Script file to execute\n\n" ++
  "Options:\n" ++
  "  -c <COMMAND>           Execute the given command line\n" ++
  "      --env-file <PATH>  Load variables from this file instead of ./.env\n" ++
  "      --no-dotenv        Do not load a dotenv file\n" ++
  "      --timeout <SECS>   Kill external commands that run longer than this\n" ++
  "      --debug            Enable debug logging\n" ++
  "  -h, --help             Print help\n" ++
  "  -V, --version          Print version\n"

end CommandLine
end LineShell
