import LineShell.Session

/-!
# Setup — opening a session

A session starts from the variables of the process, if it is to inherit them, then from a dotenv
file, and then from variables that are given outright; each overrides what comes before it.
-/

namespace LineShell

/-- Which dotenv file a session loads. -/
inductive DotenvChoice where
  | none
  /-- The file `.env` in the working directory. -/
  | standard
  /-- The file at a path. -/
  | file (path : String)
  deriving DecidableEq, Repr

/-- How a session is opened. -/
structure Setup where
  cwd : String
  /-- The variables of the process, if the session inherits them. -/
  inherited : Option (List (Bytes × Bytes)) := some []
  dotenv : DotenvChoice := .standard
  /-- Variables that override all others. -/
  given : List (String × String) := []
  programs : Programs := .bare
  limits : Limits := {}
  policy : Log.Policy := {}
  /-- Builtins besides the standard ones, in the order in which they are added. -/
  builtins : List (String × Builtin) := []

namespace Setup

def textVariables (pairs : List (Bytes × Bytes)) : List (String × String) :=
  pairs.filterMap fun v =>
    match Utf8.decode? v.1, Utf8.decode? v.2 with
    | some name, some value => some (name, value)
    | _, _ => none

def readText (d : Disk) (path : String) : Except Fault String := do
  match Utf8.decode? (← d.read path) with
  | some text => return text
  | none => throw .notText

/-- Loads the dotenv file at a path. A file that is missing is no fault, and one that cannot be read
is passed over with a warning. -/
def loadDotenv (s : Session) (path : String) : Session :=
  let (assignments, events) : List Dotenv.Assignment × List Log.Event :=
    match readText s.scene.host.disk (Path.join s.scene.cwd path) with
    | .ok content =>
        let assignments := Dotenv.parse content
        (assignments, [.loadedDotenvFile path assignments.length])
    | .error .notFound => ([], [])
    | .error fault => ([], [.unreadableDotenvFile path fault])
  let loaded := s.withScene { s.scene with env := s.scene.env.load assignments }
  (events ++ [Log.Event.dotenvLoaded path assignments.length]).foldl Session.noting loaded

/-- A session that has the variables of the process and no others. -/
def fresh (setup : Setup) (host : Host) : Session :=
  let env := Environment.ofList (textVariables (setup.inherited.getD []))
  { scene := { env, cwd := setup.cwd, host }
    table := setup.builtins.foldl (fun t b => t.register b.1 b.2) Builtin.standard
    programs := setup.programs
    limits := setup.limits
    policy := setup.policy }

def loadChosen (setup : Setup) (s : Session) : Session :=
  match setup.dotenv with
  | .none => s
  | .standard => loadDotenv s (Path.join setup.cwd ".env")
  | .file path => loadDotenv s path

def start (setup : Setup) (host : Host) : Session :=
  let loaded := setup.loadChosen (setup.fresh host)
  let env := setup.given.foldl (fun e v => e.set v.1 v.2) loaded.scene.env
  loaded.withScene { loaded.scene with env }

end Setup

end LineShell
