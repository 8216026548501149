/-!
# Pipeline — what a line means before it runs

A line is a pipeline of stages. Each stage is a command: a name, arguments and redirections, all
given as words. A word is a list of parts, and a part may hold a whole pipeline whose output takes
its place.

- `Role`        : the stream a redirection replaces, with the order in which redirections are opened
- `Redirection` : a role, its target and whether output is appended
- `Stage`       : one command, over any kind of word
- `Part`        : a piece of a word
-/

namespace LineShell

/-! ## Streams -/

/-- The stream that a redirection replaces. -/
inductive Role where
  | stdin
  | stdout
  | stderr
  /-- Any other descriptor, kept as it was written. -/
  | descriptor (digits : String)
  deriving DecidableEq, Repr

namespace Role

/-- The role of a descriptor: `0`, `1` and `2` are the standard streams. -/
def ofDigits (digits : String) : Role :=
  if digits = "0" then .stdin
  else if digits = "1" then .stdout
  else if digits = "2" then .stderr
  else .descriptor digits

def render : Role → String
  | .stdin => "stdin"
  | .stdout => "stdout"
  | .stderr => "stderr"
  | .descriptor digits => "fd" ++ digits

/-- The place of a role among the standard streams; numbered descriptors come last. -/
def rank : Role → Nat
  | .stdin => 0
  | .stdout => 1
  | .stderr => 2
  | .descriptor _ => 3

def digits : Role → String
  | .descriptor digits => digits
  | _ => ""

/-- Standard streams come first, in their usual order, then the others by the text of their
digits. -/
def order (a b : Role) : Ordering :=
  (compare a.rank b.rank).then (compare a.digits b.digits)

end Role

/-! ## Commands over words of any kind -/

/-- Where a stream goes to or comes from. For input, `append` has no meaning. -/
structure Redirection (W : Type) where
  role : Role
  append : Bool
  target : W
  deriving Repr

namespace Redirection

/-- Adds a redirection to a list kept in role order. A later one for the same role takes the place
of the earlier. -/
def insert {W : Type} (r : Redirection W) : List (Redirection W) → List (Redirection W)
  | [] => [r]
  | s :: rest =>
      match r.role.order s.role with
      | .lt => r :: s :: rest
      | .eq => r :: rest
      | .gt => s :: insert r rest

end Redirection

/-- One command: its name, its arguments, and its redirections in role order. -/
structure Stage (W : Type) where
  name : W
  args : List W
  redirections : List (Redirection W)
  deriving Repr

/-! ## Words -/

/-- A piece of a word. -/
inductive Part where
  /-- Text that stands for itself. -/
  | text (s : String)
  /-- The value of a variable. -/
  | var (name : String)
  /-- The output of a pipeline. -/
  | substitution (stages : List (Stage (List Part)))

abbrev Word := List Part

abbrev Command := Stage Word

/-- Commands in the order in which they run, each feeding the next. -/
abbrev Pipeline := List Command

namespace Word

def literal? : Word → Option String
  | [] => some ""
  | .text s :: rest => (literal? rest).map (s ++ ·)
  | _ :: _ => none

end Word

end LineShell
