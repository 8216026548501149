import LineShell.Pipeline

/-!
# Printer — pipelines as text

A pipeline is printed as a line that reads back as the same pipeline, as long as its texts hold no
character with a meaning. Stages are separated by bars, redirections follow the arguments in role
order, and variables are written with braces.
-/

namespace LineShell

/-- The operator that a redirection is written with. -/
def redirectionSign (role : Role) (append : Bool) : String :=
  let out := if append then ">>" else ">"
  match role with
  | .stdin => "<"
  | .stdout => out
  | .stderr => "2" ++ out
  | .descriptor digits => digits ++ out

mutual

def Part.chars : Part → List Char
  | .text s => s.toList
  | .var name => '$' :: '{' :: name.toList ++ ['}']
  | .substitution stages => '$' :: '(' :: stagesChars stages ++ [')']

def wordChars : List Part → List Char
  | [] => []
  | p :: rest => p.chars ++ wordChars rest

def argsChars : List (List Part) → List Char
  | [] => []
  | w :: rest => ' ' :: wordChars w ++ argsChars rest

def redirectionChars : Redirection (List Part) → List Char
  | ⟨role, append, target⟩ =>
      ' ' :: (redirectionSign role append).toList ++ ' ' :: wordChars target

def redirectionsChars : List (Redirection (List Part)) → List Char
  | [] => []
  | r :: rest => redirectionChars r ++ redirectionsChars rest

def stageChars : Stage (List Part) → List Char
  | ⟨name, args, redirections⟩ =>
      wordChars name ++ argsChars args ++ redirectionsChars redirections

def stagesChars : List (Stage (List Part)) → List Char
  | [] => []
  | s :: rest => stageChars s ++ laterStagesChars rest

def laterStagesChars : List (Stage (List Part)) → List Char
  | [] => []
  | s :: rest => ' ' :: '|' :: ' ' :: stageChars s ++ laterStagesChars rest

end

def Word.render (w : Word) : String :=
  String.ofList (wordChars w)

def Pipeline.render (p : Pipeline) : String :=
  String.ofList (stagesChars p)

end LineShell
