/-!
# Token — the lexical units of a command line

A line is read as words, pipes and redirection operators. This module holds the tokens themselves
and the places in a line at which they start and stop; `LineShell.Token.Lexer` finds them.

- `Position` : a place in a line, in characters and in bytes
- `Token`    : a lexical unit, with `Token.render` giving back its text
- `Lexeme`   : a token together with the places it spans
-/

namespace LineShell

/-! ## Places in a line -/

/-- A place in a line: the column counts characters from 1, the offset counts UTF-8 bytes from 0. -/
structure Position where
  column : Nat
  offset : Nat
  deriving DecidableEq, Repr

namespace Position

def start : Position := ⟨1, 0⟩

def advance (p : Position) (c : Char) : Position :=
  ⟨p.column + 1, p.offset + c.utf8Size⟩

def past (p : Position) (cs : List Char) : Position :=
  cs.foldl advance p

@[simp] theorem past_nil (p : Position) : p.past [] = p := rfl

@[simp] theorem past_cons (p : Position) (c : Char) (cs : List Char) :
    p.past (c :: cs) = (p.advance c).past cs := rfl

/-- The position behind two texts is that of the second, counted from behind the first. -/
theorem past_append (p : Position) (as bs : List Char) :
    p.past (as ++ bs) = (p.past as).past bs := by
  simp [past, List.foldl_append]

end Position

/-! ## Tokens -/

/-- A lexical unit of a line. -/
inductive Token where
  /-- A word with its quotes removed. -/
  | word (text : String)
  /-- The bar between two stages. -/
  | pipe
  /-- Output redirection, to the end of the target when `append` holds. -/
  | output (append : Bool)
  /-- Input redirection. -/
  | input
  /-- Output redirection of the descriptor with these digits. -/
  | descriptor (digits : String) (append : Bool)
  deriving DecidableEq, Repr

namespace Token

def outputSign (append : Bool) : String :=
  if append then ">>" else ">"

/-- The text of a token: an operator as it is written, a word without its quotes. -/
def render : Token → String
  | .word text => text
  | .pipe => "|"
  | .output append => outputSign append
  | .input => "<"
  | .descriptor digits append => digits ++ outputSign append

end Token

/-- A token and the places before its first and behind its last character. -/
structure Lexeme where
  token : Token
  start : Position
  stop : Position
  deriving DecidableEq, Repr

end LineShell
