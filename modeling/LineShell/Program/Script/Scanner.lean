import LineShell.Program.Script
import LineShell.Text.Space

/-!
# Scanner — the symbols of a script

The symbols are found in one pass over the characters, each with the line that it ends on.

- `Script.Symbol` : words, operators, and the end
- `Script.Scanner` : where in a text the pass is
- `Script.scan`   : all symbols of a text
-/

namespace LineShell
namespace Script

/-- What a text is made of. -/
inductive Symbol where
  | term (t : Term)
  | redirect (descriptor : Nat) (sign : Sign)
  | newline
  | semicolon
  | background
  | bar
  | both
  | either
  | openGroup
  | closeGroup
  /-- A word that does not end, and what is missing. -/
  | broken (reason : String)
  | finish
  deriving DecidableEq, Repr

/-- A symbol and the line that it ends on. -/
structure Placed where
  symbol : Symbol
  line : Nat
  deriving DecidableEq, Repr

/-- Where in a text the scanner is. -/
inductive Mode where
  | plain
  | single
  | double
  | escape (quoted : Bool)
  | dollar (quoted : Bool)
  | name (chars : List Char) (quoted : Bool)
  | brace (chars : List Char) (quoted : Bool)
  /-- Inside a script that is to be replaced by what it prints: how many parentheses are open, and
  the quote that is going on. -/
  | nested (chars : List Char) (depth : Nat) (quote : Option Char) (quoted : Bool)
  | comment
  deriving DecidableEq, Repr

/-- A scanner: the symbols so far and the pieces of the word that is going on, both last first. -/
structure Scanner where
  found : List Placed := []
  word : Option (List Piece) := none
  mode : Mode := .plain
  /-- Whether the character before was an operator. -/
  joins : Bool := false
  line : Nat := 1

namespace Scanner

def emit (s : Scanner) (symbol : Symbol) : Scanner :=
  { s with found := ⟨symbol, s.line⟩ :: s.found }

def amend (s : Scanner) (symbol : Symbol) : Scanner :=
  { s with found := ⟨symbol, s.line⟩ :: s.found.tail }

/-- Adds a piece to the word. -/
def push (s : Scanner) (p : Piece) : Scanner :=
  let pieces :=
    match s.word.getD [], p with
    | .text a q :: rest, .text b r =>
        if q = r then .text (a ++ b) q :: rest else p :: .text a q :: rest
    | rest, _ => p :: rest
  { s with word := some pieces, joins := false }

def pushChar (s : Scanner) (c : Char) (quoted : Bool) : Scanner :=
  s.push (.text (String.ofList [c]) quoted)

def endWord (s : Scanner) : Scanner :=
  match s.word with
  | some pieces => { s.emit (.term pieces.reverse) with word := none, joins := false }
  | none => { s with joins := false }

def descriptor? (s : Scanner) : Option Nat :=
  match s.word with
  | some [.text text false] =>
      match text.toList with
      | [c] => if c.isDigit then some (c.toNat - 48) else none
      | _ => none
  | _ => none

def addOperator (s : Scanner) (symbol : Symbol) : Scanner :=
  { s.emit symbol with joins := true }

def redirection (s : Scanner) (standard : Nat) (sign : Sign) : Scanner :=
  match s.descriptor? with
  | some n => { s with word := none }.addOperator (.redirect n sign)
  | none => s.endWord.addOperator (.redirect standard sign)

def startOperator (s : Scanner) : Char → Scanner
  | '>' => s.redirection 1 .output
  | '<' => s.redirection 0 .input
  | '|' => s.endWord.addOperator .bar
  | '(' => s.endWord.addOperator .openGroup
  | ')' => s.endWord.addOperator .closeGroup
  | '&' => s.endWord.addOperator .background
  | ';' => s.endWord.addOperator .semicolon
  | _ => s.endWord.addOperator .newline

def operator (s : Scanner) (c : Char) : Scanner :=
  match c, s.found.head?.map Placed.symbol, s.joins && s.word.isNone with
  | '>', some (.redirect n .output), true => s.amend (.redirect n .append)
  | '&', some (.redirect n .output), true => s.amend (.redirect n .same)
  | '|', some .bar, true => s.amend .either
  | '&', some .background, true => s.amend .both
  | _, _, _ => s.startOperator c

def isNameChar (c : Char) : Bool := c.isAlphanum || c == '_'

def plain (s : Scanner) (c : Char) : Scanner :=
  if c = ' ' ∨ c = '\t' then s.endWord
  else if ['>', '<', '|', '&', '(', ')', ';', '\n'].contains c then s.operator c
  else if c = '\'' then { s.push (.text "" true) with mode := .single }
  else if c = '"' then { s.push (.text "" true) with mode := .double }
  else if c = '\\' then { s with mode := .escape false }
  else if c = '$' then { s with mode := .dollar false }
  else if c = '#' ∧ s.word.isNone then { s with mode := .comment }
  else s.pushChar c false

def double (s : Scanner) (c : Char) : Scanner :=
  if c = '"' then { s with mode := .plain }
  else if c = '\\' then { s with mode := .escape true }
  else if c = '$' then { s with mode := .dollar true }
  else { s.pushChar c true with mode := .double }

def resume (s : Scanner) (quoted : Bool) (c : Char) : Scanner :=
  if quoted then double { s with mode := .double } c else plain { s with mode := .plain } c

def outer (quoted : Bool) : Mode := if quoted then .double else .plain

def inside (s : Scanner) (chars : List Char) (depth : Nat) (quote : Option Char) (quoted : Bool)
    (c : Char) : Scanner :=
  let goOn := fun (depth : Nat) (quote : Option Char) =>
    { s with mode := .nested (c :: chars) depth quote quoted }
  match quote with
  | some q => goOn depth (if c = q then none else quote)
  | none =>
      if c = '\'' ∨ c = '"' then goOn depth (some c)
      else if c = '(' then goOn (depth + 1) none
      else if c ≠ ')' then goOn depth none
      else if depth = 0 then
        { s.push (.output (String.ofList chars.reverse) quoted) with mode := outer quoted }
      else goOn (depth - 1) none

def take (s : Scanner) (c : Char) : Scanner :=
  match s.mode with
  | .plain => s.plain c
  | .double => s.double c
  | .single => if c = '\'' then { s with mode := .plain } else s.pushChar c true
  | .comment => if c = '\n' then { s with mode := .plain }.operator c else s
  | .escape false =>
      if c = '\n' then { s with mode := .plain } else { s.pushChar c true with mode := .plain }
  | .escape true =>
      if c = '\n' then { s with mode := .double }
      else if ['$', '"', '\\', '\x60'].contains c then { s.pushChar c true with mode := .double }
      else { (s.pushChar '\\' true).pushChar c true with mode := .double }
  | .dollar q =>
      if c = '{' then { s with mode := .brace [] q }
      else if c = '(' then { s with mode := .nested [] 0 none q }
      else if c.isAlpha || c == '_' then { s with mode := .name [c] q }
      else if c.isDigit || ['@', '*', '#', '?', '$', '!', '-'].contains c then
        { s.push (.param (String.ofList [c]) q) with mode := outer q }
      else (s.pushChar '$' q).resume q c
  | .name chars q =>
      if isNameChar c then { s with mode := .name (c :: chars) q }
      else (s.push (.param (String.ofList chars.reverse) q)).resume q c
  | .brace chars q =>
      if c = '}' then { s.push (.param (String.ofList chars.reverse) q) with mode := outer q }
      else { s with mode := .brace (c :: chars) q }
  | .nested chars depth quote q => s.inside chars depth quote q c

def step (s : Scanner) (c : Char) : Scanner :=
  let after := s.take c
  if c = '\n' then { after with line := after.line + 1 } else after

def openQuotes : Symbol := .broken "Unterminated quoted string"

def symbols (s : Scanner) : List Placed :=
  let last :=
    match s.mode with
    | .plain | .comment => s.endWord
    | .name chars false => (s.push (.param (String.ofList chars.reverse) false)).endWord
    | .dollar false => (s.pushChar '$' false).endWord
    | .escape false => (s.pushChar '\\' true).endWord
    | .brace _ false => s.emit (.broken "Missing '\x7d'")
    | .nested _ _ none false => s.emit (.broken "end of file unexpected (expecting \")\")")
    | _ => s.emit openQuotes
  (last.emit .finish).found.reverse

end Scanner

def scan (text : String) : List Placed :=
  (text.toList.foldl Scanner.step {}).symbols

end Script
end LineShell
