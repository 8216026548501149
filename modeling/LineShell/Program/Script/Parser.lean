import LineShell.Program.Script.Scanner

/-!
# Parser — reading scripts

A script is read line by line: what stands on a line is run before the next line is read, so a flaw
stops only what comes behind it.

- `Script.Flaw`  : what is wrong with a text
- `Script.Parser` : reading symbols one after the other
- `Script.parse` : the lines of a text up to a flaw, and the flaw
-/

namespace LineShell
namespace Script

/-- What is wrong with a text, and on which line. -/
structure Flaw where
  line : Nat
  reason : String
  deriving DecidableEq, Repr

abbrev Parser := StateT (List Placed) (Except Flaw)

namespace Parser

/-! ## Single symbols -/

def next : Parser Placed := do
  return (← get).headD ⟨.finish, 1⟩

def advance : Parser Unit := modify List.tail

def keyword (s : String) : Symbol := .term [.text s false]

def keywords : List String := ["for", "do", "done", "\x7b", "\x7d"]

def describe (symbol : Symbol) : String :=
  match symbol with
  | .term [.text s false] => if keywords.contains s then s!"\"{s}\"" else "word"
  | .term _ => "word"
  | .redirect .. => "redirection"
  | .newline => "newline"
  | .semicolon => "\";\""
  | .background => "\"&\""
  | .bar => "\"|\""
  | .both => "\"&&\""
  | .either => "\"||\""
  | .openGroup => "\"(\""
  | .closeGroup => "\")\""
  | .broken reason => reason
  | .finish => "end of file"

def unexpected {α : Type} (wanted : Option Symbol) : Parser α := do
  let found ← next
  match found.symbol, wanted with
  | .broken reason, _ => throw ⟨found.line, reason⟩
  | symbol, none => throw ⟨found.line, s!"{describe symbol} unexpected"⟩
  | symbol, some w => throw ⟨found.line, s!"{describe symbol} unexpected (expecting {describe w})"⟩

def expect (symbol : Symbol) : Parser Unit := do
  if (← next).symbol = symbol then advance else unexpected (some symbol)

def skipNewlines : Nat → Parser Unit
  | 0 => return
  | n + 1 => do
      if (← next).symbol = .newline then
        advance
        skipNewlines n

/-! ## Commands -/

def target : Parser Term := do
  match (← next).symbol with
  | .term t =>
      advance
      return t
  | _ => unexpected none

def redirects : Nat → Parser (List Redirect)
  | 0 => return []
  | n + 1 => do
      match (← next).symbol with
      | .redirect descriptor sign =>
          advance
          let t ← target
          return ⟨descriptor, sign, t⟩ :: (← redirects n)
      | _ => return []

def terms : Nat → Parser (List Term)
  | 0 => return []
  | n + 1 => do
      match (← next).symbol with
      | .term t =>
          advance
          return t :: (← terms n)
      | _ => return []

def simple : Nat → List Term → List Redirect → Parser (List Term × List Redirect)
  | 0, ts, rs => return (ts, rs)
  | n + 1, ts, rs => do
      match (← next).symbol with
      | .term t =>
          advance
          simple n (ts ++ [t]) rs
      | .redirect descriptor sign =>
          advance
          let t ← target
          simple n ts (rs ++ [⟨descriptor, sign, t⟩])
      | .openGroup =>
          if ts.length = 1 ∧ rs = [] then
            advance
            unexpected (some .closeGroup)
          else return (ts, rs)
      | .broken _ => unexpected none
      | _ => return (ts, rs)

def isName (s : String) : Bool :=
  match s.toList with
  | [] => false
  | c :: cs => (c.isAlpha || c == '_') && cs.all Scanner.isNameChar

/-- The variable and the words of a loop, which ends with a separator. Without words of its own it
goes over the arguments of the script. -/
def loopHead (size : Nat) : Parser (String × List Term) := do
  let flaw : Flaw := ⟨(← next).line, "Bad for loop variable"⟩
  match (← next).symbol with
  | .term [.text name false] =>
      if !isName name then throw flaw
      advance
      skipNewlines size
      if (← next).symbol = keyword "in" then
        advance
        let items ← terms size
        let after := (← next).symbol
        if after = .newline ∨ after = .semicolon then advance else unexpected none
        return (name, items)
      else
        if (← next).symbol = .semicolon then advance
        return (name, [[.param "@" true]])
  | _ => throw flaw

/-- A command, where `list` reads the commands inside a compound one. -/
def command (size : Nat) (list : Parser Script) : Parser Script := do
  let first ← next
  match first.symbol with
  | .term [.text "for" false] =>
      advance
      let (name, items) ← loopHead size
      skipNewlines size
      expect (keyword "do")
      let body ← list
      expect (keyword "done")
      compound first.line (.forEach name items body)
  | .term [.text "\x7b" false] =>
      advance
      let body ← list
      expect (keyword "\x7d")
      compound first.line body
  | .openGroup =>
      advance
      let body ← list
      expect .closeGroup
      compound first.line (.subshell body)
  | .term [.text s false] => if keywords.contains s then unexpected none else plain first.line
  | .term _ | .redirect .. => plain first.line
  | _ => unexpected none
where
  /-- A compound command with the redirections behind it. -/
  compound (line : Nat) (body : Script) : Parser Script := do
    match ← redirects size with
    | [] => return body
    | rs => return .redirected body line rs
  /-- A simple command. -/
  plain (line : Nat) : Parser Script := do
    let (ts, rs) ← simple size [] []
    return .command line ts rs

/-! ## Lists -/

def joined (part : Parser Script) (joint? : Symbol → Option (Script → Script → Script))
    (size : Nat) :
    Nat → Script → Parser Script
  | 0, script => return script
  | n + 1, script => do
      match joint? (← next).symbol with
      | none => return script
      | some join =>
          advance
          skipNewlines size
          let second ← part
          joined part joint? size n (join script second)

def pipeline (size : Nat) (list : Parser Script) : Parser Script := do
  let joint? : Symbol → Option (Script → Script → Script)
    | .bar => some .pipe
    | _ => none
  joined (command size list) joint? size size (← command size list)

def conditions (size : Nat) (list : Parser Script) : Parser Script := do
  let joint? : Symbol → Option (Script → Script → Script)
    | .both => some .both
    | .either => some .either
    | _ => none
  let script ← joined (pipeline size list) joint? size size (← pipeline size list)
  if (← next).symbol = .background then return .background script else return script

def endsList (symbol : Symbol) : Bool :=
  [.finish, .closeGroup, keyword "do", keyword "done", keyword "\x7d"].contains symbol

def moreCommands (size : Nat) (one : Parser Script) : Nat → Script → Parser Script
  | 0, script => return script
  | n + 1, script => do
      let symbol := (← next).symbol
      if symbol = .newline ∨ symbol = .semicolon ∨ symbol = .background then
        advance
        skipNewlines size
        if endsList (← next).symbol then return script
        let second ← one
        moreCommands size one n (.seq script second)
      else return script

/-- The list inside a compound command, nested to at most so many levels. -/
def nested (size : Nat) : Nat → Parser Script
  | 0 => unexpected none
  | levels + 1 => do
      skipNewlines size
      let one := conditions size (nested size levels)
      let first ← one
      moreCommands size one size first

def moreOfLine (one : Parser Script) : Nat → Script → Parser Script
  | 0, script => return script
  | n + 1, script => do
      match (← next).symbol with
      | .finish => return script
      | .newline =>
          advance
          return script
      | .semicolon | .background =>
          advance
          match (← next).symbol with
          | .finish => return script
          | .newline =>
              advance
              return script
          | _ =>
              let second ← one
              moreOfLine one n (.seq script second)
      | _ => unexpected none

def line (size : Nat) : Parser Script := do
  skipNewlines size
  if (← next).symbol = .finish then return .skip
  let one := conditions size (nested size size)
  let first ← one
  moreOfLine one size first

def lines (size : Nat) : Nat → List Placed → List Script × Option Flaw
  | 0, _ => ([], none)
  | n + 1, symbols =>
      match (line size).run symbols with
      | .error flaw => ([], some flaw)
      | .ok (script, rest) =>
          if script = .skip then ([], none)
          else
            let tail := lines size n rest
            (script :: tail.1, tail.2)

end Parser

def parse (text : String) : List Script × Option Flaw :=
  let symbols := scan text
  Parser.lines symbols.length symbols.length symbols

end Script
end LineShell
