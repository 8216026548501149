import LineShell.Text.Space
import LineShell.Text.Utf8

/-!
# Dotenv — assignments in a file

Each line of a dotenv file is an assignment, a comment or nothing. Lines that are no assignment are
passed over, so reading never fails.

- `Dotenv.parse`       : the assignments of a file, in order, repeats kept
- `Dotenv.parseLine?`  : the assignment on a line
- `Dotenv.parseValue`  : a value, quoted or not
-/

namespace LineShell
namespace Dotenv

abbrev Assignment := String × String

def isKey : List Char → Bool
  | [] => false
  | c :: cs => (c.isAlpha || c == '_') && cs.all fun d => d.isAlphanum || d == '_'

/-! ## Values -/

def unescape : Char → Char
  | 'n' => '\n'
  | 'r' => '\r'
  | 't' => '\t'
  | c => c

/-- The text up to the closing quote, if there is one. Between double quotes a backslash escapes. -/
def quoted? (quote : Char) : List Char → Option (List Char)
  | [] => none
  | c :: cs =>
      if c = quote then some []
      else if c == '\\' && quote == '"' then
        match cs with
        | [] => none
        | d :: ds => (quoted? quote ds).map (unescape d :: ·)
      else (quoted? quote cs).map (c :: ·)

/-- The text before a comment. A comment starts at a number sign behind white space; `afterSpace`
tells whether white space, or nothing, comes before the text. -/
def beforeComment (afterSpace : Bool) : List Char → Option (List Char)
  | [] => none
  | c :: cs =>
      if c = '#' ∧ afterSpace then some []
      else (beforeComment (Text.isSpace c) cs).map (c :: ·)

def plainValue (cs : List Char) : List Char :=
  match beforeComment true cs with
  | some before => Text.trimEnd before
  | none => cs

/-- A value as it stands behind the equals sign. A quote that is never closed is plain text. -/
def parseValue (raw : List Char) : List Char :=
  let cs := Text.trim raw
  match cs with
  | '"' :: rest => (quoted? '"' rest).getD (plainValue cs)
  | '\'' :: rest => (quoted? '\'' rest).getD (plainValue cs)
  | _ => plainValue cs

/-! ## Lines -/

def exportWord : List Char := ['e', 'x', 'p', 'o', 'r', 't', ' ']

/-- A line without the leading word `export`. -/
def dropExport (line : List Char) : List Char :=
  if exportWord.isPrefixOf line then Text.trimStart (line.drop exportWord.length) else line

/-- The assignment on a line. -/
def parseLine? (raw : List Char) : Option Assignment :=
  let line := Text.trim raw
  if line.isEmpty || line.head? == some '#' then none
  else do
    let (key, value) ← Text.cut? '=' (dropExport line)
    let key := Text.trim key
    if isKey key then some (String.ofList key, String.ofList (parseValue value)) else none

def parse (content : String) : List Assignment :=
  (Text.splitOn '\n' content.toList).filterMap parseLine?

end Dotenv
end LineShell
