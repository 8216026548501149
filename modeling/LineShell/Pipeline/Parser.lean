import LineShell.Pipeline
import LineShell.Pipeline.Segment

/-!
# Parser — from lexemes to a pipeline

The lexemes of a line are folded into a pipeline from left to right. Each word is split into
segments, and the text of each substitution is read as a line one level deeper. Reading fails in two
ways only: a redirection operator without a target, and substitutions nested too deeply.

- `SyntaxFault`, `SyntaxError` : why and where a line cannot be read
- `Draft`         : the command under construction
- `Draft.read`    : the fold over lexemes, given how to read the text of a substitution
- `parseWithin`   : reading with a bound on the levels of nesting that are left
- `Pipeline.parse`, `Word.parse` : reading a line and a single word
-/

namespace LineShell

/-! ## Errors -/

/-- Why a line cannot be read. -/
inductive SyntaxFault where
  /-- The line ends where the target of a redirection should stand. -/
  | missingTarget (operator : Token)
  /-- Another operator stands where the target of a redirection should stand. -/
  | misplacedToken (operator found : Token)
  /-- A substitution inside too many others. -/
  | tooDeep
  /-- A fault described by its text alone. -/
  | other (text : String)
  deriving DecidableEq, Repr

/-- The description of a fault. -/
def SyntaxFault.message : SyntaxFault → String
  | .missingTarget operator => s!"Expected target after '{operator.render}'"
  | .misplacedToken operator found =>
      s!"Expected target after '{operator.render}', found '{found.render}'"
  | .tooDeep => "command substitution nested too deeply"
  | .other text => text

/-- A fault and the column at which it shows, counted in the innermost text being read. -/
structure SyntaxError where
  fault : SyntaxFault
  column : Nat
  deriving DecidableEq, Repr

/-! ## Words -/

/-- How to read the text of a substitution that stands in a word at the given column. -/
abbrev BodyReader := Nat → List Char → Except SyntaxError Pipeline

def Segment.toPart (sub : BodyReader) (column : Nat) : Segment → Except SyntaxError Part
  | .text cs => .ok (.text (String.ofList cs))
  | .var name => .ok (.var (String.ofList name))
  | .body inner => (sub column inner).map Part.substitution

def readParts (sub : BodyReader) (column : Nat) (raw : String) : Except SyntaxError Word :=
  (Segment.split raw.toList).mapM (Segment.toPart sub column)

/-! ## Commands -/

def Token.redirects? : Token → Option (Role × Bool)
  | .output append => some (.stdout, append)
  | .input => some (.stdin, false)
  | .descriptor digits append => some (Role.ofDigits digits, append)
  | _ => none

/-- The command under construction. -/
structure Draft where
  name : Option Word := none
  args : List Word := []
  redirections : List (Redirection Word) := []

namespace Draft

/-- The first word of a command is its name, the others are its arguments. -/
def addWord (d : Draft) (w : Word) : Draft :=
  match d.name with
  | none => { d with name := some w }
  | some _ => { d with args := d.args ++ [w] }

def redirect (d : Draft) (r : Redirection Word) : Draft :=
  { d with redirections := r.insert d.redirections }

/-- A draft without a name is dropped together with its redirections. -/
def finish (d : Draft) : Pipeline :=
  match d.name with
  | none => []
  | some name => [⟨name, d.args, d.redirections⟩]

/-- Reads the lexemes that follow a draft. -/
def read (sub : BodyReader) (d : Draft) : List Lexeme → Except SyntaxError Pipeline
  | [] => .ok d.finish
  | lexeme :: rest =>
      match lexeme.token, lexeme.token.redirects? with
      | .word raw, _ => do
          let w ← readParts sub lexeme.start.column raw
          read sub (d.addWord w) rest
      | operator, some (role, append) =>
          match rest with
          | [] => .error ⟨.missingTarget operator, lexeme.start.column⟩
          | next :: rest =>
              match next.token with
              | .word raw => do
                  let w ← readParts sub next.start.column raw
                  read sub (d.redirect ⟨role, append, w⟩) rest
              | found => .error ⟨.misplacedToken operator found, lexeme.start.column⟩
      | _, none => do
          let tail ← read sub {} rest
          return d.finish ++ tail

end Draft

/-! ## Lines -/

def maxNesting : Nat := 128

/-- Reads a text in which substitutions may still be nested to the given number of levels. -/
def parseWithin : Nat → List Char → Except SyntaxError Pipeline
  | 0, cs => Draft.read (fun column _ => .error ⟨.tooDeep, column⟩) {} (lex cs)
  | levels + 1, cs => Draft.read (fun _ inner => parseWithin levels inner) {} (lex cs)

def Pipeline.parse (line : String) : Except SyntaxError Pipeline :=
  parseWithin maxNesting line.toList

def Word.parse (raw : String) : Except SyntaxError Word :=
  readParts (fun _ inner => parseWithin (maxNesting - 1) inner) Position.start.column raw

/-! ## Trace of a reading -/

/-- What a reading reports while it goes on. -/
inductive ReadingNote where
  /-- So many lexemes were found in a text inside so many substitutions. -/
  | lexed (count depth : Nat)
  /-- A text was read as a pipeline of so many stages. -/
  | parsed (stages : Nat)
  deriving DecidableEq, Repr

/-- The notes of the substitutions in a list of segments, and whether all of them can be read.
Notes stop at the first text that cannot. -/
def traceSegments (sub : List Char → List ReadingNote × Bool) :
    List Segment → List ReadingNote × Bool
  | [] => ([], true)
  | .body inner :: rest =>
      match sub inner with
      | (notes, false) => (notes, false)
      | (notes, true) =>
          let tail := traceSegments sub rest
          (notes ++ tail.1, tail.2)
  | _ :: rest => traceSegments sub rest

/-- The notes of the words in a list of lexemes, in reading order, up to the first fault. -/
def traceLexemes (sub : List Char → List ReadingNote × Bool) :
    List Lexeme → List ReadingNote × Bool
  | [] => ([], true)
  | lexeme :: rest =>
      match lexeme.token with
      | .word raw =>
          match traceSegments sub (Segment.split raw.toList) with
          | (notes, false) => (notes, false)
          | (notes, true) =>
              let tail := traceLexemes sub rest
              (notes ++ tail.1, tail.2)
      | .pipe => traceLexemes sub rest
      | _ =>
          match rest.head?.map Lexeme.token with
          | some (.word _) => traceLexemes sub rest
          | _ => ([], false)

/-- The notes of reading a text with the given number of levels left, `depth` levels inside. -/
def traceWithin : Nat → Nat → List Char → List ReadingNote × Bool
  | levels, depth, cs =>
      let found := lex cs
      let inner :=
        match levels with
        | 0 => traceLexemes (fun _ => ([], false)) found
        | levels + 1 => traceLexemes (traceWithin levels (depth + 1)) found
      let stages :=
        match parseWithin levels cs with
        | .ok p => [ReadingNote.parsed p.length]
        | .error _ => []
      (.lexed found.length depth :: inner.1 ++ stages, inner.2)

def Pipeline.trace (line : String) : List ReadingNote :=
  (traceWithin maxNesting 0 line.toList).1

end LineShell
