import Std.Data.TreeSet
import LineShell.Text.Case
import LineShell.Text.Space

/-!
# Policy — what may be written to the log

Lines and values may carry secrets. A policy tells which values are hidden, by the name of the
variable or by the look of the value, and how long a logged text may be.

- `Policy`        : the settings
- `Policy.truncate` : a text cut to the permitted number of bytes, between characters
- `Policy.redactValue`, `Policy.redactVariable` : a value as it may be logged
- `sanitize`      : a text without line breaks and control characters
-/

namespace LineShell
namespace Log

/-! ## Settings -/

def sensitiveFragments : List String :=
  ["PASSWORD", "PASSWD", "SECRET", "TOKEN", "KEY", "CREDENTIAL", "AUTH", "PRIVATE", "BEARER",
    "SESSION", "COOKIE", "DATABASE_URL", "CONNECTION_STRING"]

/-- What may be written to the log. -/
structure Policy where
  /-- Whether sensitive values are hidden. -/
  redact : Bool := true
  /-- Fragments, in capitals, that mark a name as sensitive. -/
  fragments : Std.TreeSet String compare := Std.TreeSet.ofList sensitiveFragments
  /-- Whether lines are logged as they are, and not only counted. -/
  verbatim : Bool := false
  /-- The number of bytes after which a text is cut. -/
  maxLength : Nat := 200

namespace Policy

def addFragment (p : Policy) (fragment : String) : Policy :=
  { p with fragments := p.fragments.insert (Text.upper fragment) }

/-! ## Length -/

/-- The longest start of a text that has at most `room` bytes. -/
def fit (room : Nat) : List Char → List Char
  | [] => []
  | c :: cs => if c.utf8Size ≤ room then c :: fit (room - c.utf8Size) cs else []

/-- A text of at most the permitted length; a longer one is cut and tells how much is missing. -/
def truncate (p : Policy) (value : String) : String :=
  let size := Text.byteCount value.toList
  if size ≤ p.maxLength then value
  else
    let kept := fit p.maxLength value.toList
    s!"{String.ofList kept}...[truncated {size - Text.byteCount kept} bytes]"

/-! ## Sensitive values -/

def redacted : String := "[REDACTED]"

def hidesName (p : Policy) (name : String) : Bool :=
  p.redact &&
    p.fragments.toList.any fun fragment => Text.occursIn fragment.toList (Text.upper name).toList

def tellingWords : List String := ["password", "secret", "bearer ", "basic "]

def keyStarts : List String :=
  ["sk-", "sk_live_", "sk_test_", "ghp_", "gho_", "ghs_", "xoxb-", "xoxp-", "AKIA", "eyJ"]

def isKeyChar (c : Char) : Bool :=
  c.isAlphanum || c == '_' || c == '-'

/-- A long text with many different characters is taken for a random key. -/
def looksRandom (cs : List Char) : Bool :=
  let distinct := cs.eraseDups.length
  cs.all isKeyChar && 15 < distinct && cs.length < 2 * distinct

/-- Whether a value looks like a secret. -/
def looksSensitive (value : String) : Bool :=
  let small := (Text.lower value).toList
  let cs := Text.trim value.toList
  tellingWords.any (fun w => Text.occursIn w.toList small) ||
    keyStarts.any (fun k => k.toList.isPrefixOf cs && k.utf8ByteSize + 10 < Text.byteCount cs) ||
    (32 ≤ Text.byteCount cs && looksRandom cs)

def redactValue (p : Policy) (value : String) : String :=
  if p.redact && looksSensitive value then redacted else p.truncate value

def redactVariable (p : Policy) (name value : String) : String :=
  if p.hidesName name then redacted else p.redactValue value

end Policy

/-! ## Lines -/

/-- What a character becomes in the log: line breaks and tabs are spelled out, other control
characters vanish. -/
def sanitizeChar : Char → List Char
  | '\n' => ['\\', 'n']
  | '\r' => ['\\', 'r']
  | '\t' => ['\\', 't']
  | c => if Text.isControl c then [] else [c]

def sanitize (s : String) : String :=
  String.ofList (s.toList.flatMap sanitizeChar)

/-- A line as it may be logged: its size, or its text if the policy says so. -/
def Policy.line (p : Policy) (line : String) : String :=
  if p.verbatim then p.truncate (sanitize line)
  else s!"[line: {Text.countWords false line.toList} words, {Text.byteCount line.toList} bytes]"

end Log
end LineShell
