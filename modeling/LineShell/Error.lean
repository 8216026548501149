import LineShell.Duration
import LineShell.Fault
import LineShell.Pipeline.Parser

/-!
# Error — what ends a line

Most failures of a command are reported on its error stream and show as its status. The errors here
are those that end a whole line, or that a builtin leaves to the shell to report.
-/

namespace LineShell

/-- A limit that a run went over. -/
inductive LimitExceeded where
  /-- Substitutions inside too many others. -/
  | substitutionDepth (limit : Nat)
  /-- A program that ran too long. -/
  | timeout (limit : Duration)
  deriving DecidableEq, Repr

def LimitExceeded.message : LimitExceeded → String
  | .substitutionDepth limit => s!"maximum command substitution depth exceeded ({limit})"
  | .timeout limit => s!"command timed out ({limit.render})"

/-- What ends a line. -/
inductive Error where
  /-- The line cannot be read. -/
  | malformed (error : SyntaxError)
  /-- The target of a redirection cannot be opened. -/
  | redirect (target : String) (fault : Fault)
  /-- A stream cannot be read or written. -/
  | stream (fault : Fault)
  /-- A limit was exceeded. -/
  | overLimit (exceeded : LimitExceeded)
  /-- Any other failure. -/
  | internal (text : String)
  deriving DecidableEq, Repr

/-- The text of an error. -/
def Error.message : Error → String
  | .malformed e => "syntax error: " ++ e.fault.message
  | .redirect target fault => target ++ ": " ++ fault.describe
  | .stream fault => "io error: " ++ fault.message
  | .overLimit exceeded => "resource limit exceeded: " ++ exceeded.message
  | .internal text => "internal error: " ++ text

end LineShell
