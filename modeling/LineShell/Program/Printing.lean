import LineShell.Program.Format

/-!
# Printing — programs that print their words

`echo` prints its words, `printf` prints them as a format says.
-/

namespace LineShell
namespace Program

/-- What `echo` prints as a program of its own: flags as those of the builtin. -/
def echo : Program := fun args =>
  Work.finish (Echo.output args) 0

/-- What `echo` prints inside a script: `-n` is its only flag, and escapes are always decoded. -/
def scriptEcho (args : List String) : Bytes :=
  let (newline, words) := match args with
    | "-n" :: rest => (false, rest)
    | _ => (true, args)
  let (bytes, stop) := Escape.decodeAll words
  if newline && !stop then bytes ++ [10] else bytes

def printf : Program
  | [] => Work.refuse "missing operand" 1
  | format :: args => do
      let result := Format.print format args
      for text in result.complaints do
        Work.report text
      Work.finish result.bytes (if result.complaints.isEmpty then 0 else 1)

end Program
end LineShell
