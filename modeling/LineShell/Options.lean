/-!
# Options — flags and operands

The words of a command are flags or operands. A flag starts with a dash and may stand anywhere
before `--`; behind `--` every word is an operand, and so is a lone dash. One word may hold several
one-letter flags.
-/

namespace LineShell

/-- The words of a command, sorted out. Flags are written with their dashes, one per letter. -/
structure Options where
  flags : List String := []
  unknown : List String := []
  operands : List String := []
  deriving DecidableEq, Repr

namespace Options

/-- The flags in a word, or nothing if the word is an operand. -/
def flagsOf? (word : String) : Option (List String) :=
  match word.toList with
  | ['-'] => none
  | '-' :: '-' :: _ => some [word]
  | '-' :: letters => some (letters.map fun c => String.ofList ['-', c])
  | _ => none

/-- Sorts out the words of a command, given the flags that it knows. -/
def read (known : String → Bool) : List String → Options
  | [] => {}
  | word :: rest =>
      if word = "--" then { operands := rest }
      else
        let tail := read known rest
        match flagsOf? word with
        | none => { tail with operands := word :: tail.operands }
        | some flags =>
            { tail with
              flags := flags.filter known ++ tail.flags
              unknown := flags.filter (!known ·) ++ tail.unknown }

end Options

end LineShell
