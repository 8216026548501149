/-!
# Color — colored text on a terminal

Colored text stands between the sequence that starts its style and the one that ends all styles.
Where the text itself ends all styles, its own style is started again.
-/

namespace LineShell
namespace Text

/-- The styles in use. -/
inductive Style where
  | green
  | brightGreen
  deriving DecidableEq, Repr

def Style.opening : Style → String
  | .green => "\x1b[32m"
  | .brightGreen => "\x1b[92m"

def resetSequence : String := "\x1b[0m"

/-- Starts a style again behind each end of all styles. -/
def reopen (opening : List Char) (reset : List Char) : Nat → List Char → List Char
  | _, [] => []
  | n + 1, c :: cs => c :: (if n = 0 then opening else []) ++ reopen opening reset n cs
  | 0, c :: cs =>
      if reset.isPrefixOf (c :: cs) then c :: reopen opening reset (reset.length - 1) cs
      else c :: reopen opening reset 0 cs

def paint (style : Style) (text : String) : String :=
  let inner := reopen style.opening.toList resetSequence.toList 0 text.toList
  style.opening ++ String.ofList inner ++ resetSequence

end Text
end LineShell
