import LineShell.Text.CaseTable

/-!
# Case — capital and small forms of text

Case is mapped for every script, and a character may become several. The one mapping that looks at
its neighbours is that of the capital sigma, which takes its final form at the end of a word.
-/

namespace LineShell
namespace Text

/-! ## Single characters -/

/-- The counterpart of a character in a table of runs and long forms. -/
def counterpart (runs : List Run) (long : List (Nat × List Nat)) (c : Char) : List Char :=
  match long.lookup c.toNat with
  | some codes => codes.map Char.ofNat
  | none =>
      match runs.find? (·.has c.toNat) with
      | some r => [Char.ofNat ((c.toNat : Int) + r.shift).toNat]
      | none => [c]

def upperChar (c : Char) : List Char :=
  if c.toNat < 128 then [c.toUpper] else counterpart capitalRuns longCapitals c

def lowerChar (c : Char) : List Char :=
  if c.toNat < 128 then [c.toLower] else counterpart smallRuns longSmalls c

/-! ## The final sigma -/

def inRanges (ranges : List (Nat × Nat)) (c : Char) : Bool :=
  ranges.any fun r => r.1 ≤ c.toNat && c.toNat ≤ r.2

def meetsCased (cs : List Char) : Bool :=
  ((cs.dropWhile (inRanges ignorableRanges)).head?).any (inRanges casedRanges)

def isFinalSigma (seen rest : List Char) : Bool :=
  meetsCased seen && !meetsCased rest

/-- The small form of a text; `seen` holds the characters before it, nearest first. -/
def lowerFrom (seen : List Char) : List Char → List Char
  | [] => []
  | c :: cs =>
      (if c = 'Σ' then [if isFinalSigma seen cs then 'ς' else 'σ'] else lowerChar c)
        ++ lowerFrom (c :: seen) cs

/-! ## Strings -/

def upper (s : String) : String :=
  String.ofList (s.toList.flatMap upperChar)

def lower (s : String) : String :=
  String.ofList (lowerFrom [] s.toList)

end Text
end LineShell
