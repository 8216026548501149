/-!
# Space — white space, control characters and searching

White space is that of every script; it is trimmed from names, values and lines. Control characters
are those that could break a line of output.
-/

namespace LineShell
namespace Text

def isSpace (c : Char) : Bool :=
  let n := c.toNat
  (9 ≤ n && n ≤ 13) || n == 0x20 || n == 0x85 || n == 0xA0 || n == 0x1680 ||
    (0x2000 ≤ n && n ≤ 0x200A) || n == 0x2028 || n == 0x2029 || n == 0x202F || n == 0x205F ||
    n == 0x3000

def isControl (c : Char) : Bool :=
  c.toNat < 0x20 || (0x7F ≤ c.toNat && c.toNat < 0xA0)

/-! ## Trimming -/

def dropEndWhile (p : Char → Bool) (cs : List Char) : List Char :=
  (cs.reverse.dropWhile p).reverse

def trimStart (cs : List Char) : List Char :=
  cs.dropWhile isSpace

def trimEnd (cs : List Char) : List Char :=
  dropEndWhile isSpace cs

def trim (cs : List Char) : List Char :=
  trimEnd (trimStart cs)

/-! ## Splitting and searching -/

/-- The pieces between the occurrences of a character; always at least one. -/
def splitOn (sep : Char) : List Char → List (List Char)
  | [] => [[]]
  | c :: cs =>
      if c = sep then [] :: splitOn sep cs
      else
        match splitOn sep cs with
        | [] => [[c]]
        | piece :: rest => (c :: piece) :: rest

/-- The pieces that a list falls into if it is cut behind each occurrence of a mark; none of them is
empty. -/
def cutAfter {α : Type} [DecidableEq α] (mark : α) : List α → List (List α)
  | [] => []
  | a :: rest =>
      if a = mark then [a] :: cutAfter mark rest
      else
        match cutAfter mark rest with
        | [] => [[a]]
        | piece :: pieces => (a :: piece) :: pieces

/-- The text before the first occurrence of a character and the text behind it. -/
def cut? (sep : Char) : List Char → Option (List Char × List Char)
  | [] => none
  | c :: cs =>
      if c = sep then some ([], cs)
      else (cut? sep cs).map fun r => (c :: r.1, r.2)

/-- The number of runs of characters that are not white space; `inside` tells whether such a run is
going on. -/
def countWords (inside : Bool) : List Char → Nat
  | [] => 0
  | c :: cs =>
      if isSpace c then countWords false cs
      else (if inside then 0 else 1) + countWords true cs

def occursIn (needle : List Char) : List Char → Bool
  | [] => needle.isEmpty
  | c :: cs => needle.isPrefixOf (c :: cs) || occursIn needle cs

/-- The text before the first occurrence of another text, or all of it. -/
def beforeText (needle : List Char) : List Char → List Char
  | [] => []
  | c :: cs => if needle.isPrefixOf (c :: cs) then [] else c :: beforeText needle cs

def byteCount : List Char → Nat
  | [] => 0
  | c :: cs => c.utf8Size + byteCount cs

end Text
end LineShell
