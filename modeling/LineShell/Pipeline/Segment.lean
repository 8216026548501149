import LineShell.Identifier
import LineShell.Token.Lexer

/-!
# Segment — the expansions in a word

The lexer leaves the expansions of a word unread. This module splits the text of a word into
segments: literal text, names of variables, and the texts of substitutions, which are still to be
read as lines of their own.

A dollar sign that starts no expansion is literal text, so splitting never fails.
-/

namespace LineShell

/-- A piece of the text of a word. -/
inductive Segment where
  | text (cs : List Char)
  | var (name : List Char)
  | body (inner : List Char)
  deriving DecidableEq, Repr

namespace Segment

/-- Puts literal text in front of segments, joining it to literal text that follows. -/
def pushText (cs : List Char) : List Segment → List Segment
  | .text ds :: rest => .text (cs ++ ds) :: rest
  | rest => .text cs :: rest

def braced? (cs : List Char) : Option (List Char × List Char) :=
  match cs.dropWhile (· != '}') with
  | [] => none
  | _ :: rest => some (cs.takeWhile (· != '}'), rest)

/-- A braced reference uses up at least its braces. -/
theorem length_braced?_lt {cs name rest : List Char} (h : braced? cs = some (name, rest)) :
    rest.length < cs.length := by
  have hd : (cs.dropWhile (· != '}')).length ≤ cs.length :=
    (List.dropWhile_suffix (· != '}')).length_le
  unfold braced? at h
  split at h
  · simp at h
  · rename_i heq
    simp only [Option.some.injEq, Prod.mk.injEq] at h
    rw [heq, h.2] at hd
    simp only [List.length_cons] at hd
    omega

/-- The segments of the text of a word. -/
def split (cs : List Char) : List Segment :=
  match cs with
  | [] => []
  | '$' :: '(' :: cs =>
      have := length_substitutionBody_le cs
      .body (substitutionBody cs).1 :: split (substitutionBody cs).2
  | '$' :: '{' :: cs =>
      match h : braced? cs with
      | none => pushText ['$'] (split ('{' :: cs))
      | some (name, rest) =>
          have := length_braced?_lt h
          if isName name then .var name :: split rest
          else pushText ('$' :: '{' :: name.map unprotect ++ ['}']) (split rest)
  | '$' :: cs =>
      let name := leadingName cs
      if name.isEmpty then pushText ['$'] (split cs)
      else .var name :: split (cs.drop name.length)
  | c :: cs => pushText [unprotect c] (split cs)
termination_by cs.length
decreasing_by all_goals simp_all <;> omega

end Segment

end LineShell
