/-!
# Identifier — names of variables

A variable is named by capital letters, digits and underscores, and no digit comes first. Only such
names are expanded in words and accepted by `export` and `unset`.
-/

namespace LineShell

def isNameStart (c : Char) : Bool :=
  c.isUpper || c == '_'

def isNameRest (c : Char) : Bool :=
  c.isUpper || c.isDigit || c == '_'

def isName : List Char → Bool
  | [] => false
  | c :: cs => isNameStart c && cs.all isNameRest

def isIdentifier (s : String) : Bool :=
  isName s.toList

/-- The longest name at the head of a text, empty if there is none. -/
def leadingName : List Char → List Char
  | [] => []
  | c :: cs => if isNameStart c then c :: cs.takeWhile isNameRest else []

theorem leadingName_isPrefix (cs : List Char) : leadingName cs <+: cs := by
  cases cs with
  | nil => simp [leadingName]
  | cons c cs =>
      rw [leadingName]
      split
      · simpa using List.takeWhile_prefix isNameRest
      · simp

/-- What is read off the front as a name is one, unless it is empty. -/
theorem isName_leadingName {cs : List Char} (h : leadingName cs ≠ []) :
    isName (leadingName cs) := by
  cases cs with
  | nil => simp [leadingName] at h
  | cons c cs =>
      rw [leadingName] at h ⊢
      split at h
      · rename_i hc
        simp only [hc, if_true, isName, Bool.true_and]
        exact List.all_takeWhile
      · simp at h

end LineShell
