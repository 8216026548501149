import LineShell.Disk.Walk

/-!
# Pattern — words that stand for the names of files

In a word outside quotes, a star stands for any bytes, a question mark for one, and brackets for one
of those between them. Such a word becomes the names that it fits, in the order of their bytes; if
it fits none, it stays as it is.

- `Pattern.Sign` : a byte of a word, and whether it stands for itself
- `Pattern.Atom` : a part of a pattern
- `Pattern.fits` : whether a name fits a pattern
- `Pattern.expand` : the paths that a word stands for
-/

namespace LineShell
namespace Pattern

/-- A byte of a word. -/
structure Sign where
  byte : UInt8
  /-- Whether it stands for itself. -/
  plain : Bool
  deriving DecidableEq, Repr

def isMark (b : UInt8) (s : Sign) : Bool := s.byte == b && !s.plain

/-! ## Patterns -/

/-- A part of a pattern. -/
inductive Atom where
  /-- Any bytes. -/
  | many
  /-- Any byte. -/
  | one
  /-- One of the bytes between brackets, or one that is not among them. -/
  | among (negated : Bool) (inside : List Sign)
  | byte (b : UInt8)
  deriving DecidableEq, Repr

def bracketBody (signs : List Sign) : List Sign :=
  if signs.head?.any (isMark 33) then signs.drop 1 else signs

theorem length_bracketBody_le (signs : List Sign) : (bracketBody signs).length ≤ signs.length := by
  grind [bracketBody]

/-- The signs of a body up to the closing bracket. One that comes first stands for itself. -/
def insideBracket (body : List Sign) : List Sign :=
  let start := if body.head?.any (isMark 93) then 1 else 0
  body.take start ++ (body.drop start).takeWhile (!isMark 93 ·)

/-- Whether what stands behind an opening bracket is negated, the signs up to the closing bracket,
and the rest. -/
def bracket? (signs : List Sign) : Option (Bool × List Sign × List Sign) :=
  let body := bracketBody signs
  match body.drop (insideBracket body).length with
  | _ :: rest => some (signs.head?.any (isMark 33), insideBracket body, rest)
  | [] => none

/-- A bracket expression uses up at least its brackets. -/
theorem length_bracket?_lt {signs inside rest : List Sign} {negated : Bool}
    (h : bracket? signs = some (negated, inside, rest)) : rest.length < signs.length := by
  have bound := length_bracketBody_le signs
  simp only [bracket?] at h
  split at h
  next _ _ found =>
    have size := congrArg List.length found
    simp only [List.length_drop, List.length_cons] at size
    simp only [Option.some.injEq, Prod.mk.injEq] at h
    obtain ⟨-, -, rfl⟩ := h
    omega
  next => simp at h

def atoms (signs : List Sign) : List Atom :=
  match signs with
  | [] => []
  | s :: signs =>
      if isMark 42 s then .many :: atoms signs
      else if isMark 63 s then .one :: atoms signs
      else if isMark 91 s then
        match found : bracket? signs with
        | some (negated, inside, rest) =>
            have := length_bracket?_lt found
            .among negated inside :: atoms rest
        | none => .byte s.byte :: atoms signs
      else .byte s.byte :: atoms signs
termination_by signs.length
decreasing_by all_goals grind

def holds (b : UInt8) : List Sign → Bool
  | ⟨low, _⟩ :: ⟨45, false⟩ :: ⟨high, _⟩ :: rest => (low ≤ b && b ≤ high) || holds b rest
  | ⟨c, _⟩ :: rest => c == b || holds b rest
  | [] => false

def Atom.takes (b : UInt8) : Atom → Bool
  | .many | .one => true
  | .among negated inside => holds b inside != negated
  | .byte c => c == b

def someEnd (p : Bytes → Bool) : Bytes → Bool
  | [] => p []
  | b :: bs => p (b :: bs) || someEnd p bs

def fitsAll : List Atom → Bytes → Bool
  | [], bs => bs.isEmpty
  | .many :: parts, bs => someEnd (fitsAll parts) bs
  | part :: parts, b :: bs => part.takes b && fitsAll parts bs
  | _ :: _, [] => false

/-- Whether a name fits a pattern. A name that starts with a dot has to be asked for by the dot. -/
def fits (signs : List Sign) (name : Bytes) : Bool :=
  (name.head? != some 46 || signs.head?.any (·.byte == 46)) && fitsAll (atoms signs) name

/-! ## Words -/

def isPattern (signs : List Sign) : Bool :=
  signs.any fun s => isMark 42 s || isMark 63 s || isMark 91 s

def literal (signs : List Sign) : Bytes := signs.map Sign.byte

def parts (signs : List Sign) : List (List Sign) :=
  signs.foldr (fun s done =>
    if s.byte = 47 then [] :: done
    else
      match done with
      | part :: rest => (s :: part) :: rest
      | [] => [[s]]) [[]]

def follow (d : Disk) (cwd : String) : List (List Sign) → List String → List String
  | [], found => found
  | part :: rest, found =>
      let ahead := if rest.isEmpty then "" else "/"
      let names := fun (path : String) =>
        if isPattern part then
          match d.find .entry (Path.join cwd path) with
          | .ok (route, e) =>
              let all := if e.isDirectory then "." :: ".." :: (d.children route).map Prod.fst
                else []
              (all.filter fun name => fits part (Utf8.encode name)).map (path ++ ·)
          | .error _ => []
        else
          let whole := path ++ Utf8.decodeLossy (literal part)
          if rest.isEmpty && (d.linkStat (Path.join cwd whole)).toOption.isNone then [] else [whole]
      follow d cwd rest ((found.flatMap names).map (· ++ ahead))

def expand (d : Disk) (cwd : String) (signs : List Sign) : List String :=
  let itself := Utf8.decodeLossy (literal signs)
  if !isPattern signs then [itself]
  else
    let found := follow d cwd (parts signs) [""]
    if found.isEmpty then [itself] else found.mergeSort fun a b => !(b < a)

end Pattern
end LineShell
