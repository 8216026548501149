import LineShell.Text.Space

/-!
# Path — paths as text

A path is folded without looking at the disk: `.` and empty components vanish, and `..` takes away
the component before it. At the root, `..` stays at the root.

- `Path.components` : the names between the slashes
- `Path.fold`       : what is left after `.` and `..` are folded
- `Path.resolve`    : a path as seen from a working directory
- `Path.expandHome` : a leading tilde replaced by the home directory
-/

namespace LineShell
namespace Path

/-! ## Components -/

def isAbsolute (path : String) : Bool :=
  path.toList.head? == some '/'

def components (path : String) : List String :=
  ((Text.splitOn '/' path.toList).filter (!·.isEmpty)).map String.ofList

/-- One more component behind names that are already folded, last first. -/
def push (names : List String) (name : String) : List String :=
  if name = "." then names
  else if name = ".." then names.drop 1
  else name :: names

/-- The names that are left after folding. -/
def fold (names : List String) : List String :=
  (names.foldl push []).reverse

/-! ## Resolving -/

def absolute (names : List String) : String :=
  "/" ++ "/".intercalate names

/-- A path as seen from a working directory. If nothing is left of it, it is the root. -/
def resolve (cwd path : String) : String :=
  if isAbsolute path then absolute (fold (components path))
  else
    let names := fold (components cwd ++ components path)
    if isAbsolute cwd || names.isEmpty then absolute names else "/".intercalate names

/-- A path put behind a directory, without folding. -/
def join (dir path : String) : String :=
  if isAbsolute path then path
  else if dir.isEmpty || dir.toList.getLast? == some '/' then dir ++ path
  else dir ++ "/" ++ path

def lastName (path : String) : Option String :=
  (components path).getLast?

/-! ## Home -/

def expandHome (home : Option String) (raw : String) : String :=
  match raw.toList, home with
  | ['~'], some home => home
  | '~' :: '/' :: rest, some home => home ++ "/" ++ String.ofList rest
  | _, _ => raw

end Path
end LineShell
