import LineShell.Disk.Walk
import LineShell.Text.Calendar
import LineShell.Text.Case
import LineShell.Text.Color
import LineShell.Text.Rounding

/-!
# Listing — directories as text

A listing shows entries one per line, in an order that does not depend on how the disk enumerates
them.

- `Listing.Settings` : what is shown, and in which order
- `Listing.Item`     : an entry with its name
- `Listing.sorted`   : items in their order
- `Listing.lines`    : the lines of the items of a directory
-/

namespace LineShell
namespace Listing

/-! ## Settings -/

/-- What items are ordered by, before their names. -/
inductive Key where
  | name
  | size
  | time
  deriving DecidableEq, Repr

/-- What is shown, and in which order. -/
structure Settings where
  /-- Items whose names start with a dot, too. -/
  hidden : Bool := false
  /-- Mode, size and time of each item. -/
  long : Bool := false
  /-- Sizes for people to read. -/
  human : Bool := false
  /-- The directories below, too. -/
  recursive : Bool := false
  /-- Marks behind the names of directories and programs. -/
  classify : Bool := false
  key : Key := .name
  deriving DecidableEq, Repr

/-- What a flag letter sets, if it is known. -/
def Settings.letter? (s : Settings) : Char → Option Settings
  | 'a' => some { s with hidden := true }
  | 'l' => some { s with long := true }
  | 'h' => some { s with human := true }
  | 'R' => some { s with recursive := true }
  | 'S' => some { s with key := .size }
  | 't' => some { s with key := .time }
  | 'F' => some { s with classify := true }
  | _ => none

/-- The words of a listing command, sorted out. -/
structure Request where
  settings : Settings := {}
  unknown : List String := []
  targets : List String := []
  deriving DecidableEq, Repr

namespace Request

/-- Adds the letters of a word of flags. -/
def addLetters (r : Request) (letters : List Char) : Request :=
  letters.foldl
    (fun r c =>
      match r.settings.letter? c with
      | some settings => { r with settings }
      | none => { r with unknown := r.unknown ++ [String.ofList ['-', c]] })
    r

/-- Reads the words that follow a request. Behind `--` every word is a target. -/
def read (r : Request) : List String → Request
  | [] => r
  | word :: rest =>
      match word.toList with
      | ['-', '-'] => { r with targets := r.targets ++ rest }
      | '-' :: '-' :: _ =>
          if word = "--all" then read { r with settings := { r.settings with hidden := true } } rest
          else read { r with unknown := r.unknown ++ [word] } rest
      | '-' :: c :: letters => read (r.addLetters (c :: letters)) rest
      | _ => read { r with targets := r.targets ++ [word] } rest

end Request

/-! ## Items and their order -/

/-- A name in a directory, with the entry that stands there. There is none if it is gone again or
cannot be looked at. -/
structure Item where
  name : String
  entry : Option Entry
  /-- The size that the file system gives for it if it is a directory. -/
  extent : Nat := 0
  deriving DecidableEq, Repr

namespace Item

def isDirectory (i : Item) : Bool :=
  i.entry.any (·.isDirectory)

def isExecutable (i : Item) : Bool :=
  i.entry.any (·.isExecutable)

def size (i : Item) : Nat :=
  i.entry.elim 0 fun e => if e.isDirectory then i.extent else e.size

def modified (i : Item) : Option Moment :=
  i.entry.map (·.modified)

end Item

/-- Names are ordered without regard to case, and equal ones by their characters. -/
def byName (a b : Item) : Ordering :=
  (compare (Text.lower a.name) (Text.lower b.name)).then (compare a.name b.name)

/-- The order of items: by the key, the larger and the newer first, and then by name. An item
without an entry comes behind all that have a time. -/
def order (key : Key) (a b : Item) : Ordering :=
  match key with
  | .name => byName a b
  | .size => (compare b.size a.size).then (byName a b)
  | .time => (compare b.modified a.modified).then (byName a b)

def shows (s : Settings) (item : Item) : Bool :=
  s.hidden || item.name.toList.head? != some '.'

def sorted (s : Settings) (items : List Item) : List Item :=
  (items.filter (shows s)).mergeSort fun a b => (order s.key a b).isLE

/-! ## Lines -/

/-- The letters for the permission bits, from the highest bit down. -/
def permissionLetters : List (Nat × Char) :=
  [(0o400, 'r'), (0o200, 'w'), (0o100, 'x'), (0o040, 'r'), (0o020, 'w'), (0o010, 'x'),
    (0o004, 'r'), (0o002, 'w'), (0o001, 'x')]

/-- The kind and the permissions of an item. -/
def modeText (i : Item) : String :=
  match i.entry with
  | none => "??????????"
  | some e =>
      let kind := if e.isDirectory then 'd' else if e.isLink then 'l' else '-'
      let bits := permissionLetters.map fun p => if e.mode &&& p.1 != 0 then p.2 else '-'
      String.ofList (kind :: bits)

def sizeText (s : Settings) (i : Item) : String :=
  if s.human then Text.humanSize i.size else i.size.repr

def timeText (i : Item) : String :=
  match i.modified with
  | none => "????-??-?? ??:??"
  | some moment => Text.momentText (moment.fdiv 1000000000)

/-- The name of an item with its mark, in color if it is a directory. -/
def nameText (s : Settings) (colors : Bool) (item : Item) : String :=
  let mark :=
    if !s.classify then ""
    else if item.isDirectory then "/"
    else if item.isExecutable then "*"
    else ""
  let name := item.name ++ mark
  if colors && item.isDirectory then Text.paint .brightGreen name else name

def padLeft (width : Nat) (text : String) : String :=
  String.ofList (List.replicate (width - text.length) ' ') ++ text

/-- The line of an item, with room for sizes of the given width. -/
def line (s : Settings) (colors : Bool) (width : Nat) (item : Item) : String :=
  let name := nameText s colors item
  if s.long then
    let size := padLeft width (sizeText s item)
    s!"{modeText item} {size} {timeText item} {name}\n"
  else name ++ "\n"

def sizeWidth (s : Settings) (items : List Item) : Nat :=
  (items.map fun item => (sizeText s item).length).foldl max 0

def lines (s : Settings) (colors : Bool) (items : List Item) : String :=
  String.join (items.map (line s colors (sizeWidth s items)))

end Listing
end LineShell
