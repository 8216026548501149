import LineShell.Listing

/-!
# Tree — listings of directories and what is below them

A recursive listing shows a directory and then, one after the other, the trees below it, in the
order of the listing. Links are shown and not followed, so each directory is shown once.

- `Listing.View`   : what a listing sees of a disk
- `Listing.Report` : what a listing prints and what it complains about
- `Listing.tree`   : the report on a directory
- `Listing.report` : the report on a list of targets
-/

namespace LineShell

namespace Listing

/-- What a listing sees of a disk. -/
structure View where
  /-- The names in the directory that a path leads to, in the order in which the system enumerates
  them. -/
  names : String → Except Fault (List String)
  /-- The entry that a path names, be it a link. -/
  look : String → Except Fault Entry
  /-- The size of the directory that a path names. -/
  extent : String → Nat

end Listing

namespace Disk

def names (d : Disk) (path : String) : Except Fault (List String) := do
  let (route, e) ← d.find .entry path
  if e.isDirectory then return (d.children route).map Prod.fst else throw .notDirectory

/-- The size that the file system gives for the directory that a path names. -/
def extentAt (d : Disk) (path : String) : Nat :=
  match d.find .name path with
  | .ok (route, _) => d.medium.extent route
  | .error _ => 0

def view (d : Disk) : Listing.View :=
  ⟨d.names, d.linkStat, d.extentAt⟩

def depth (d : Disk) : Nat :=
  (d.toList.map fun item => item.1.length).foldl max 0

end Disk

namespace Listing

/-- What a listing prints, and what it complains about. -/
structure Report where
  out : String := ""
  complaints : List String := []
  deriving DecidableEq, Repr

def Report.append (a b : Report) : Report :=
  ⟨a.out ++ b.out, a.complaints ++ b.complaints⟩

/-- How a listing is made. -/
structure Frame where
  settings : Settings
  view : View
  /-- Whether it may use colors. -/
  colors : Bool
  /-- How many levels below a target it may go. -/
  levels : Nat

def childHeader (header name : String) : String :=
  if header = "." then "./" ++ name
  else String.ofList (Text.dropEndWhile (· == '/') header.toList) ++ "/" ++ name

def itemAt (f : Frame) (path name : String) : Item :=
  let full := Path.join path name
  ⟨name, (f.view.look full).toOption, f.view.extent full⟩

def items (f : Frame) (path : String) : Except Fault (List Item) := do
  let names ← f.view.names path
  return sorted f.settings (names.map (itemAt f path))

/-- The report on a directory and on so many levels below it. `titled` tells whether its header is
shown. -/
def tree (f : Frame) (titled : Bool) : Nat → String → String → Report
  | levels, path, header =>
      let title := if titled then header ++ ":\n" else ""
      match items f path with
      | .error fault => ⟨title, [s!"ls: cannot open directory '{header}': {fault.describe}"]⟩
      | .ok found =>
          let here : Report := ⟨title ++ lines f.settings f.colors found, []⟩
          match levels with
          | 0 => here
          | levels + 1 =>
              let below := if f.settings.recursive then found.filter (·.isDirectory) else []
              below.foldl
                (fun report item =>
                  let sub := tree f true levels (Path.join path item.name)
                    (childHeader header item.name)
                  report.append ⟨"\n" ++ sub.out, sub.complaints⟩)
                here

/-- The report on one target, or the fault if it cannot be reached. -/
def target (f : Frame) (titled : Bool) (raw path : String) : Except Fault Report := do
  let e ← f.view.look path
  if e.isDirectory then return tree f titled f.levels path raw
  else
    let name := (Path.lastName path).getD raw
    let title := if titled then raw ++ ":\n" else ""
    return ⟨title ++ line f.settings f.colors 0 { name, entry := some e }, []⟩

/-- The report on targets, given as they were written and as paths. `several` tells whether there is
more than one; then each has its header, and an empty line follows each but the last. -/
def report (f : Frame) (several : Bool) : List (String × String) → Report
  | [] => {}
  | (raw, path) :: rest =>
      match target f several raw path with
      | .error fault =>
          Report.append ⟨"", [s!"ls: cannot access '{raw}': {fault.describe}"]⟩
            (report f several rest)
      | .ok shown =>
          let gap := if several && !rest.isEmpty then "\n" else ""
          (shown.append ⟨gap, []⟩).append (report f several rest)

end Listing

end LineShell
