import LineShell.Disk

/-!
# Walk — following a path

A path is followed name by name from the root. Links on the way are followed, the last one only on
request, and no more than `maxLinks` of them. A slash at the end of a path, or of a link on the way,
asks for a directory.

- `Goal`   : what a path is followed for
- `Place`  : where a path leads: to an entry, or to a name that is still free
- `Disk.walk` : following names from a directory
- `Disk.locate`, `Disk.stat` : where a path leads, and to which entry
-/

namespace LineShell

/-- What a path is followed for. -/
inductive Goal where
  /-- For the entry that it names, be that a link. -/
  | name
  /-- For the entry that it leads to. -/
  | entry
  /-- For a file to write to, which may still have to be made. -/
  | file
  deriving DecidableEq, Repr

/-- Where a path leads. -/
inductive Place where
  /-- To an entry. -/
  | entry (route : Route) (e : Entry)
  /-- To a free name in a directory. -/
  | vacant (route : Route)
  deriving DecidableEq, Repr

namespace Disk

def maxLinks : Nat := 40

def maxName : Nat := 255

def maxPath : Nat := 4095

/-- The names that a path is followed by. A slash at its end counts as one more name, which is
empty. -/
def stops (path : String) : List String :=
  let names := Path.components path
  if path.toList.getLast? == some '/' && !names.isEmpty then names ++ [""] else names

/-- Follows names from the directory `here`. A link is left to `onLink`, which gets the directory
and the names to go on with. No file to write to has a slash behind its name, whatever stands
there. -/
def walkWith (d : Disk) (goal : Goal) (onLink : Route → List String → Except Fault Place)
    (here : Route) : List String → Except Fault Place
  | [] =>
      match d.get? here with
      | some e => .ok (.entry here e)
      | none => .error .notFound
  | name :: rest =>
      if name = "." ∨ name = "" then walkWith d goal onLink here rest
      else if name = ".." then walkWith d goal onLink here.dropLast rest
      else if goal = .file ∧ rest = [""] then .error .isDirectory
      else if maxName < name.utf8ByteSize then .error .nameTooLong
      else
        let route := here ++ [name]
        match d.get? route with
        | none => if rest.isEmpty then .ok (.vacant route) else .error .notFound
        | some e =>
            match e.node with
            | .directory => walkWith d goal onLink route rest
            | .link target =>
                if rest.isEmpty && goal == .name then .ok (.entry route e)
                else onLink (if Path.isAbsolute target then [] else here)
                  (stops target ++ rest)
            | _ => if rest.isEmpty then .ok (.entry route e) else .error .notDirectory

/-- Follows names from a directory, with so many links left to follow. -/
def walk (d : Disk) (goal : Goal) : Nat → Route → List String → Except Fault Place
  | 0 => d.walkWith goal fun _ _ => .error .tooManyLinks
  | links + 1 => d.walkWith goal (d.walk goal links)

def locate (d : Disk) (goal : Goal) (path : String) : Except Fault Place :=
  if path.toList.contains '\x00' then .error .nulInPath
  else if maxPath < path.utf8ByteSize then .error .nameTooLong
  else d.walk goal maxLinks [] (stops path)

def find (d : Disk) (goal : Goal) (path : String) : Except Fault (Route × Entry) := do
  match ← d.locate goal path with
  | .entry route e => return (route, e)
  | .vacant _ => throw .notFound

def stat (d : Disk) (path : String) : Except Fault Entry :=
  (d.find .entry path).map Prod.snd

def linkStat (d : Disk) (path : String) : Except Fault Entry :=
  (d.find .name path).map Prod.snd

def isDirectory (d : Disk) (path : String) : Bool :=
  match d.stat path with
  | .ok e => e.isDirectory
  | .error _ => false

end Disk

end LineShell
