import LineShell.Disk.Walk

/-!
# Change — making and removing entries

An operation that fails changes nothing, unless it gives a disk beside its fault: then it did part
of its work. The directory that an entry is added to or removed from is stamped with the present
moment.
-/

namespace LineShell
namespace Disk

def add (d : Disk) (route : Route) (node : Node) (mode : Nat) : Disk :=
  ((d.set route ⟨node, mode, d.clock⟩).tick).stamp route.dropLast

def directoryMode : Nat := 0o755
def fileMode : Nat := 0o644

/-! ## Making -/

def makeDirectory (d : Disk) (path : String) : Except Fault Disk := do
  match ← d.locate .name path with
  | .entry .. => throw .alreadyExists
  | .vacant route => return d.add route .directory directoryMode

def makeMissing (d : Disk) (path : String) : Except Fault Disk :=
  match d.makeDirectory path with
  | .ok made => .ok made
  | .error fault => if d.isDirectory path then .ok d else .error fault

/-- Makes the directory of the given names, last first, and those above it that are missing. What
was made before a failure stays. -/
def makeAll (d : Disk) : List String → Disk × Except Fault Unit
  | [] => (d, .ok ())
  | name :: parents =>
      let path := Path.absolute (name :: parents).reverse
      match d.makeMissing path with
      | .ok made => (made, .ok ())
      | .error .notFound =>
          match d.makeAll parents with
          | (above, .error fault) => (above, .error fault)
          | (above, .ok ()) =>
              match above.makeMissing path with
              | .ok made => (made, .ok ())
              | .error fault => (above, .error fault)
      | .error fault => (d, .error fault)

def makeDirectories (d : Disk) (path : String) : Disk × Except Fault Unit :=
  d.makeAll (Path.components path).reverse

/-! ## Removing -/

def clear (d : Disk) : Disk :=
  if d.toList.all (·.1.isEmpty) then d
  else ({ d with entries := d.entries.filter fun r _ => r.isEmpty }).stamp []

/-- Removes the entry that a path names: a link and not what it leads to, a directory only with
`recursive` and then with all that is below it. The root is emptied, but it stays and is in use. -/
def remove (d : Disk) (recursive : Bool) (path : String) : Disk × Except Fault Unit :=
  match d.find .name path with
  | .error fault => (d, .error fault)
  | .ok (route, e) =>
      if !e.isDirectory then ((d.erase route).stamp route.dropLast, .ok ())
      else if !recursive then (d, .error .isDirectory)
      else if route.isEmpty then (d.clear, .error .busy)
      else ((d.eraseBelow route).stamp route.dropLast, .ok ())

end Disk
end LineShell
