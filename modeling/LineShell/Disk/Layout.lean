import LineShell.Disk.Handle

/-!
# Layout — filling a disk from a plan

A plan is a list of entries. They are made one after the other, each with the directories above it
that are missing, and a link that was made before is followed on the way to a later entry. The first
entry that cannot be made ends the work.

- `Planned` : an entry to make, with its path
- `Disk.make` : makes one entry
- `Disk.layOut` : makes all entries of a plan, and dates them
-/

namespace LineShell

/-- An entry to make. -/
structure Planned where
  /-- The absolute path of the entry. -/
  path : String
  node : Node
  /-- The permission bits, if they are not the usual ones. -/
  mode : Option Nat := none
  /-- The moment of the last change, if it is not that of the whole plan. -/
  modified : Option Moment := none
  deriving DecidableEq, Repr

/-- Why a plan was given up. -/
structure Refusal where
  /-- How many entries had been made by then. -/
  made : Nat
  /-- Why the next one could not be made. -/
  fault : Fault
  deriving DecidableEq, Repr

def Node.usualMode : Node → Nat
  | .directory => Disk.directoryMode
  | .link _ => 0o777
  | .file _ | .device _ => Disk.fileMode

namespace Disk

/-! ## One entry -/

/-- Makes room for a planned entry, in a directory that is there already. A directory may stand
there and stays, a file is emptied, and a link needs a free name. -/
def prepare (d : Disk) (p : Planned) : Except Fault (Disk × Route) := do
  match p.node with
  | .directory =>
      let made ← d.makeMissing (Path.absolute (Path.components p.path))
      return (made, (← made.find .entry p.path).1)
  | .link _ =>
      match ← d.locate .name p.path with
      | .vacant route => return (d.add route p.node p.node.usualMode, route)
      | .entry .. => throw .alreadyExists
  | _ =>
      let (opened, h) ← d.openOutput false p.path
      return (opened, h.route)

/-- Makes a planned entry and the directories above it that are missing, and says at which route it
stands. -/
def make (d : Disk) (p : Planned) : Except Fault (Disk × Route) :=
  match d.makeAll (Path.components p.path).reverse.tail with
  | (_, .error fault) => .error fault
  | (above, .ok ()) => do
      let (ready, route) ← above.prepare p
      let e : Entry := ⟨p.node, p.mode.getD p.node.usualMode, ready.clock⟩
      return ((ready.set route e).tick, route)

/-! ## All entries -/

/-- Makes the entries of a plan in their order. The routes of those that have a moment of their own
are given with it. -/
def makeEach (d : Disk) : List Planned → Except Refusal (Disk × List (Route × Moment))
  | [] => .ok (d, [])
  | p :: rest =>
      match d.make p with
      | .error fault => .error ⟨0, fault⟩
      | .ok (made, route) =>
          match made.makeEach rest with
          | .error refusal => .error { refusal with made := refusal.made + 1 }
          | .ok (done, dates) => .ok (done, (p.modified.map (route, ·)).toList ++ dates)

/-- Gives the entries that were changed at or after a moment another one, and turns the clock back
to that moment. -/
def backdate (d : Disk) (since modified : Moment) : Disk :=
  { d with
    entries := d.entries.map fun _ e => if since ≤ e.modified then { e with modified } else e
    clock := since }

def setModified (d : Disk) (route : Route) (modified : Moment) : Disk :=
  match d.get? route with
  | some e => d.set route { e with modified }
  | none => d

/-- Makes the entries of a plan. Whatever was made or changed for it is given one moment, unless the
plan has another for it, and the clock stands as before. -/
def layOut (d : Disk) (modified : Moment) (plan : List Planned) : Except Refusal Disk := do
  let (made, dates) ← d.makeEach plan
  return dates.foldl (fun done date => done.setModified date.1 date.2)
    (made.backdate d.clock modified)

end Disk

end LineShell
