import Std.Data.TreeMap
import LineShell.Fault
import LineShell.Path
import LineShell.Text.Utf8

/-!
# Disk — files, directories and links

A disk is a finite map from routes to entries. A route is the list of names that leads from the root
to an entry; routes hold no links, so each entry has exactly one.

- `Content` : the bytes of a file, which may start with a long stretch of zeros
- `Node`, `Entry` : what stands at a route, with its permission bits and its time
- `Medium`  : what a file system answers of its own accord
- `Disk`    : entries by route, and the clock that new times are taken from

`LineShell.Disk.Walk` follows paths, `LineShell.Disk.Change` changes entries, and
`LineShell.Disk.Handle` reads and writes open files.
-/

namespace LineShell

/-! ## Files -/

/-- The bytes of a file: so many zeros, and then the data. -/
structure Content where
  zeros : Nat := 0
  data : Bytes := []
  deriving DecidableEq, Repr

namespace Content

def ofBytes (bs : Bytes) : Content := { data := bs }

def toBytes (c : Content) : Bytes :=
  List.replicate c.zeros 0 ++ c.data

def size (c : Content) : Nat :=
  c.zeros + c.data.length

def first (c : Content) (n : Nat) : Bytes :=
  List.replicate (min n c.zeros) 0 ++ c.data.take (n - c.zeros)

def append (c : Content) (bs : Bytes) : Content :=
  { c with data := c.data ++ bs }

/-- Bytes written at a position: they replace what stands there, and a gap before them is filled
with zeros. -/
def writeAt (c : Content) (position : Nat) (bs : Bytes) : Content :=
  if position = c.size then c.append bs
  else
    let old := c.toBytes
    ofBytes (old.take position ++ List.replicate (position - old.length) 0 ++ bs ++
      old.drop (position + bs.length))

/-- Appending to a content, sparse or not, appends to its bytes. -/
@[simp] theorem toBytes_append (c : Content) (bs : Bytes) :
    (c.append bs).toBytes = c.toBytes ++ bs := by
  simp [append, toBytes, List.append_assoc]

/-- The size kept for a content is the number of its bytes. -/
theorem size_eq_length (c : Content) : c.size = c.toBytes.length := by
  simp [size, toBytes]

end Content

/-! ## Entries -/

/-- Devices that stand on the disk like files. -/
inductive Device where
  /-- Takes every byte and holds none. -/
  | null
  /-- Never has room for a byte, and never comes to an end for a reader. -/
  | full
  deriving DecidableEq, Repr

/-- What stands at a route. -/
inductive Node where
  | file (content : Content)
  | directory
  /-- A symbolic link, with the path that it stands for. -/
  | link (target : String)
  | device (device : Device)
  deriving DecidableEq, Repr

abbrev Moment := Int

def Moment.ofSeconds (n : Int) : Moment := n * 1000000000

/-- A node with its permission bits and the moment of its last change. -/
structure Entry where
  node : Node
  mode : Nat
  modified : Moment
  deriving DecidableEq, Repr

namespace Entry

def isDirectory (e : Entry) : Bool :=
  e.node == .directory

def isLink (e : Entry) : Bool :=
  match e.node with
  | .link _ => true
  | _ => false

def isExecutable (e : Entry) : Bool :=
  e.mode &&& 0o111 != 0

/-- The number of bytes of a file or of the path of a link. A directory has none of its own. -/
def size (e : Entry) : Nat :=
  match e.node with
  | .file content => content.size
  | .link target => target.utf8ByteSize
  | .directory | .device _ => 0

end Entry

/-! ## Disks -/

abbrev Route := List String

/-- What a file system answers of its own accord. -/
structure Medium where
  /-- The size that it gives for the directory at a route. -/
  extent : Route → Nat := fun _ => 4096
  /-- The fault that reading the file at a route ends in, if it cannot be read. -/
  flaw : Route → Option Fault := fun _ => none

/-- Entries by route, on a medium. -/
structure Disk where
  entries : Std.TreeMap Route Entry compare := ∅
  /-- The moment that the next change is given. -/
  clock : Moment := Moment.ofSeconds 1750000000
  medium : Medium := {}

namespace Disk

def get? (d : Disk) (route : Route) : Option Entry :=
  d.entries[route]?

def toList (d : Disk) : List (Route × Entry) :=
  d.entries.toList

def set (d : Disk) (route : Route) (e : Entry) : Disk :=
  { d with entries := d.entries.insert route e }

def erase (d : Disk) (route : Route) : Disk :=
  { d with entries := d.entries.erase route }

def eraseBelow (d : Disk) (route : Route) : Disk :=
  { d with entries := d.entries.filter fun r _ => !route.isPrefixOf r }

def tick (d : Disk) : Disk :=
  { d with clock := d.clock + 1 }

/-- Gives an entry the present moment as the time of its last change. -/
def stamp (d : Disk) (route : Route) : Disk :=
  match d.get? route with
  | some e => (d.set route { e with modified := d.clock }).tick
  | none => d

def children (d : Disk) (route : Route) : List (String × Entry) :=
  d.toList.filterMap fun item =>
    match item.1.reverse with
    | name :: parent => if parent.reverse = route then some (name, item.2) else none
    | [] => none

/-- The entries below a route, by their path from there, in the order of the paths. -/
def below (d : Disk) (route : Route) : List (String × Entry) :=
  let inside := d.toList.filter fun item => route.isPrefixOf item.1 && item.1 != route
  let named := inside.map fun item => ("/".intercalate (item.1.drop route.length), item.2)
  named.mergeSort fun a b => !(b.1 < a.1)

def plainDirectory (modified : Moment) : Entry := ⟨.directory, 0o755, modified⟩

/-- Adds the directories that are missing on the way along a route. -/
def addParents (d : Disk) (modified : Moment) (done : Route) : Route → Disk
  | [] => d
  | name :: rest =>
      let here := if (d.get? done).isSome then d else d.set done (plainDirectory modified)
      addParents here modified (done ++ [name]) rest

/-- Puts an entry on a disk that is being set up, together with the directories above it. -/
def install (d : Disk) (modified : Moment) (route : Route) (e : Entry) : Disk :=
  (d.addParents modified [] route).set route e

end Disk

end LineShell
